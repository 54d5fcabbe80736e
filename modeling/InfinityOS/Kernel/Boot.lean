import InfinityOS.Kernel.Admission
import InfinityOS.Kernel.ServiceRegistry
import InfinityOS.Kernel.TraceLifecycle

/-!
# The start of the kernel

`ify_kernel_init` with the subsystems it starts: the service registry and the span
collector. The registry always starts; the collector does not when it is in use already or
without memory. Then the registry is shut down again and the kernel is not initialised, but
the capabilities and the limit on dimensions stay those of the failed call.
-/

namespace InfinityOS

namespace Kernel

open LockProgram

/-- `IFY_KSTATE_*`. -/
inductive KernelPhase where
  | uninit
  | running
  | shutdown
  deriving DecidableEq

/-- `ify_kernel_opts_t`. -/
structure KernelOpts where
  requestedCaps : Word
  maxDimensions : UInt32

structure Boot where
  state : KernelPhase
  grantedCaps : Word
  maxDimensions : UInt32
  registry : Registry
  trace : TraceState

/-- `discover_capabilities`: memory, scheduler, files, network, counters and GPU. -/
def discoverCapabilities (requested : Word) : Word :=
  let available : Word := 1 <<< 0 ||| 1 <<< 1 ||| 1 <<< 2 ||| 1 <<< 3 ||| 1 <<< 4 ||| 1 <<< 5
  requested &&& available

def Returned.rc : Returned → StatusCode
  | .status rc => rc
  | _ => ifyOk

namespace Boot

/-- The static data before any call. -/
def start : Boot :=
  { state := .uninit, grantedCaps := 0, maxDimensions := 256
    registry := .start, trace := .start }

/-- A public function of the registry, called by the kernel; `answers` are those of the
callbacks of the services. -/
def callRegistry (b : Boot) (program : ServiceProg) (answers : ℕ → StatusCode) :
    StatusCode × Boot :=
  let r := program.alone answers b.registry
  (r.1.rc, { b with registry := r.2 })

/-- `start_subsystems`, where `allocated` is whether `calloc` gives the ring of spans. -/
def startSubsystems (b : Boot) (allocated : Bool) (answers : ℕ → StatusCode) :
    StatusCode × Boot :=
  let (rc, b) := b.callRegistry serviceRegistryInit answers
  if rc ≠ ifyOk then (rc, b)
  else
    let (rc, trace) := b.trace.traceInit 256 allocated
    let b := { b with trace }
    if rc ≠ ifyOk then (rc, (b.callRegistry serviceRegistryShutdown answers).2)
    else (ifyOk, b)

/-- The first two stages of `ify_kernel_init`. -/
def applyOpts (b : Boot) (opts : KernelOpts) : Boot :=
  let b := { b with
    state := .running
    grantedCaps := discoverCapabilities opts.requestedCaps }
  if opts.maxDimensions ≠ 0 then { b with maxDimensions := opts.maxDimensions } else b

/-- `ify_kernel_init`. -/
def kernelInit (b : Boot) (opts : Option KernelOpts) (allocated : Bool)
    (answers : ℕ → StatusCode) : StatusCode × Boot :=
  match opts with
  | none => (errInvalidArg, b)
  | some opts =>
      if b.state ≠ .uninit then (errAlreadyExists, b)
      else
        let (rc, b) := (b.applyOpts opts).startSubsystems allocated answers
        if rc ≠ ifyOk then (rc, { b with state := .uninit })
        else (ifyOk, b)

/-- The flag, the capabilities and the limit are the same. -/
def SameKernel (b b' : Boot) : Prop :=
  b'.state = b.state ∧ b'.grantedCaps = b.grantedCaps ∧ b'.maxDimensions = b.maxDimensions

/-- The span collector can be started. -/
def CollectorStarts (b : Boot) (allocated : Bool) : Prop :=
  b.trace.initialized = false ∧ allocated = true

/-- The call would change neither the capabilities nor the limit. -/
def AsksForCurrent (b : Boot) (opts : KernelOpts) : Prop :=
  discoverCapabilities opts.requestedCaps = b.grantedCaps ∧
    (opts.maxDimensions = 0 ∨ opts.maxDimensions = b.maxDimensions)

/-! ## The subsystems -/

def freshRegistry : Registry :=
  { Registry.start with initialized := true }

theorem alone_shutdownLoop {r : Registry} (h : ∀ k, (r.slot k).state = .unregistered)
    (next : ServiceProg) (answers : ℕ → StatusCode) (n : ℕ) :
    (shutdownLoop n next).alone answers r = next.alone answers r := by
  induction n with
  | zero => rfl
  | succ n ih =>
      have hidle : ¬ ((r.slot n).state = .running ∨ (r.slot n).state = .starting) := by
        rw [h n]
        decide
      rw [shutdownLoop, read, Prog.alone]
      dsimp only
      rw [if_neg hidle]
      exact ih

theorem slot_freshRegistry (k : ℕ) : (freshRegistry.slot k).state = .unregistered := by
  unfold freshRegistry Registry.slot Registry.start
  dsimp only
  rw [List.getD_eq_getElem?_getD, List.getElem?_replicate]
  split <;> rfl

theorem alone_serviceRegistryShutdown (answers : ℕ → StatusCode) :
    serviceRegistryShutdown.alone answers freshRegistry = (.void, Registry.start) := by
  have hinit : freshRegistry.initialized = true := rfl
  rw [serviceRegistryShutdown, Prog.alone, read, Prog.alone, id, hinit, if_pos rfl,
    alone_shutdownLoop slot_freshRegistry]
  rfl

variable (b : Boot) (answers : ℕ → StatusCode)

theorem callRegistry_init :
    b.callRegistry serviceRegistryInit answers = (ifyOk, { b with registry := freshRegistry }) :=
  rfl

theorem traceInit_of_starts {allocated : Bool} (h : b.CollectorStarts allocated) :
    (b.trace.traceInit 256 allocated).1 = ifyOk := by
  obtain ⟨hinit, rfl⟩ := h
  unfold TraceState.traceInit
  rw [if_neg (by decide), hinit]
  rfl

theorem traceInit_of_not_starts {allocated : Bool} (h : ¬ b.CollectorStarts allocated) :
    ∃ rc, rc ≠ ifyOk ∧ b.trace.traceInit 256 allocated = (rc, b.trace) := by
  unfold CollectorStarts at h
  unfold TraceState.traceInit
  rw [if_neg (by decide)]
  cases hinit : b.trace.initialized with
  | true => exact ⟨errAlreadyExists, by decide, rfl⟩
  | false =>
      cases allocated with
      | true => exact absurd ⟨hinit, rfl⟩ h
      | false => exact ⟨errOutOfMemory, by decide, rfl⟩

theorem startSubsystems_of_starts {allocated : Bool} (h : b.CollectorStarts allocated) :
    b.startSubsystems allocated answers = (ifyOk, { b with
      registry := freshRegistry
      trace := (b.trace.traceInit 256 allocated).2 }) := by
  have hrc := traceInit_of_starts b h
  unfold startSubsystems
  rw [callRegistry_init]
  simp only [ne_eq, not_true_eq_false, if_false, hrc]

theorem startSubsystems_of_not_starts {allocated : Bool} (h : ¬ b.CollectorStarts allocated) :
    ∃ rc, rc ≠ ifyOk ∧
      b.startSubsystems allocated answers = (rc, { b with registry := .start }) := by
  obtain ⟨rc, hrc, htrace⟩ := traceInit_of_not_starts b h
  refine ⟨rc, hrc, ?_⟩
  unfold startSubsystems
  rw [callRegistry_init]
  simp only [ne_eq, not_true_eq_false, if_false, htrace, hrc, not_false_eq_true, if_true,
    callRegistry, alone_serviceRegistryShutdown]

/-! ## The call -/

theorem applyOpts_trace (o : KernelOpts) : (b.applyOpts o).trace = b.trace := by
  unfold applyOpts
  split <;> rfl

theorem sameKernel_applyOpts (hstate : b.state = .uninit) (o : KernelOpts) :
    SameKernel b { b.applyOpts o with registry := .start, state := .uninit } ↔
      b.AsksForCurrent o := by
  unfold SameKernel AsksForCurrent applyOpts
  by_cases hmax : o.maxDimensions = 0
  · simp [hstate, hmax]
  · simp [hstate, hmax]

theorem kernelInit_of_starts {o : KernelOpts} {allocated : Bool} (hstate : b.state = .uninit)
    (h : b.CollectorStarts allocated) :
    b.kernelInit (some o) allocated answers = (ifyOk, { b.applyOpts o with
      registry := freshRegistry
      trace := (b.trace.traceInit 256 allocated).2 }) := by
  have hstarts : (b.applyOpts o).CollectorStarts allocated := by
    rwa [CollectorStarts, applyOpts_trace]
  unfold kernelInit
  simp only [hstate, ne_eq, not_true_eq_false, if_false,
    startSubsystems_of_starts _ answers hstarts, applyOpts_trace]

theorem kernelInit_of_not_starts {o : KernelOpts} {allocated : Bool} (hstate : b.state = .uninit)
    (h : ¬ b.CollectorStarts allocated) :
    ∃ rc, rc ≠ ifyOk ∧ b.kernelInit (some o) allocated answers =
      (rc, { b.applyOpts o with registry := .start, state := .uninit }) := by
  have hnot : ¬ (b.applyOpts o).CollectorStarts allocated := by
    rwa [CollectorStarts, applyOpts_trace]
  obtain ⟨rc, hrc, hsub⟩ := startSubsystems_of_not_starts _ answers hnot
  refine ⟨rc, hrc, ?_⟩
  unfold kernelInit
  simp only [hstate, ne_eq, not_true_eq_false, if_false, hsub, hrc, not_false_eq_true, if_true]

/-- An init that fails leaves the flag, the capabilities and the limit exactly if it fails
before it looks at the options, cannot fail, or asks for what is there already. -/
theorem kernelInit_atomic_iff (opts : Option KernelOpts) (allocated : Bool) :
    ((b.kernelInit opts allocated answers).1 ≠ ifyOk →
        SameKernel b (b.kernelInit opts allocated answers).2) ↔
      ∀ o, opts = some o → b.state = .uninit → ¬ b.CollectorStarts allocated →
        b.AsksForCurrent o := by
  cases opts with
  | none =>
      refine iff_of_true (fun _ => ⟨rfl, rfl, rfl⟩) fun o ho => ?_
      cases ho
  | some o =>
      by_cases hstate : b.state = .uninit
      · by_cases hstarts : b.CollectorStarts allocated
        · refine iff_of_true (fun herror => ?_) fun _ _ _ hnot => absurd hstarts hnot
          rw [kernelInit_of_starts b answers hstate hstarts] at herror
          exact absurd rfl herror
        · obtain ⟨rc, hrc, hresult⟩ := kernelInit_of_not_starts b answers hstate hstarts
          rw [hresult]
          constructor
          · rintro hsame o' ho' - -
            obtain rfl := Option.some.inj ho'
            exact (sameKernel_applyOpts b hstate o).mp (hsame hrc)
          · intro hasks _
            exact (sameKernel_applyOpts b hstate o).mpr (hasks o rfl hstate hstarts)
      · refine iff_of_true (fun _ => ?_) fun _ _ hun => absurd hun hstate
        rw [kernelInit, if_pos hstate]
        exact ⟨rfl, rfl, rfl⟩

def collectorInUse : Boot :=
  { start with trace := (TraceState.start.traceInit 64 true).2 }

/-- The call fails, and yet its memory capability and its limit of four are set. -/
theorem kernelInit_keeps_options :
    ¬ ((collectorInUse.kernelInit (some ⟨1, 4⟩) true fun _ => ifyOk).1 ≠ ifyOk →
      SameKernel collectorInUse
        (collectorInUse.kernelInit (some ⟨1, 4⟩) true fun _ => ifyOk).2) := by
  intro hsame
  have hnot : ¬ collectorInUse.CollectorStarts true := fun hstarts =>
    absurd hstarts.1 (by decide)
  obtain ⟨rc, hrc, hresult⟩ :=
    kernelInit_of_not_starts collectorInUse (fun _ => ifyOk) (o := ⟨1, 4⟩) rfl hnot
  rw [hresult] at hsame
  have hasks := (sameKernel_applyOpts collectorInUse rfl ⟨1, 4⟩).mp (hsame hrc)
  exact absurd hasks.1 (by decide)

/-! ## The limit on dimensions -/

def toKernelState (b : Boot) (dims : List DimSlot) (dimCounter : Word) : KernelState :=
  { running := decide (b.state ≠ .uninit), dims, dimCounter, maxDimensions := b.maxDimensions }

/-- To them the start of the subsystems is an answer. -/
def subsystems (b : Boot) (allocated : Bool) : Except Int32 Unit :=
  let rc := (b.trace.traceInit 256 allocated).1
  if rc = ifyOk then .ok () else .error rc

theorem toKernelState_kernelInit (opts : Option KernelOpts) (allocated : Bool)
    (dims : List DimSlot) (dimCounter : Word) :
    (b.kernelInit opts allocated answers).2.toKernelState dims dimCounter =
      ((b.toKernelState dims dimCounter).kernelInit (opts.map KernelOpts.maxDimensions)
        (b.subsystems allocated)).2 := by
  cases opts with
  | none => rfl
  | some o =>
      by_cases hstate : b.state = .uninit
      · have hrunning : ¬ (b.toKernelState dims dimCounter).running = true := by
          simp only [toKernelState, hstate, ne_eq, not_true_eq_false, decide_false,
            Bool.false_eq_true, not_false_eq_true]
        rw [Option.map_some, KernelState.kernelInit, if_neg hrunning]
        by_cases hstarts : b.CollectorStarts allocated
        · have hok : b.subsystems allocated = .ok () := by
            rw [subsystems, traceInit_of_starts b hstarts, if_pos rfl]
          rw [kernelInit_of_starts b answers hstate hstarts, hok]
          unfold applyOpts toKernelState
          split_ifs
          · rfl
          · rfl
        · obtain ⟨rc, hrc, hresult⟩ := kernelInit_of_not_starts b answers (o := o) hstate hstarts
          obtain ⟨rc', hrc', htrace⟩ := traceInit_of_not_starts b hstarts
          have herror : b.subsystems allocated = .error rc' := by
            rw [subsystems, htrace, if_neg hrc']
          rw [hresult, herror]
          unfold applyOpts toKernelState
          rw [hstate]
          split_ifs
          · rfl
          · rfl
      · have hrunning : (b.toKernelState dims dimCounter).running = true := decide_eq_true hstate
        rw [kernelInit, if_pos hstate, Option.map_some, KernelState.kernelInit, if_pos hrunning]

end Boot

end Kernel

end InfinityOS
