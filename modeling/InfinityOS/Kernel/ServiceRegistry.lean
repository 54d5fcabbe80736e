import InfinityOS.Core.LockProgram
import InfinityOS.Kernel.Scheduler

/-!
# The service registry

The table of services behind the lock `g_svc_lock`, and every public function as a
program over it: where it takes and releases the lock, what it reads and writes in
between, where it waits for a callback or for the back-off. After each wait
`ify_service_start` looks its slot up again; when the slot is gone it returns without
releasing the lock.

A pointer argument is an option or, where only its presence matters, a flag; a service
name is its bytes before the terminating zero.
-/

namespace InfinityOS

namespace Kernel

open Transition LockProgram

/-- `IFY_SERVICE_MAX`. -/
def serviceMax : ℕ := 64

/-- `IFY_SERVICE_NAME_MAX`. -/
def serviceNameMax : ℕ := 64

abbrev ServiceId := UInt32

inductive ServiceState where
  | unregistered
  | registered
  | starting
  | running
  | stopping
  | failed
  | stopped
  deriving DecidableEq

/-- A descriptor; of the callbacks only whether they are given. -/
structure ServiceDescriptor where
  name : List UInt8
  hasStart : Bool
  hasStop : Bool
  hasHealth : Bool
  maxRestarts : UInt32
  backoffBaseMs : UInt32

structure ServiceSlot where
  desc : ServiceDescriptor
  id : ServiceId
  state : ServiceState
  restartCount : UInt32

def ServiceSlot.zero : ServiceSlot :=
  { desc := ⟨[], false, false, false, 0, 0⟩, id := 0, state := .unregistered, restartCount := 0 }

structure Registry where
  slots : List ServiceSlot
  nextId : UInt32
  initialized : Bool

namespace Registry

/-- The static data before any call. -/
def start : Registry :=
  { slots := List.replicate serviceMax .zero, nextId := 1, initialized := false }

def slotById (r : Registry) (id : ServiceId) : Option ℕ :=
  r.slots.findIdx? fun s => s.id = id ∧ s.state ≠ .unregistered

def slotFree (r : Registry) : Option ℕ :=
  r.slots.findIdx? fun s => s.state = .unregistered

/-- A registered service whose name agrees in the first `IFY_SERVICE_NAME_MAX` bytes
(`strncmp`). -/
def slotByName (r : Registry) (name : List UInt8) : Option ℕ :=
  r.slots.findIdx? fun s =>
    s.state ≠ .unregistered ∧ s.desc.name.take serviceNameMax = name.take serviceNameMax

def slot (r : Registry) (k : ℕ) : ServiceSlot :=
  r.slots.getD k .zero

def modifySlot (r : Registry) (k : ℕ) (f : ServiceSlot → ServiceSlot) : Registry :=
  { r with slots := r.slots.modify k f }

def setState (r : Registry) (k : ℕ) (state : ServiceState) : Registry :=
  r.modifySlot k fun s => { s with state }

end Registry

/-- What a function of the registry returns: nothing, a status, or `IFY_OK` with what it
writes through its out parameter. -/
inductive Returned where
  | void
  | status (rc : StatusCode)
  | id (id : ServiceId)
  | state (state : ServiceState)

/-- The accesses to the table. The lookups after a wait of `ify_service_start` are named
apart. -/
inductive Site where
  | plain
  | refetch (id : ServiceId)

abbrev ServiceProg := LockProgram.Prog Registry StatusCode Returned Site

def read (next : Registry → ServiceProg) : ServiceProg :=
  .access .plain id next

def write (f : Registry → Registry) (next : ServiceProg) : ServiceProg :=
  .access .plain f fun _ => next

def unlockRet (result : Returned) : ServiceProg :=
  .unlock (.ret result)

/-- `ify_service_registry_init`. -/
def serviceRegistryInit : ServiceProg :=
  .lock (write (fun _ => { Registry.start with initialized := true })
    (unlockRet (.status ifyOk)))

/-- The loop of `ify_service_registry_shutdown` over the slots below `n`, from the last
one down. -/
def shutdownLoop : ℕ → ServiceProg → ServiceProg
  | 0, next => next
  | n + 1, next =>
      read fun r =>
        let s := r.slot n
        if s.state = .running ∨ s.state = .starting then
          write (fun r => r.setState n .stopping)
            (if s.desc.hasStop then
              .unlock (.external fun _ => .lock
                (write (fun r => r.setState n .stopped) (shutdownLoop n next)))
            else
              write (fun r => r.setState n .stopped) (shutdownLoop n next))
        else shutdownLoop n next

/-- `ify_service_registry_shutdown`. -/
def serviceRegistryShutdown : ServiceProg :=
  .lock (read fun r =>
    if r.initialized then
      shutdownLoop serviceMax
        (write (fun r => { r with
            slots := List.replicate serviceMax .zero, initialized := false })
          (unlockRet .void))
    else unlockRet .void)

/-- `ify_service_register`. -/
def serviceRegister (desc : Option ServiceDescriptor) (hasOut : Bool) : ServiceProg :=
  match desc with
  | none => .ret (.status errInvalidArg)
  | some desc =>
      if !hasOut || !desc.hasStart || !desc.hasStop || desc.name.isEmpty then
        .ret (.status errInvalidArg)
      else
        .lock (read fun r =>
          match r.slotByName desc.name with
          | some _ => unlockRet (.status errAlreadyExists)
          | none =>
              match r.slotFree with
              | none => unlockRet (.status errOverflow)
              | some k =>
                  write (fun r => { r with
                      slots := r.slots.set k
                        { desc, id := r.nextId, state := .registered, restartCount := 0 }
                      nextId := r.nextId + 1 })
                    (unlockRet (.id r.nextId)))

/-- `ify_service_unregister`. -/
def serviceUnregister (id : ServiceId) : ServiceProg :=
  .lock (read fun r =>
    match r.slotById id with
    | none => unlockRet (.status errNotFound)
    | some k =>
        if (r.slot k).state = .running ∨ (r.slot k).state = .starting then
          unlockRet (.status errInvalidArg)
        else
          write (fun r => r.modifySlot k fun _ => .zero) (unlockRet (.status ifyOk)))

/-- The doubling loop of the back-off: `n` more turns, none from 30 s on. -/
def backoffLoop : ℕ → UInt32 → UInt32
  | 0, ms => ms
  | n + 1, ms => if ms < 30000 then backoffLoop n (ms * 2) else ms

def backoffMs (base : UInt32) (attempt : ℕ) : UInt32 :=
  min (backoffLoop attempt base) 30000

/-- One turn of the loop of `ify_service_start` up to the test of the callback's result:
the lock is released for the callback, the slot is looked up again. `failed` is what
follows a failure, in the slot found. -/
def startAttempt (id : ServiceId) (failed : ℕ → StatusCode → ServiceProg) : ServiceProg :=
  .unlock (.external fun rc => .lock (.access (.refetch id) (fun r => r) fun r =>
    match r.slotById id with
    | none => .ret (.status errNotFound)
    | some k =>
        if rc = ifyOk then
          write (fun r => r.setState k .running) (unlockRet (.status ifyOk))
        else
          write (fun r => r.modifySlot k fun s => { s with restartCount := s.restartCount + 1 })
            (failed k rc)))

/-- The loop of `ify_service_start` with `left` restarts left. -/
def startLoop (id : ServiceId) (maxRestarts backoffBase : UInt32) : ℕ → ServiceProg
  | 0 =>
      startAttempt id fun k rc =>
        write (fun r => r.setState k .failed) (unlockRet (.status rc))
  | left + 1 =>
      let attempt := maxRestarts.toNat - (left + 1)
      let again : ServiceProg :=
        .lock (.access (.refetch id) (fun r => r) fun r =>
          match r.slotById id with
          | none => .ret (.status errNotFound)
          | some _ => startLoop id maxRestarts backoffBase left)
      startAttempt id fun _ _ =>
        .unlock (if 0 < backoffMs backoffBase attempt then .external fun _ => again else again)

/-- `ify_service_start`. -/
def serviceStart (id : ServiceId) : ServiceProg :=
  .lock (read fun r =>
    match r.slotById id with
    | none => unlockRet (.status errNotFound)
    | some k =>
        let s := r.slot k
        if s.state ≠ .registered ∧ s.state ≠ .stopped ∧ s.state ≠ .failed then
          unlockRet (.status errInvalidArg)
        else
          write (fun r => r.modifySlot k fun s => { s with state := .starting, restartCount := 0 })
            (startLoop s.id s.desc.maxRestarts s.desc.backoffBaseMs s.desc.maxRestarts.toNat))

/-- `ify_service_stop`. -/
def serviceStop (id : ServiceId) : ServiceProg :=
  .lock (read fun r =>
    match r.slotById id with
    | none => unlockRet (.status errNotFound)
    | some k =>
        let s := r.slot k
        if s.state ≠ .running then
          unlockRet (.status errInvalidArg)
        else
          write (fun r => r.setState k .stopping)
            (.unlock (.external fun _ => .lock (read fun r =>
              match r.slotById s.id with
              | none => unlockRet (.status ifyOk)
              | some k =>
                  write (fun r => r.setState k .stopped) (unlockRet (.status ifyOk))))))

/-- `ify_service_state`. -/
def serviceState (id : ServiceId) (hasOut : Bool) : ServiceProg :=
  if hasOut then
    .lock (read fun r =>
      match r.slotById id with
      | none => unlockRet (.status errNotFound)
      | some k => unlockRet (.state (r.slot k).state))
  else .ret (.status errInvalidArg)

/-- `ify_service_health_check`. -/
def serviceHealthCheck (id : ServiceId) : ServiceProg :=
  .lock (read fun r =>
    match r.slotById id with
    | none => unlockRet (.status errNotFound)
    | some k =>
        .unlock (if (r.slot k).desc.hasHealth then .external fun rc => .ret (.status rc)
          else .ret (.status ifyOk)))

/-- `ify_service_find`. -/
def serviceFind (name : Option (List UInt8)) (hasOut : Bool) : ServiceProg :=
  match name with
  | none => .ret (.status errInvalidArg)
  | some name =>
      if hasOut then
        .lock (read fun r =>
          match r.slotByName name with
          | some k => unlockRet (.id (r.slot k).id)
          | none => unlockRet (.status errNotFound))
      else .ret (.status errInvalidArg)

/-- A public function with its arguments. -/
inductive ServiceCall where
  | init
  | shutdown
  | register (desc : Option ServiceDescriptor) (hasOut : Bool)
  | unregister (id : ServiceId)
  | start (id : ServiceId)
  | stop (id : ServiceId)
  | state (id : ServiceId) (hasOut : Bool)
  | healthCheck (id : ServiceId)
  | find (name : Option (List UInt8)) (hasOut : Bool)

def ServiceCall.program : ServiceCall → ServiceProg
  | init => serviceRegistryInit
  | shutdown => serviceRegistryShutdown
  | register desc hasOut => serviceRegister desc hasOut
  | unregister id => serviceUnregister id
  | start id => serviceStart id
  | stop id => serviceStop id
  | state id hasOut => serviceState id hasOut
  | healthCheck id => serviceHealthCheck id
  | find name hasOut => serviceFind name hasOut

/-- At a lookup after a wait of `ify_service_start` the service is still there. -/
def StillRegistered : Site → Registry → Prop
  | .plain, _ => True
  | .refetch id, r => (r.slotById id).isSome

/-! ## The functions are disciplined -/

section Discipline

variable {held : Bool}

theorem disciplined_read {next : Registry → ServiceProg} :
    Disciplined StillRegistered held (read next) ↔
      ∀ r, Disciplined StillRegistered held (next r) :=
  forall_congr' fun _ => ⟨fun h => h trivial, fun h _ => h⟩

theorem disciplined_write {f : Registry → Registry} {next : ServiceProg} :
    Disciplined StillRegistered held (write f next) ↔ Disciplined StillRegistered held next :=
  ⟨fun h => h Registry.start trivial, fun h _ _ => h⟩

theorem disciplined_unlockRet (result : Returned) :
    Disciplined StillRegistered true (unlockRet result) :=
  ⟨rfl, rfl⟩

theorem disciplined_locked {next : Registry → ServiceProg}
    (h : ∀ r, Disciplined StillRegistered true (next r)) :
    Disciplined StillRegistered false (.lock (read next)) :=
  ⟨rfl, disciplined_read.mpr h⟩

theorem disciplined_shutdownLoop (n : ℕ) {next : ServiceProg}
    (h : Disciplined StillRegistered true next) :
    Disciplined StillRegistered true (shutdownLoop n next) := by
  induction n with
  | zero => exact h
  | succ n ih =>
      rw [shutdownLoop, disciplined_read]
      intro r
      dsimp only
      split
      · rw [disciplined_write]
        split
        · exact ⟨rfl, fun _ => ⟨rfl, disciplined_write.mpr ih⟩⟩
        · exact disciplined_write.mpr ih
      · exact ih

theorem disciplined_refetch {id : ServiceId} {next : ℕ → ServiceProg}
    (h : ∀ k, Disciplined StillRegistered true (next k)) :
    Disciplined StillRegistered false (.lock (.access (.refetch id) (fun r => r) fun r =>
      match r.slotById id with
      | none => .ret (.status errNotFound)
      | some k => next k)) := by
  refine ⟨rfl, fun r hfound => ?_⟩
  obtain ⟨k, hk⟩ := Option.isSome_iff_exists.mp hfound
  dsimp only
  rw [hk]
  exact h k

theorem disciplined_startAttempt (id : ServiceId) {failed : ℕ → StatusCode → ServiceProg}
    (h : ∀ k rc, Disciplined StillRegistered true (failed k rc)) :
    Disciplined StillRegistered true (startAttempt id failed) := by
  refine ⟨rfl, fun rc => disciplined_refetch fun k => ?_⟩
  split
  · exact disciplined_write.mpr (disciplined_unlockRet _)
  · exact disciplined_write.mpr (h k rc)

theorem disciplined_startLoop (id : ServiceId) (maxRestarts backoffBase : UInt32) (left : ℕ) :
    Disciplined StillRegistered true (startLoop id maxRestarts backoffBase left) := by
  induction left with
  | zero =>
      apply disciplined_startAttempt
      intro k rc
      exact disciplined_write.mpr (disciplined_unlockRet _)
  | succ left ih =>
      apply disciplined_startAttempt
      intro _ _
      refine ⟨rfl, ?_⟩
      split
      · exact fun _ => disciplined_refetch fun _ => ih
      · exact disciplined_refetch fun _ => ih

theorem disciplined_serviceRegister (desc : Option ServiceDescriptor) (hasOut : Bool) :
    Disciplined StillRegistered false (serviceRegister desc hasOut) := by
  cases desc with
  | none => exact rfl
  | some desc =>
      rw [serviceRegister]
      split
      · exact rfl
      · apply disciplined_locked
        intro r
        split
        · exact disciplined_unlockRet _
        · split
          · exact disciplined_unlockRet _
          · exact disciplined_write.mpr (disciplined_unlockRet _)

theorem disciplined_serviceUnregister (id : ServiceId) :
    Disciplined StillRegistered false (serviceUnregister id) := by
  apply disciplined_locked
  intro r
  split
  · exact disciplined_unlockRet _
  · split
    · exact disciplined_unlockRet _
    · exact disciplined_write.mpr (disciplined_unlockRet _)

theorem disciplined_serviceStart (id : ServiceId) :
    Disciplined StillRegistered false (serviceStart id) := by
  apply disciplined_locked
  intro r
  split
  · exact disciplined_unlockRet _
  · dsimp only
    split
    · exact disciplined_unlockRet _
    · exact disciplined_write.mpr (disciplined_startLoop _ _ _ _)

theorem disciplined_serviceStop (id : ServiceId) :
    Disciplined StillRegistered false (serviceStop id) := by
  apply disciplined_locked
  intro r
  split
  · exact disciplined_unlockRet _
  · dsimp only
    split
    · exact disciplined_unlockRet _
    · rw [disciplined_write]
      refine ⟨rfl, fun _ => disciplined_locked fun r => ?_⟩
      split
      · exact disciplined_unlockRet _
      · exact disciplined_write.mpr (disciplined_unlockRet _)

theorem disciplined_serviceState (id : ServiceId) (hasOut : Bool) :
    Disciplined StillRegistered false (serviceState id hasOut) := by
  rw [serviceState]
  split
  · apply disciplined_locked
    intro r
    split <;> exact disciplined_unlockRet _
  · exact rfl

theorem disciplined_serviceHealthCheck (id : ServiceId) :
    Disciplined StillRegistered false (serviceHealthCheck id) := by
  apply disciplined_locked
  intro r
  split
  · exact disciplined_unlockRet _
  · refine ⟨rfl, ?_⟩
    split
    · exact fun _ => rfl
    · exact rfl

theorem disciplined_serviceFind (name : Option (List UInt8)) (hasOut : Bool) :
    Disciplined StillRegistered false (serviceFind name hasOut) := by
  cases name with
  | none => exact rfl
  | some name =>
      rw [serviceFind]
      split
      · apply disciplined_locked
        intro r
        split <;> exact disciplined_unlockRet _
      · exact rfl

theorem ServiceCall.disciplined (call : ServiceCall) :
    Disciplined StillRegistered false call.program := by
  cases call with
  | init => exact ⟨rfl, disciplined_write.mpr (disciplined_unlockRet _)⟩
  | shutdown =>
      apply disciplined_locked
      intro r
      split
      · exact disciplined_shutdownLoop _ (disciplined_write.mpr (disciplined_unlockRet _))
      · exact disciplined_unlockRet _
  | register desc hasOut => exact disciplined_serviceRegister desc hasOut
  | unregister id => exact disciplined_serviceUnregister id
  | start id => exact disciplined_serviceStart id
  | stop id => exact disciplined_serviceStop id
  | state id hasOut => exact disciplined_serviceState id hasOut
  | healthCheck id => exact disciplined_serviceHealthCheck id
  | find name hasOut => exact disciplined_serviceFind name hasOut

end Discipline

/-! ## All interleavings -/

section Threads

variable {ι : Type*}

/-- The threads of the kernel that are in calls of the registry. -/
abbrev RegistryMachine (ι : Type*) := LockProgram.Machine ι Registry StatusCode Returned Site

/-- A thread calls a public function, or makes its next step; the answer is that of the
callback it waits for. -/
inductive RegistryLabel (ι : Type*) where
  | call (i : ι) (call : ServiceCall)
  | run (i : ι) (answer : StatusCode)

/-- The step is no lookup of `ify_service_start` after a wait that fails. -/
def FindsService (m : RegistryMachine ι) : RegistryLabel ι → Prop
  | .call _ _ => True
  | .run i _ => ∀ id write next, m.thread i = some (.access (.refetch id) write next) →
      (m.shared.slotById id).isSome

/-- `FindsService` as a test. -/
def findsService (m : RegistryMachine ι) : RegistryLabel ι → Bool
  | .call _ _ => true
  | .run i _ =>
      match m.thread i with
      | some (.access (.refetch id) _ _) => (m.shared.slotById id).isSome
      | _ => true

theorem finds_of_findsService (m : RegistryMachine ι) (a : RegistryLabel ι)
    (h : findsService m a = true) : FindsService m a := by
  cases a with
  | call i call => trivial
  | run i answer =>
      intro id write next hi
      rw [findsService, hi] at h
      exact h

def RegistryLabel.toLabel :
    RegistryLabel ι → LockProgram.Label ι Registry StatusCode Returned Site
  | .call i called => .call i called.program
  | .run i answer => .run i answer

theorem admits_of_findsService (m : RegistryMachine ι) (a : RegistryLabel ι)
    (ha : FindsService m a) : Admits StillRegistered m a.toLabel := by
  cases a with
  | call i call => exact call.disciplined
  | run i answer =>
      intro site write next hi
      cases site with
      | plain => trivial
      | refetch id => exact ha id write next hi

variable [DecidableEq ι]

def registryStep (m : RegistryMachine ι) : RegistryLabel ι → Option (RegistryMachine ι)
  | .call i call => m.step (.call i call.program)
  | .run i answer => m.step (.run i answer)

/-- In every interleaving of calls of the registry in which every lookup after a wait finds
its service, a thread returns without the lock and releases it only when it holds it. -/
theorem registry_respects_lock {m : RegistryMachine ι}
    (h : Reach (fun m a m' => registryStep m a = some m') FindsService
      (.new .start : RegistryMachine ι) m) : RespectsLock m := by
  apply respectsLock_of_reach
  apply h.map RegistryLabel.toLabel admits_of_findsService
  intro m a m' hstep
  cases a with
  | call i call => exact hstep
  | run i answer => exact hstep

def loggerDescriptor : ServiceDescriptor :=
  { name := [108, 111, 103], hasStart := true, hasStop := true, hasHealth := false
    maxRestarts := 0, backoffBaseMs := 100 }

/-- A call of a function, followed by a number of its steps in which every callback answers
`IFY_OK`. -/
def callSteps (i : ι) (call : ServiceCall) (n : ℕ) : List (RegistryLabel ι) :=
  .call i call :: List.replicate n (.run i ifyOk)

def returning : Option ServiceProg → Option StatusCode
  | some (.ret (.status rc)) => some rc
  | _ => none

theorem eq_ret_of_returning {p : Option ServiceProg} {rc : StatusCode}
    (h : returning p = some rc) : p = some (.ret (.status rc)) := by
  unfold returning at h
  split at h
  · cases h
    rfl
  · cases h

/-- One thread registers and starts a service; while the callback runs, another thread
shuts the registry down. -/
def shutdownRun : List (RegistryLabel Bool) :=
  callSteps false .init 4 ++ callSteps false (.register (some loggerDescriptor) true) 5 ++
    callSteps false (.start 1) 5 ++ callSteps true .shutdown 74 ++
    List.replicate 2 (.run false ifyOk)

/-- `ify_service_start` is about to return and its thread holds the lock. -/
theorem start_returns_with_lock :
    ∃ m : RegistryMachine Bool,
      Reach (fun m a m' => registryStep m a = some m') (fun _ _ => True) (.new .start) m ∧
        ¬ RespectsLock m := by
  refine ⟨follow registryStep (.new .start) shutdownRun, reach_follow .refl _, fun h => ?_⟩
  have hreturns : returning ((follow registryStep (.new .start) shutdownRun).thread false) =
      some errNotFound := by decide +kernel
  have hholder : (follow registryStep (.new .start) shutdownRun).holder = some false := by
    decide +kernel
  exact h.1 false _ (eq_ret_of_returning hreturns) hholder

/-- A service with one restart is started by one thread. While its callback runs, another
thread asks for its state and keeps the lock until the callback has failed; the second
attempt succeeds. -/
def startRun : List (RegistryLabel Bool) :=
  callSteps false .init 4 ++
    callSteps false (.register (some { loggerDescriptor with maxRestarts := 1 }) true) 5 ++
    callSteps true (.start 1) 4 ++ callSteps false (.state 1 true) 2 ++
    [.run true errOutOfMemory, .run true ifyOk] ++ List.replicate 2 (.run false ifyOk) ++
    List.replicate 13 (.run true ifyOk)

theorem registry_respects_lock_start :
    returning ((follow registryStep (.new .start) startRun).thread true) = some ifyOk ∧
      ((follow registryStep (.new .start) startRun).shared.slot 0).restartCount = 1 ∧
      RespectsLock (follow registryStep (.new .start : RegistryMachine Bool) startRun) := by
  refine ⟨by decide +kernel, by decide +kernel, ?_⟩
  apply registry_respects_lock
  apply reach_follow_of_admitted .refl
  apply admitted_of_accepts finds_of_findsService
  decide +kernel

end Threads

end Kernel

end InfinityOS
