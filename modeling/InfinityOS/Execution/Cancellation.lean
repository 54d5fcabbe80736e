import InfinityOS.Transition.Reach

/-!
# Cancellation in the executor

Tasks of the executor, `TaskHandle::cancel` with its two compare-exchanges and
`run_all`, step by step. The worker of a task stores `Running` and the final state
whatever the state of the task is, so a cancelled task is run all the same, and a
cancellation is overwritten. Cancellation does what it promises for the tasks that stay in
the queue: those that are cancelled there, when `run_all` is not called any more.

A queued task is moved from the queue to `run_all` and on to a worker, so the place it
is at is kept with the task: the queue is the list of the tasks in the phase `queued`,
in the order of submission. The ids, the completion channels and the logging are left
out.
-/

namespace InfinityOS

namespace Execution

open Transition

inductive TaskState where
  | queued
  | running
  | paused
  | cancelled
  | failed
  | completed
  deriving DecidableEq

def TaskState.isTerminal : TaskState → Bool
  | cancelled | failed | completed => true
  | _ => false

structure ExecutorConfig where
  maxConcurrent : ℕ
  queueDepth : ℕ

/-- Where a task is: in the queue, in the list of a call of `run_all`, or at a point of
its worker. -/
inductive Phase where
  | queued
  | taken (run : ℕ)
  /-- spawned with a permit of the call -/
  | spawned (run : ℕ)
  /-- `Running` is stored -/
  | started (run : ℕ)
  /-- the future is being run -/
  | executing (run : ℕ)
  /-- the future has returned, the permit is dropped -/
  | finished (result : Except String Unit)
  /-- the final state is stored -/
  | ended

/-- The future has been run, at least in part. -/
def Phase.hasRun : Phase → Bool
  | executing _ | finished _ | ended => true
  | _ => false

/-- A task. `withdrawn` records that a `cancel` has moved it from `Queued` to
`Cancelled`; the code has no such field. -/
structure Task where
  state : TaskState
  phase : Phase
  withdrawn : Bool

def Task.new : Task :=
  { state := .queued, phase := .queued, withdrawn := false }

/-- The tasks in the order of submission, the permits that each call of `run_all` has in
use, and the task of each caller that is between the two exchanges of `cancel`. -/
structure Executor (ι : Type*) where
  tasks : List Task
  permits : List ℕ
  cancelling : ι → Option ℕ

inductive Step (ι : Type*) where
  | submit
  | cancelRunning (caller : ι) (task : ℕ)
  | cancelQueued (caller : ι)
  | takeQueue
  | spawn (task : ℕ)
  | storeRunning (task : ℕ)
  | poll (task : ℕ)
  | resolve (task : ℕ) (result : Except String Unit)
  | storeResult (task : ℕ)

variable {ι : Type*}

def Phase.isQueued : Phase → Bool
  | queued => true
  | _ => false

def Phase.isTaken (run : ℕ) : Phase → Bool
  | taken r => r = run
  | _ => false

namespace Executor

def new : Executor ι :=
  { tasks := [], permits := [], cancelling := fun _ => none }

def queueLength (s : Executor ι) : ℕ :=
  s.tasks.countP fun t => t.phase.isQueued

def setTask (s : Executor ι) (task : ℕ) (t : Task) : Executor ι :=
  { s with tasks := s.tasks.set task t }

/-- `compare_exchange` on the state of a task. -/
def compareExchange (s : Executor ι) (task : ℕ) (current next : TaskState) : Executor ι :=
  match s.tasks[task]? with
  | none => s
  | some t =>
      if t.state = current then
        s.setTask task { t with
          state := next, withdrawn := t.withdrawn || decide (current = .queued) }
      else s

def step [DecidableEq ι] (config : ExecutorConfig) (s : Executor ι) :
    Step ι → Option (Executor ι)
  | .submit =>
      -- a full queue is an error, nothing changes
      if config.queueDepth ≤ s.queueLength then some s
      else some { s with tasks := s.tasks ++ [Task.new] }
  | .cancelRunning i task =>
      if task < s.tasks.length ∧ s.cancelling i = none then
        let s := s.compareExchange task .running .cancelled
        some { s with cancelling := Function.update s.cancelling i (some task) }
      else none
  | .cancelQueued i =>
      match s.cancelling i with
      | none => none
      | some task =>
          let s := s.compareExchange task .queued .cancelled
          some { s with cancelling := Function.update s.cancelling i none }
  | .takeQueue =>
      let run := s.permits.length
      some { s with
        tasks := s.tasks.map fun t =>
          if t.phase.isQueued then { t with phase := .taken run } else t
        permits := s.permits ++ [0] }
  | .spawn task =>
      match s.tasks[task]? with
      | some { state, phase := .taken run, withdrawn } =>
          -- the tasks of a call are spawned in order, each with a permit
          if s.tasks.findIdx? (fun t => t.phase.isTaken run) = some task ∧
              s.permits.getD run 0 < config.maxConcurrent then
            let s := s.setTask task { state, phase := .spawned run, withdrawn }
            some { s with permits := s.permits.modify run fun n => n + 1 }
          else none
      | _ => none
  | .storeRunning task =>
      match s.tasks[task]? with
      | some { phase := .spawned run, withdrawn, .. } =>
          some (s.setTask task { state := .running, phase := .started run, withdrawn })
      | _ => none
  | .poll task =>
      match s.tasks[task]? with
      | some { state, phase := .started run, withdrawn } =>
          some (s.setTask task { state, phase := .executing run, withdrawn })
      | _ => none
  | .resolve task result =>
      match s.tasks[task]? with
      | some { state, phase := .executing run, withdrawn } =>
          let s := s.setTask task { state, phase := .finished result, withdrawn }
          some { s with permits := s.permits.modify run fun n => n - 1 }
      | _ => none
  | .storeResult task =>
      match s.tasks[task]? with
      | some { phase := .finished result, withdrawn, .. } =>
          let state : TaskState :=
            match result with
            | .ok () => .completed
            | .error _ => .failed
          some (s.setTask task { state, phase := .ended, withdrawn })
      | _ => none

end Executor

/-- A `cancel` does not find its task running, and a task that it moves from `Queued` is still
in the queue. `run_all` is not called while a cancelled task is there. -/
def CancelsInQueue (s : Executor ι) : Step ι → Prop
  | .cancelRunning _ task => ∀ t, s.tasks[task]? = some t → t.state ≠ .running
  | .cancelQueued i => ∀ task t, s.cancelling i = some task → s.tasks[task]? = some t →
      t.state = .queued → t.phase = .queued
  | .takeQueue => ∀ t ∈ s.tasks, t.phase = .queued → t.state ≠ .cancelled
  | _ => True

/-- What a step can do to one task when tasks are only cancelled in the queue. -/
inductive Changes : Task → Task → Prop
  | refl (t : Task) : Changes t t
  | withdrawn (t : Task) (h : t.state = .queued) (hphase : t.phase = .queued) :
      Changes t { t with state := .cancelled, withdrawn := true }
  | taken (t : Task) (run : ℕ) (h : t.phase = .queued) (hlive : t.state ≠ .cancelled) :
      Changes t { t with phase := .taken run }
  | spawned (t : Task) (run : ℕ) (h : t.phase = .taken run) :
      Changes t { t with phase := .spawned run }
  | started (t : Task) (run : ℕ) (h : t.phase = .spawned run) :
      Changes t { t with state := .running, phase := .started run }
  | polled (t : Task) (run : ℕ) (h : t.phase = .started run) :
      Changes t { t with phase := .executing run }
  | resolved (t : Task) (run : ℕ) (result : Except String Unit)
      (h : t.phase = .executing run) : Changes t { t with phase := .finished result }
  | stored (t : Task) (result : Except String Unit) (state : TaskState)
      (h : t.phase = .finished result) (hstate : state = .completed ∨ state = .failed) :
      Changes t { t with state, phase := .ended }

/-- The state of a task fits the place it is at. Only in the queue a task is cancelled. -/
def Task.Consistent (t : Task) : Prop :=
  match t.phase with
  | .queued => (t.state = .queued ∧ t.withdrawn = false) ∨ t.state = .cancelled
  | .taken _ | .spawned _ => t.state = .queued ∧ t.withdrawn = false
  | .started _ | .executing _ | .finished _ => t.state = .running ∧ t.withdrawn = false
  | .ended => (t.state = .completed ∨ t.state = .failed) ∧ t.withdrawn = false

/-! ## One task -/

variable {t t' : Task}

theorem Task.consistent_new : Task.new.Consistent :=
  .inl ⟨rfl, rfl⟩

theorem Changes.consistent (h : Changes t t') (ht : t.Consistent) : t'.Consistent := by
  obtain ⟨state, phase, withdrawn⟩ := t
  cases h with
  | refl => exact ht
  | withdrawn h hphase =>
      obtain rfl : phase = .queued := hphase
      exact .inr rfl
  | taken run h hlive =>
      obtain rfl : phase = .queued := h
      exact ht.resolve_right hlive
  | spawned run h =>
      obtain rfl : phase = .taken run := h
      exact ht
  | started run h =>
      obtain rfl : phase = .spawned run := h
      exact ⟨rfl, ht.2⟩
  | polled run h =>
      obtain rfl : phase = .started run := h
      exact ht
  | resolved run result h =>
      obtain rfl : phase = .executing run := h
      exact ht
  | stored result state' h hstate =>
      obtain rfl : phase = .finished result := h
      exact ⟨hstate, ht.2⟩

theorem Changes.state_eq (h : Changes t t') (ht : t.Consistent)
    (hterminal : t.state.isTerminal = true) : t'.state = t.state := by
  obtain ⟨state, phase, withdrawn⟩ := t
  cases h with
  | refl | taken | spawned | polled | resolved => rfl
  | withdrawn h hphase =>
      obtain rfl : state = .queued := h
      cases hterminal
  | started run h =>
      obtain rfl : phase = .spawned run := h
      obtain rfl : state = .queued := ht.1
      cases hterminal
  | stored result state' h hstate =>
      obtain rfl : phase = .finished result := h
      obtain rfl : state = .running := ht.1
      cases hterminal

theorem Task.Consistent.not_hasRun (ht : t.Consistent) (hwithdrawn : t.withdrawn = true) :
    t.phase.hasRun = false := by
  obtain ⟨state, phase, withdrawn⟩ := t
  cases phase <;> simp_all [Task.Consistent, Phase.hasRun]

/-! ## All tasks -/

/-- Every task makes at most one change; a task that was not there is a new one. -/
structure Evolves (s s' : Executor ι) : Prop where
  change : ∀ (i : ℕ) (t : Task), s.tasks[i]? = some t → ∃ t', s'.tasks[i]? = some t' ∧ Changes t t'
  fresh : ∀ (i : ℕ) (t' : Task), s.tasks[i]? = none → s'.tasks[i]? = some t' → t' = Task.new

variable {s s' : Executor ι}

theorem evolves_of_tasks_eq (h : s'.tasks = s.tasks) : Evolves s s' := by
  constructor
  · intro i t ht
    exact ⟨t, by rw [h, ht], .refl t⟩
  · intro i t' hnone ht'
    rw [h, hnone] at ht'
    cases ht'

theorem evolves_of_set {task : ℕ} (ht : s.tasks[task]? = some t) (hc : Changes t t')
    (h : s'.tasks = s.tasks.set task t') : Evolves s s' := by
  constructor
  · intro i u hu
    rw [h, List.getElem?_set]
    by_cases hi : task = i
    · subst hi
      rw [ht] at hu
      cases hu
      obtain ⟨hlt, -⟩ := List.getElem?_eq_some_iff.mp ht
      exact ⟨t', by rw [if_pos rfl, if_pos hlt], hc⟩
    · exact ⟨u, by rw [if_neg hi, hu], .refl u⟩
  · intro i u hnone hu
    rw [h, List.getElem?_set] at hu
    by_cases hi : task = i
    · subst hi
      rw [ht] at hnone
      cases hnone
    · rw [if_neg hi, hnone] at hu
      cases hu

theorem Phase.isQueued_iff {phase : Phase} : phase.isQueued = true ↔ phase = .queued := by
  cases phase <;> simp [Phase.isQueued]

theorem evolves_of_map (run : ℕ) (hlive : ∀ t ∈ s.tasks, t.phase = .queued → t.state ≠ .cancelled)
    (h : s'.tasks = s.tasks.map fun t =>
      if t.phase.isQueued then { t with phase := .taken run } else t) : Evolves s s' := by
  constructor
  · intro i t ht
    rw [h, List.getElem?_map, ht]
    refine ⟨_, rfl, ?_⟩
    dsimp only
    split
    · next hq =>
        have hphase := Phase.isQueued_iff.mp hq
        exact .taken t run hphase (hlive t (List.mem_of_getElem? ht) hphase)
    · exact .refl t
  · intro i t' hnone ht'
    rw [h, List.getElem?_map, hnone] at ht'
    cases ht'

theorem evolves_of_compareExchange {task : ℕ} {current next : TaskState}
    (hchange : ∀ t : Task, s.tasks[task]? = some t → t.state = current → Changes t { t with
      state := next, withdrawn := t.withdrawn || decide (current = .queued) })
    (h : s'.tasks = (s.compareExchange task current next).tasks) : Evolves s s' := by
  unfold Executor.compareExchange at h
  split at h
  · exact evolves_of_tasks_eq h
  · next t ht =>
      split at h
      · next hstate => exact evolves_of_set ht (hchange t ht hstate) h
      · exact evolves_of_tasks_eq h

theorem evolves_of_append (h : s'.tasks = s.tasks ++ [Task.new]) : Evolves s s' := by
  constructor
  · intro i t ht
    refine ⟨t, ?_, .refl t⟩
    rw [h, List.getElem?_append_left (List.getElem?_eq_some_iff.mp ht).1, ht]
  · intro i t' hnone ht'
    rw [h, List.getElem?_append_right (List.getElem?_eq_none_iff.mp hnone)] at ht'
    exact List.mem_singleton.mp (List.mem_of_getElem? ht')

theorem step_evolves [DecidableEq ι] {config : ExecutorConfig} {a : Step ι}
    (hstep : s.step config a = some s') (hcancel : CancelsInQueue s a) : Evolves s s' := by
  cases a with
  | submit =>
      simp only [Executor.step] at hstep
      split at hstep
      · cases hstep
        exact evolves_of_tasks_eq rfl
      · cases hstep
        exact evolves_of_append rfl
  | cancelRunning i task =>
      simp only [Executor.step] at hstep
      split at hstep
      · cases hstep
        exact evolves_of_compareExchange (fun t ht hstate => absurd hstate (hcancel t ht)) rfl
      · cases hstep
  | cancelQueued i =>
      simp only [Executor.step] at hstep
      split at hstep
      · cases hstep
      · next task htask =>
          cases hstep
          refine evolves_of_compareExchange (fun t ht hstate => ?_) rfl
          simpa using Changes.withdrawn t hstate (hcancel task t htask ht hstate)
  | takeQueue =>
      cases hstep
      exact evolves_of_map s.permits.length hcancel rfl
  | spawn task =>
      simp only [Executor.step] at hstep
      split at hstep
      · next state run withdrawn ht =>
          split at hstep
          · cases hstep
            exact evolves_of_set ht (.spawned _ run rfl) rfl
          · cases hstep
      · cases hstep
  | storeRunning task =>
      simp only [Executor.step] at hstep
      split at hstep
      · next state run withdrawn ht =>
          cases hstep
          exact evolves_of_set ht (.started _ run rfl) rfl
      · cases hstep
  | poll task =>
      simp only [Executor.step] at hstep
      split at hstep
      · next state run withdrawn ht =>
          cases hstep
          exact evolves_of_set ht (.polled _ run rfl) rfl
      · cases hstep
  | resolve task result =>
      simp only [Executor.step] at hstep
      split at hstep
      · next state run withdrawn ht =>
          cases hstep
          exact evolves_of_set ht (.resolved _ run result rfl) rfl
      · cases hstep
  | storeResult task =>
      simp only [Executor.step] at hstep
      split at hstep
      · next state result withdrawn ht =>
          cases hstep
          refine evolves_of_set ht (.stored _ result _ rfl ?_) rfl
          cases result with
          | ok => exact .inl rfl
          | error e => exact .inr rfl
      · cases hstep

/-- Every task is consistent. -/
def AllConsistent (s : Executor ι) : Prop :=
  ∀ (i : ℕ) (t : Task), s.tasks[i]? = some t → t.Consistent

theorem Evolves.allConsistent (h : Evolves s s') (hs : AllConsistent s) : AllConsistent s' := by
  intro i t' ht'
  cases ht : s.tasks[i]? with
  | none =>
      rw [h.fresh i t' ht ht']
      exact Task.consistent_new
  | some t =>
      obtain ⟨u, hu, hc⟩ := h.change i t ht
      rw [ht'] at hu
      cases hu
      exact hc.consistent (hs i t ht)

/-- The executor at the start of a run, and every state reached from it. -/
def Runs [DecidableEq ι] (config : ExecutorConfig) (s s' : Executor ι) : Prop :=
  Reach (fun s a t => s.step config a = some t) CancelsInQueue s s'

theorem allConsistent_of_runs [DecidableEq ι] {config : ExecutorConfig}
    (h : Runs config s s') (hs : AllConsistent s) : AllConsistent s' :=
  h.invariant AllConsistent hs fun _ _ _ ht hcancel hstep =>
    (step_evolves hstep hcancel).allConsistent ht

theorem terminal_of_runs [DecidableEq ι] {config : ExecutorConfig} (h : Runs config s s')
    (hs : AllConsistent s) {i : ℕ} (ht : s.tasks[i]? = some t)
    (hterminal : t.state.isTerminal = true) :
    ∃ t', s'.tasks[i]? = some t' ∧ t'.state = t.state := by
  have hinv : AllConsistent s' ∧ ∃ t', s'.tasks[i]? = some t' ∧ t'.state = t.state := by
    refine h.invariant (fun u => AllConsistent u ∧ ∃ t', u.tasks[i]? = some t' ∧
      t'.state = t.state) ⟨hs, t, ht, rfl⟩ ?_
    rintro u a v ⟨hu, t₁, ht₁, hsame⟩ hcancel hstep
    have hevolves := step_evolves hstep hcancel
    obtain ⟨t₂, ht₂, hc⟩ := hevolves.change i t₁ ht₁
    have hkeep := hc.state_eq (hu i t₁ ht₁) (by rw [hsame]; exact hterminal)
    exact ⟨hevolves.allConsistent hu, t₂, ht₂, hkeep.trans hsame⟩
  exact hinv.2

/-- In every run in which tasks are only cancelled in the queue and `run_all` is not called after
that: a task that `cancel` moved from `Queued` to `Cancelled` does not have its future run, and
a task in a terminal state is in that state ever after. -/
theorem cancellation_respected [DecidableEq ι] (config : ExecutorConfig)
    (h : Runs config (.new : Executor ι) s) :
    (∀ (i : ℕ) (t : Task), s.tasks[i]? = some t → t.withdrawn = true → t.phase.hasRun = false) ∧
    ∀ s', Runs config s s' → ∀ (i : ℕ) (t : Task), s.tasks[i]? = some t →
      t.state.isTerminal = true → ∃ t', s'.tasks[i]? = some t' ∧ t'.state = t.state := by
  have hs : AllConsistent s := by
    apply allConsistent_of_runs h
    intro i t ht
    simp [Executor.new] at ht
  exact ⟨fun i t ht hwithdrawn => (hs i t ht).not_hasRun hwithdrawn,
    fun s' h' i t ht hterminal => terminal_of_runs h' hs ht hterminal⟩

def cancelledRun : List (Step Unit) :=
  [.submit, .cancelRunning () 0, .cancelQueued (), .takeQueue, .spawn 0,
   .storeRunning 0, .poll 0]

/-- The future of the cancelled task is run. -/
theorem cancelled_task_runs :
    ∃ s : Executor Unit,
      Reach (fun s a t => s.step ⟨32, 1024⟩ a = some t) (fun _ _ => True) .new s ∧
      ∃ t, s.tasks[0]? = some t ∧ t.withdrawn = true ∧ t.phase.hasRun = true := by
  refine ⟨follow (Executor.step ⟨32, 1024⟩) .new cancelledRun, reach_follow .refl _, ?_⟩
  exact ⟨_, rfl, rfl, rfl⟩

/-- The first task completes and the second one fails, both with a `cancel` that comes too late
or in between. The third one is cancelled in the queue. -/
def orderlyRun : List (Step Bool) :=
  [.submit, .submit, .takeQueue, .cancelRunning true 0, .spawn 0, .spawn 1, .storeRunning 0,
   .cancelQueued true, .storeRunning 1, .poll 1, .poll 0, .resolve 0 (.ok ()), .submit,
   .storeResult 0, .cancelRunning false 0, .resolve 1 (.error "timeout"),
   .cancelRunning true 2, .storeResult 1, .cancelQueued true, .cancelQueued false]

/-- `CancelsInQueue` as a test. -/
def cancelsInQueueTest (s : Executor ι) : Step ι → Bool
  | .cancelRunning _ task => s.tasks[task]?.all fun t => t.state ≠ .running
  | .cancelQueued i => (s.cancelling i).all fun task =>
      s.tasks[task]?.all fun t => t.state ≠ .queued || t.phase.isQueued
  | .takeQueue => s.tasks.all fun t => !t.phase.isQueued || t.state ≠ .cancelled
  | _ => true

theorem cancelsInQueue_of_test (s : Executor ι) (a : Step ι)
    (h : cancelsInQueueTest s a = true) : CancelsInQueue s a := by
  cases a with
  | cancelRunning i task =>
      intro t ht
      simpa [cancelsInQueueTest, ht] using h
  | cancelQueued i =>
      intro task t htask ht hstate
      apply Phase.isQueued_iff.mp
      simpa [cancelsInQueueTest, htask, ht, hstate] using h
  | takeQueue =>
      intro t ht hphase
      have hlive := List.all_eq_true.mp h t ht
      simpa [Phase.isQueued_iff.mpr hphase] using hlive
  | _ => trivial

theorem cancellation_respected_orderly :
    let s : Executor Bool := follow (Executor.step ⟨32, 1024⟩) .new orderlyRun
    s.tasks.map (fun t => (t.state, t.withdrawn)) =
        [(.completed, false), (.failed, false), (.cancelled, true)] ∧
      ∀ s', Runs ⟨32, 1024⟩ s s' →
        (∀ (i : ℕ) (t : Task), s.tasks[i]? = some t →
          ∃ t', s'.tasks[i]? = some t' ∧ t'.state = t.state) := by
  have h : Runs ⟨32, 1024⟩ (.new : Executor Bool)
      (follow (Executor.step ⟨32, 1024⟩) .new orderlyRun) := by
    apply reach_follow_of_admitted .refl
    exact admitted_of_accepts cancelsInQueue_of_test (by decide +kernel)
  refine ⟨by decide +kernel, fun s' h' i t ht => ?_⟩
  apply (cancellation_respected ⟨32, 1024⟩ h).2 s' h' i t ht
  have hall : (follow (Executor.step ⟨32, 1024⟩) (.new : Executor Bool) orderlyRun).tasks.all
      (fun t => t.state.isTerminal) = true := by
    decide +kernel
  exact List.all_eq_true.mp hall t (List.mem_of_getElem? ht)

end Execution

end InfinityOS
