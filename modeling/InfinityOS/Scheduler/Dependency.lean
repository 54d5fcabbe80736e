import InfinityOS.Scheduler.Accounting

/-!
# Prerequisites

A task past `Pending` has all its prerequisites completed, in every run in which
`resume` is not called on a pending task that still waits for one. `resume`
itself does not look at the prerequisites: `Pending → Queued` is an allowed
transition, so it also queues a task that was never paused.
-/

namespace InfinityOS

namespace Scheduler

open Transition

def Released (s : TaskScheduler) : Prop :=
  ∀ id r, s.index.get id = some r → r.state ≠ .pending → r.state ≠ .cancelled →
    s.allDepsCompleted r.spec.dependencies = true

/-- The call does not resume a pending task that still waits for a prerequisite. -/
def AwaitsDependencies (s : TaskScheduler) : Op → Prop
  | .resume id _ => ∀ r, s.index.get id = some r → r.state = .pending →
      s.allDepsCompleted r.spec.dependencies = true
  | _ => True

/-- Every running task, and every task that `next_ready` would hand out, has all
its prerequisites completed. -/
def DependenciesMet (s : TaskScheduler) : Prop :=
  (∀ id r, s.index.get id = some r → r.state = .running →
    ∀ p ∈ r.spec.dependencies, s.stateOf p = some .completed) ∧
  ∀ w now r lease, (s.nextReady w now).1 = some (r, lease) →
    ∀ p ∈ r.spec.dependencies, s.stateOf p = some .completed

theorem stateOf_of_allDepsCompleted {s : TaskScheduler} {deps : List TaskId}
    (h : s.allDepsCompleted deps = true) {p : TaskId} (hp : p ∈ deps) :
    s.stateOf p = some .completed := by
  obtain ⟨r, hr, hstate⟩ := (allDepsCompleted_iff s deps).mp h p hp
  rw [TaskScheduler.stateOf, hr, Option.map_some, hstate]

variable {s s' : TaskScheduler} {id : TaskId} {r r' : TaskRecord}

theorem Moved.allDepsCompleted_mono (hm : Moved s s' id r r')
    (hkeep : r.state = .completed → r'.state = .completed) {deps : List TaskId}
    (h : s.allDepsCompleted deps = true) : s'.allDepsCompleted deps = true := by
  rw [allDepsCompleted_iff] at h ⊢
  intro p hp
  obtain ⟨t, ht, hstate⟩ := h p hp
  rw [hm.get]
  split
  · next hid =>
      rw [hid, hm.found] at ht
      cases ht
      exact ⟨r', rfl, hkeep hstate⟩
  · exact ⟨t, ht, hstate⟩

theorem Moved.released (hm : Moved s s' id r r') (h : Released s)
    (hkeep : r.state = .completed → r'.state = .completed)
    (hdeps : r'.state ≠ .pending → r'.state ≠ .cancelled →
      s.allDepsCompleted r.spec.dependencies = true) : Released s' := by
  intro i t ht hpending hcancelled
  rw [hm.get] at ht
  refine hm.allDepsCompleted_mono hkeep ?_
  split at ht
  · cases ht
    rw [hm.spec]
    exact hdeps hpending hcancelled
  · exact h i t ht hpending hcancelled

/-- The usual case: the task was already past `Pending`. -/
theorem Moved.released_of_released (hm : Moved s s' id r r') (h : Released s)
    (hkeep : r.state = .completed → r'.state = .completed)
    (hpending : r.state ≠ .pending) (hcancelled : r.state ≠ .cancelled) :
    Released s' :=
  hm.released h hkeep fun _ _ => h id r hm.found hpending hcancelled

theorem Released.register (h : Released s) (hid : s.index.get id = none)
    (spec : TaskSpec) (now : UInt64) :
    Released (s.register id spec now) ∧ ∀ deps, s.allDepsCompleted deps = true →
      (s.register id spec now).allDepsCompleted deps = true := by
  have hget : ∀ i, (s.register id spec now).index.get i =
      if i = id then some (TaskRecord.new id spec (s.index.seq + 1) now)
      else s.index.get i :=
    TaskIndex.get_push s.index id spec now
  have hmono : ∀ deps, s.allDepsCompleted deps = true →
      (s.register id spec now).allDepsCompleted deps = true := by
    intro deps hdeps
    rw [allDepsCompleted_iff] at hdeps ⊢
    intro p hp
    obtain ⟨t, ht, hstate⟩ := hdeps p hp
    refine ⟨t, ?_, hstate⟩
    rw [hget, if_neg, ht]
    rintro rfl
    rw [hid] at ht
    cases ht
  refine ⟨fun i t ht hpending hcancelled => ?_, hmono⟩
  rw [hget] at ht
  split at ht
  · cases ht
    exact absurd rfl hpending
  · exact hmono _ (h i t ht hpending hcancelled)

theorem Promoted.released (hp : Promoted s s') (h : Released s) : Released s' := by
  induction hp with
  | refl s => exact h
  | step hm hpending hqueued hdeps _ ih =>
      exact ih (hm.released h (by simp [hpending]) fun _ _ => hdeps)

theorem Effect.released {op : Op} {answer : Answer} (he : Effect s op answer s')
    (h : Released s) (hop : AwaitsDependencies s op) : Released s' := by
  cases he with
  | quota => exact h
  | refused _ => exact h
  | registered hnew _ _ => exact (h.register hnew _ _).1
  | queued hnew _ hdeps hm _ =>
      obtain ⟨hregister, hmono⟩ := h.register hnew _ _
      exact hm.released hregister (by simp [TaskRecord.new]) fun _ _ => hmono _ hdeps
  | handed hm hq _ _ =>
      exact hm.released_of_released h (by simp [hq]) (by simp [hq]) (by simp [hq])
  | renewed hm hsame =>
      refine hm.released h (by simp [hsame]) fun hpending hcancelled => ?_
      rw [hsame] at hpending hcancelled
      exact h _ _ hm.found hpending hcancelled
  | completed hm hrun hc hpromoted _ =>
      exact hpromoted.released (hm.released_of_released h (by simp [hc]) (by simp [hrun])
        (by simp [hrun]))
  | failed hm hrun hf htouch hsame _ =>
      have hmid := hm.released_of_released h (by simp [hrun]) (by simp [hrun]) (by simp [hrun])
      exact htouch.released_of_released hmid (by simp [hf]) (by simp [hf]) (by simp [hf])
  | retried hm hrun hf htouch hsame hrequeue hq _ =>
      have hmid := hm.released_of_released h (by simp [hrun]) (by simp [hrun]) (by simp [hrun])
      have hmid' := htouch.released_of_released hmid (by simp [hf]) (by simp [hf])
        (by simp [hf])
      exact hrequeue.released_of_released hmid' (by simp [hsame]) (by simp [hsame])
        (by simp [hsame])
  | cancelled hm hcan hc =>
      refine hm.released h ?_ fun _ hne => absurd hc hne
      rintro hr
      simp [hr, TaskState.canTransitionTo] at hcan
  | paused hm hrun _ =>
      exact hm.released_of_released h (by simp [hrun]) (by simp [hrun]) (by simp [hrun])
  | @resumed _ _ _ r _ hm hcan hq =>
      have hkeep : r.state ≠ .completed ∧ r.state ≠ .cancelled := by
        constructor <;> rintro hr <;> simp [hr, TaskState.canTransitionTo] at hcan
      refine hm.released h (fun hr => absurd hr hkeep.1) fun _ _ => ?_
      by_cases hpending : r.state = .pending
      · exact hop r hm.found hpending
      · exact h _ r hm.found hpending hkeep.2

theorem released_final (dim : DimensionId) (policy : PreemptionPolicy) (leaseMs : UInt64)
    (ops : List Op)
    (hops : Along AwaitsDependencies TaskScheduler.step
      (TaskScheduler.new dim policy leaseMs) ops) :
    let s := final TaskScheduler.step (TaskScheduler.new dim policy leaseMs) ops
    Accounted s ∧ Released s := by
  refine invariant_final (fun s => Accounted s ∧ Released s) (fun s op h hop => ?_)
    ⟨accounted_new dim policy leaseMs, ?_⟩ hops
  · exact ⟨accounted_step op h.1, (step_effect h.1 op).released h.2 hop⟩
  · intro id r hr
    change TaskIndex.new.get id = some r at hr
    simp at hr

/-- In every run whose `resume` calls wait for the prerequisites of pending tasks,
no task is handed out or running before all its prerequisites are completed. -/
theorem dependency_safety (dim : DimensionId) (policy : PreemptionPolicy)
    (leaseMs : UInt64) (ops : List Op)
    (hops : Along AwaitsDependencies TaskScheduler.step
      (TaskScheduler.new dim policy leaseMs) ops) :
    DependenciesMet
      (final TaskScheduler.step (TaskScheduler.new dim policy leaseMs) ops) := by
  obtain ⟨hacc, hreleased⟩ := released_final dim policy leaseMs ops hops
  set s := final TaskScheduler.step (TaskScheduler.new dim policy leaseMs) ops
  refine ⟨fun id r hr hrun p hp => ?_, fun w now r lease hnext p hp => ?_⟩
  · exact stateOf_of_allDepsCompleted
      (hreleased id r hr (by simp [hrun]) (by simp [hrun])) hp
  · have he := nextReady_effect hacc w now
    rw [hnext] at he
    generalize (s.nextReady w now).2 = s' at he
    cases he with
    | @handed _ _ _ i r₀ _ _ hm hq _ _ =>
        rw [hm.spec] at hp
        exact stateOf_of_allDepsCompleted
          (hreleased i r₀ hm.found (by simp [hq]) (by simp [hq])) hp
    | refused hrefusal => cases hrefusal

def dependentSpec (prerequisite : TaskId) : TaskSpec :=
  { TaskSpec.new 7 "ml.train" "train" with dependencies := [prerequisite] }

theorem dependency_safety_two_tasks :
    DependenciesMet (final TaskScheduler.step (TaskScheduler.new 1 .none 5000)
      [.submit 1 (.new 7 "etl" "load") fun _ => 0,
       .submit 2 (dependentSpec 1) fun _ => 0,
       .nextReady "w" fun _ => 0,
       .pause 1 fun _ => 0,
       .resume 1 fun _ => 0]) := by
  refine dependency_safety 1 .none 5000 _ ⟨trivial, trivial, trivial, trivial, ?_, trivial⟩
  intro r hr hpending
  have hstate : (final TaskScheduler.step (TaskScheduler.new 1 .none 5000)
      [.submit 1 (.new 7 "etl" "load") fun _ => 0,
       .submit 2 (dependentSpec 1) fun _ => 0,
       .nextReady "w" fun _ => 0,
       .pause 1 fun _ => 0]).stateOf 1 = some .paused := by decide
  rw [TaskScheduler.stateOf, Option.map_eq_some_iff] at hstate
  obtain ⟨t, ht, hpaused⟩ := hstate
  have hsame : r = t := Option.some.inj (hr.symm.trans ht)
  rw [hsame, hpaused] at hpending
  cases hpending

/-- Task 2 waits for task 1 and is resumed while it is pending; then both are
handed out. -/
theorem resume_skips_dependencies :
    ¬ DependenciesMet (final TaskScheduler.step (TaskScheduler.new 1 .none 5000)
      [.submit 1 (.new 7 "etl" "load") fun _ => 0,
       .submit 2 (dependentSpec 1) fun _ => 0,
       .resume 2 fun _ => 0,
       .nextReady "w" fun _ => 0,
       .nextReady "w" fun _ => 0]) := by
  rintro ⟨hrunning, -⟩
  set s := final TaskScheduler.step (TaskScheduler.new 1 .none 5000)
      [.submit 1 (.new 7 "etl" "load") fun _ => 0,
       .submit 2 (dependentSpec 1) fun _ => 0,
       .resume 2 fun _ => 0,
       .nextReady "w" fun _ => 0,
       .nextReady "w" fun _ => 0] with hs
  have htwo : (s.index.get 2).map (fun r => (r.state, r.spec.dependencies)) =
      some (.running, [1]) := by
    rw [hs]
    decide
  have hone : s.stateOf 1 = some .running := by
    rw [hs]
    decide
  obtain ⟨r, hr, heq⟩ := Option.map_eq_some_iff.mp htwo
  obtain ⟨hrun, hdeps⟩ := Prod.mk.inj heq
  have := hrunning 2 r hr hrun 1 (by simp [hdeps])
  rw [hone] at this
  cases this

end Scheduler

end InfinityOS
