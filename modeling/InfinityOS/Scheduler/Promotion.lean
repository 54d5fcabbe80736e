import InfinityOS.Paths.Acyclic
import InfinityOS.Scheduler.Accounting
import InfinityOS.Scheduler.Snapshot

/-!
# Promotion

Tasks are promoted in `submit` and after every `complete`, in one pass over the
pending tasks. One pass is enough: a promoted task is queued, not completed, so it
releases no other task. A prerequisite has to be submitted before the tasks that
name it, so along the dependency relation the sequence numbers grow.
-/

namespace InfinityOS

namespace Scheduler

open Transition Paths

/-- The task `p` is a prerequisite of the task `id`. -/
def TaskScheduler.Prerequisite (s : TaskScheduler) (p id : TaskId) : Prop :=
  ∃ r, s.index.get id = some r ∧ p ∈ r.spec.dependencies

/-- Every prerequisite was submitted, before the task that names it. -/
def Layered (s : TaskScheduler) : Prop :=
  ∀ id r, s.index.get id = some r → ∀ p ∈ r.spec.dependencies,
    ∃ q, s.index.get p = some q ∧ q.seq < r.seq

variable {s s' : TaskScheduler} {id : TaskId} {r r' : TaskRecord}

theorem Layered.acyclic (h : Layered s) : Acyclic s.Prerequisite := by
  have hlt : ∀ {a b : TaskId}, Relation.TransGen s.Prerequisite a b →
      ∃ q r, s.index.get a = some q ∧ s.index.get b = some r ∧ q.seq < r.seq := by
    intro a b hab
    induction hab with
    | single hstep =>
        obtain ⟨r, hr, hp⟩ := hstep
        obtain ⟨q, hq, hseq⟩ := h _ r hr _ hp
        exact ⟨q, r, hq, hr, hseq⟩
    | tail _ hstep ih =>
        obtain ⟨q, t, hq, ht, hseq⟩ := ih
        obtain ⟨r, hr, hp⟩ := hstep
        obtain ⟨u, hu, hseq'⟩ := h _ r hr _ hp
        have hsame : t = u := Option.some.inj (ht.symm.trans hu)
        exact ⟨q, r, hq, hr, hseq.trans (hsame ▸ hseq')⟩
  intro a hcycle
  obtain ⟨q, r, hq, hr, hseq⟩ := hlt hcycle
  have hsame : q = r := Option.some.inj (hq.symm.trans hr)
  exact absurd hseq (hsame ▸ lt_irrefl _)

/-! ## Submission order -/

theorem Moved.layered (hm : Moved s s' id r r') (h : Layered s) : Layered s' := by
  have hold : ∀ i t, s'.index.get i = some t →
      ∃ u, s.index.get i = some u ∧ t.spec = u.spec ∧ t.seq = u.seq := by
    intro i t ht
    rw [hm.get] at ht
    split at ht
    · next hid =>
        cases ht
        exact ⟨r, hid ▸ hm.found, hm.spec, hm.seq⟩
    · exact ⟨t, ht, rfl, rfl⟩
  have hnew : ∀ i u, s.index.get i = some u →
      ∃ t, s'.index.get i = some t ∧ t.seq = u.seq := by
    intro i u hu
    rw [hm.get]
    split
    · next hid =>
        rw [hid, hm.found] at hu
        cases hu
        exact ⟨r', rfl, hm.seq⟩
    · exact ⟨u, hu, rfl⟩
  intro i t ht p hp
  obtain ⟨u, hu, hspec, hseq⟩ := hold i t ht
  obtain ⟨q, hq, hlt⟩ := h i u hu p (hspec ▸ hp)
  obtain ⟨q', hq', hseq'⟩ := hnew p q hq
  exact ⟨q', hq', by rw [hseq, hseq']; exact hlt⟩

theorem Promoted.layered (hp : Promoted s s') (h : Layered s) : Layered s' := by
  induction hp with
  | refl s => exact h
  | step hm _ _ _ _ ih => exact ih (hm.layered h)

theorem Layered.register (h : Layered s) (hseq : s.index.Sequenced)
    (hid : s.index.get id = none) {spec : TaskSpec} (now : UInt64)
    (hexist : ∀ p ∈ spec.dependencies, (s.index.get p).isSome) :
    Layered (s.register id spec now) := by
  have hget : ∀ i, (s.register id spec now).index.get i =
      if i = id then some (TaskRecord.new id spec (s.index.seq + 1) now)
      else s.index.get i :=
    TaskIndex.get_push s.index id spec now
  have hkeep : ∀ i u, s.index.get i = some u →
      (s.register id spec now).index.get i = some u := by
    intro i u hu
    rw [hget, if_neg, hu]
    intro hi
    rw [hi, hid] at hu
    cases hu
  intro i t ht p hp
  rw [hget] at ht
  split at ht
  · cases ht
    obtain ⟨q, hq⟩ := Option.isSome_iff_exists.mp (hexist p hp)
    exact ⟨q, hkeep p q hq, Nat.lt_succ_of_le (hseq.le hq)⟩
  · obtain ⟨q, hq, hlt⟩ := h i t ht p hp
    exact ⟨q, hkeep p q hq, hlt⟩

theorem Effect.layered {op : Op} {answer : Answer} (he : Effect s op answer s')
    (hseq : s.index.Sequenced) (h : Layered s) : Layered s' := by
  cases he with
  | quota => exact h
  | refused _ => exact h
  | registered hnew hexist _ => exact h.register hseq hnew _ hexist
  | queued hnew hexist _ hm _ => exact hm.layered (h.register hseq hnew _ hexist)
  | handed hm _ _ _ => exact hm.layered h
  | renewed hm _ => exact hm.layered h
  | completed hm _ _ hpromoted _ => exact hpromoted.layered (hm.layered h)
  | failed hm _ _ htouch _ _ => exact htouch.layered (hm.layered h)
  | retried hm _ _ htouch _ hrequeue _ _ =>
      exact hrequeue.layered (htouch.layered (hm.layered h))
  | cancelled hm _ _ => exact hm.layered h
  | paused hm _ _ => exact hm.layered h
  | resumed hm _ _ => exact hm.layered h

/-! ## Waiting tasks -/

theorem Moved.settled (hm : Moved s s' id r r') (h : Settled s)
    (hsame : r'.state = .completed ↔ r.state = .completed)
    (hpending : r'.state = .pending → r.state = .pending) : Settled s' := by
  intro i t ht hwaits
  rw [hm.allDepsCompleted hsame]
  rw [hm.get] at ht
  split at ht
  · cases ht
    rw [hm.spec]
    exact h id r hm.found (hpending hwaits)
  · exact h i t ht hwaits

theorem allDepsCompleted_register (hid : s.index.get id = none) {spec : TaskSpec}
    {now : UInt64} (deps : List TaskId) :
    (s.register id spec now).allDepsCompleted deps = s.allDepsCompleted deps := by
  rw [Bool.eq_iff_iff, allDepsCompleted_iff, allDepsCompleted_iff]
  apply forall₂_congr
  intro p _
  change (∃ r, (s.index.push id spec now).get p = some r ∧ _) ↔ _
  rw [TaskIndex.get_push]
  split
  · next hp => simp [hp, hid, TaskRecord.new]
  · rfl

theorem Settled.register (h : Settled s) (hid : s.index.get id = none) {spec : TaskSpec}
    (now : UInt64) (hwait : s.allDepsCompleted spec.dependencies = false) :
    Settled (s.register id spec now) := by
  intro i t ht hwaits
  rw [allDepsCompleted_register hid]
  change (s.index.push id spec now).get i = some t at ht
  rw [TaskIndex.get_push] at ht
  split at ht
  · cases ht
    exact hwait
  · exact h i t ht hwaits

theorem Moved.settled_register {spec : TaskSpec} {now : UInt64} (h : Settled s)
    (hid : s.index.get id = none)
    (hm : Moved (s.register id spec now) s' id
      (TaskRecord.new id spec (s.index.seq + 1) now) r') (hqueued : r'.state = .queued) :
    Settled s' := by
  intro i t ht hwaits
  rw [hm.allDepsCompleted (by simp [hqueued, TaskRecord.new]), allDepsCompleted_register hid]
  rw [hm.get] at ht
  split at ht
  · cases ht
    rw [hqueued] at hwaits
    cases hwaits
  · next hi =>
      change (s.index.push id spec now).get i = some t at ht
      rw [TaskIndex.get_push, if_neg hi] at ht
      exact h i t ht hwaits

theorem Effect.settled {op : Op} {answer : Answer} (he : Effect s op answer s')
    (h : Settled s) : Settled s' := by
  cases he with
  | quota => exact h
  | refused _ => exact h
  | registered hnew _ hwait => exact h.register hnew _ hwait
  | queued hnew _ _ hm hqueued => exact hm.settled_register h hnew hqueued
  | handed hm hq hrun _ => exact hm.settled h (by simp [hq, hrun]) (by simp [hrun])
  | renewed hm hsame => exact hm.settled h (by rw [hsame]) (by rw [hsame]; exact fun h => h)
  | completed _ _ _ _ hsettled => exact hsettled
  | failed hm hrun hfailed htouch hsame _ =>
      have hmid := hm.settled h (by simp [hrun, hfailed]) (by simp [hfailed])
      exact htouch.settled hmid (by simp [hfailed, hsame]) (by simp [hsame])
  | retried hm hrun hfailed htouch hsame hrequeue hq _ =>
      have hmid := hm.settled h (by simp [hrun, hfailed]) (by simp [hfailed])
      have htouched := htouch.settled hmid (by simp [hfailed, hsame]) (by simp [hsame])
      exact hrequeue.settled htouched (by simp [hsame, hq]) (by simp [hq])
  | cancelled hm hcan hc =>
      apply hm.settled h _ (by simp [hc])
      constructor
      · simp [hc]
      · intro hr
        simp [hr, TaskState.canTransitionTo] at hcan
  | paused hm hrun hpaused => exact hm.settled h (by simp [hrun, hpaused]) (by simp [hpaused])
  | resumed hm hcan hq =>
      apply hm.settled h _ (by simp [hq])
      constructor
      · simp [hq]
      · intro hr
        simp [hr, TaskState.canTransitionTo] at hcan

/-- At the end of every run on a new scheduler the dependency relation is acyclic, and
every pending task waits for a prerequisite that is not completed. -/
theorem promotion_complete (dim : DimensionId) (policy : PreemptionPolicy)
    (leaseMs : UInt64) (ops : List Op) :
    let s := final TaskScheduler.step (TaskScheduler.new dim policy leaseMs) ops
    Acyclic s.Prerequisite ∧ ∀ id, s.stateOf id = some .pending →
      ∃ p, s.Prerequisite p id ∧ s.stateOf p ≠ some .completed := by
  intro s
  have hinv : (Accounted s ∧ s.index.Sequenced) ∧ Layered s ∧ Settled s := by
    apply invariant_final_of_forall
      (fun s => (Accounted s ∧ s.index.Sequenced) ∧ Layered s ∧ Settled s)
    · intro s op ⟨⟨hacc, hseq⟩, hlayered, hsettled⟩
      have he := step_effect hacc op
      exact ⟨⟨accounted_step op hacc, he.sequenced hseq⟩, he.layered hseq hlayered,
        he.settled hsettled⟩
    · have hempty : ∀ id, (TaskScheduler.new dim policy leaseMs).index.get id = none :=
        TaskIndex.get_new
      refine ⟨⟨accounted_new dim policy leaseMs, TaskIndex.sequenced_new⟩, ?_, ?_⟩
      · intro id r hr
        rw [hempty] at hr
        cases hr
      · intro id r hr
        rw [hempty] at hr
        cases hr
  obtain ⟨-, hlayered, hsettled⟩ := hinv
  refine ⟨hlayered.acyclic, fun id hpending => ?_⟩
  obtain ⟨r, hr, hstate⟩ := Option.map_eq_some_iff.mp hpending
  have hwait := hsettled id r hr hstate
  rw [TaskScheduler.allDepsCompleted, List.all_eq_false] at hwait
  obtain ⟨p, hp, hdone⟩ := hwait
  refine ⟨p, ⟨r, hr, hp⟩, fun hcompleted => hdone ?_⟩
  obtain ⟨q, hq, hstate'⟩ := Option.map_eq_some_iff.mp hcompleted
  simp [hq, hstate']

end Scheduler

end InfinityOS
