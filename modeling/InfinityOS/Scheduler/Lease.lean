import InfinityOS.Scheduler.Rewrite

/-!
# Leases of tasks

`next_ready` writes a lease into the record of the task, and no call takes it out again. So a
lease belongs to a running task for as long as no task that holds one leaves its worker.
-/

namespace InfinityOS

namespace Scheduler

open Transition

def TaskRecord.LeaseHeld (r : TaskRecord) : Prop :=
  r.lease.isSome → r.state = .running

/-- Only running tasks hold leases, and only their leases are renewed. -/
structure LeaseValid (s : TaskScheduler) : Prop where
  held : s.index.Forall TaskRecord.LeaseHeld
  renewed : ∀ id now lease, (s.renewLease id now).1 = .ok lease → s.stateOf id = some .running

/-- The task holds no lease while it runs. -/
def TaskScheduler.Unleased (s : TaskScheduler) (id : TaskId) : Prop :=
  ∀ r, s.index.get id = some r → r.state = .running → r.lease = none

/-- The call takes no lease holder from its worker and brings none that does not run. -/
def Call.KeepsLeases (json : RecordJson) (s : TaskScheduler) : Call → Prop
  | .op (.complete id _) => s.Unleased id
  | .op (.fail id _ _) => s.Unleased id
  | .op (.cancel id _) => s.Unleased id
  | .op (.pause id _) => s.Unleased id
  | .op _ => True
  | .restore text =>
      Call.Reads json (fun s r => s.index.get r.taskId = none → r.LeaseHeld) s text

variable {s : TaskScheduler} {op : Op} {answer : Answer} {x : TaskIndex} {id : TaskId}

theorem leaseValid_iff : LeaseValid s ↔ s.index.Forall TaskRecord.LeaseHeld := by
  refine ⟨fun h => h.held, fun h => ⟨h, ?_⟩⟩
  intro id now lease hrenew
  unfold TaskScheduler.renewLease at hrenew
  split at hrenew
  · cases hrenew
  · next r hr =>
      split at hrenew
      · cases hrenew
      · next old hold =>
          have hrunning : r.state = .running := by
            apply h id r hr
            rw [hold]
            rfl
          rw [TaskScheduler.stateOf, hr, Option.map_some, hrunning]

theorem TaskRecord.leaseHeld_of_none {r : TaskRecord} (h : r.lease = none) : r.LeaseHeld := by
  intro hsome
  rw [h] at hsome
  cases hsome

theorem TaskRecord.leaseHeld_iff {r : TaskRecord} (h : r.state ≠ .running) :
    r.LeaseHeld ↔ r.lease = none := by
  refine ⟨fun hheld => ?_, TaskRecord.leaseHeld_of_none⟩
  by_contra hsome
  exact h (hheld (Option.isSome_iff_ne_none.mpr hsome))

theorem TaskIndex.forall_set_iff {P : TaskRecord → Prop} (h : x.Forall P) (r : TaskRecord) :
    (x.set id r).Forall P ↔ P r :=
  ⟨fun hall => hall id r (get_set_self x id r), fun hr => h.set hr id⟩

theorem leaves_iff (h : s.index.Forall TaskRecord.LeaseHeld) {r r' : TaskRecord}
    (hr : s.index.get id = some r) (hlease : r'.lease = r.lease) (hstate : r'.state ≠ .running) :
    (s.index.set id r').Forall TaskRecord.LeaseHeld ↔ s.Unleased id := by
  rw [TaskIndex.forall_set_iff h, TaskRecord.leaseHeld_iff hstate, hlease]
  constructor
  · intro hnone u hu _
    rw [hr] at hu
    cases hu
    exact hnone
  · intro hnone
    by_cases hrunning : r.state = .running
    · exact hnone r hr hrunning
    · exact (TaskRecord.leaseHeld_iff hrunning).mp (h id r hr)

theorem unleased_of_stateOf_ne (hnot : s.stateOf id ≠ some .running) : s.Unleased id := by
  intro r hr hrunning
  exact absurd (Option.map_eq_some_iff.mpr ⟨r, hr, hrunning⟩) hnot

theorem Rewrites.leases_iff (he : Rewrites s op answer x)
    (h : s.index.Forall TaskRecord.LeaseHeld) (json : RecordJson) :
    x.Forall TaskRecord.LeaseHeld ↔ Call.KeepsLeases json s (.op op) := by
  cases he with
  | quota => exact iff_of_true h trivial
  | refused _ hnot =>
      refine iff_of_true h ?_
      cases op with
      | complete i now => exact unleased_of_stateOf_ne hnot
      | fail i reason now => exact unleased_of_stateOf_ne hnot
      | pause i now => exact unleased_of_stateOf_ne hnot
      | cancel i now =>
          intro r hr hrunning
          refine absurd ⟨r, hr, ?_⟩ hnot
          rw [hrunning]
          rfl
      | _ => trivial
  | registered _ => exact iff_of_true (h.push (TaskRecord.leaseHeld_of_none rfl)) trivial
  | queued _ _ =>
      apply iff_of_true _ trivial
      apply (h.push (TaskRecord.leaseHeld_of_none rfl)).set
      exact TaskRecord.leaseHeld_of_none rfl
  | handed _ _ _ => exact iff_of_true (h.set (fun _ => rfl) _) trivial
  | @renewed i _ r old lease hr hlease =>
      apply iff_of_true _ trivial
      apply h.set
      intro _
      apply h i r hr
      rw [hlease]
      rfl
  | @completed i now r m t hr hrunning hm hp =>
      have hmoved (u : TaskRecord) (now' : UInt64) (hpending : u.state = .pending) :
          (u.inState .queued now').LeaseHeld ↔ u.LeaseHeld := by
        rw [TaskRecord.leaseHeld_iff (by simp [TaskRecord.inState]),
          TaskRecord.leaseHeld_iff (by simp [hpending])]
        rfl
      rw [hp.forall_iff hmoved, hm]
      exact leaves_iff h hr rfl (by simp [TaskRecord.inState])
  | failed hr _ _ => exact leaves_iff h hr rfl (by simp [TaskRecord.broken, TaskRecord.inState])
  | retried hr _ _ => exact leaves_iff h hr rfl (by simp [TaskRecord.inState])
  | cancelled hr _ => exact leaves_iff h hr rfl (by simp [TaskRecord.inState])
  | paused hr _ => exact leaves_iff h hr rfl (by simp [TaskRecord.inState])
  | @resumed i now r hr hcan =>
      apply iff_of_true _ trivial
      apply h.set
      apply TaskRecord.leaseHeld_of_none
      have hrunning : r.state ≠ .running := by
        intro hrunning
        rw [hrunning] at hcan
        cases hcan
      exact (TaskRecord.leaseHeld_iff hrunning).mp (h i r hr)

theorem stepCall_leases_iff (hx : s.index.WellFormed) (h : s.index.Forall TaskRecord.LeaseHeld)
    (json : RecordJson) (call : Call) :
    (stepCall json s call).2.index.Forall TaskRecord.LeaseHeld ↔ call.KeepsLeases json s := by
  cases call with
  | op op => exact (step_rewrites hx op).leases_iff h json
  | restore text =>
      change (s.restore json text).2.index.Forall TaskRecord.LeaseHeld ↔ Call.Reads json _ s text
      unfold TaskScheduler.restore Call.Reads
      cases json.fromStr text with
      | error e => exact iff_of_true h fun records hread => nomatch hread
      | ok records =>
          change (s.restoreRecords records).index.Forall TaskRecord.LeaseHeld ↔ _
          rw [forall_restoreRecords_iff, and_iff_right h]
          simp

/-- In every state of a run only the running tasks hold leases and have them renewed, exactly
if no call of the run takes a task that holds one from its worker. -/
theorem lease_valid_iff_along (json : RecordJson) (dim : DimensionId)
    (policy : PreemptionPolicy) (leaseMs : UInt64) (calls : List Call) :
    (∀ bs, bs <+: calls →
        LeaseValid (final (stepCall json) (TaskScheduler.new dim policy leaseMs) bs)) ↔
      Along (fun s call => call.KeepsLeases json s) (stepCall json)
        (TaskScheduler.new dim policy leaseMs) calls := by
  have hnew : (TaskScheduler.new dim policy leaseMs).index.Forall TaskRecord.LeaseHeld := by
    intro i r hr
    rw [TaskScheduler.new, TaskIndex.get_new] at hr
    cases hr
  simp only [leaseValid_iff]
  exact forall_reached_iff_of_wellFormed (fun s => s.index.Forall TaskRecord.LeaseHeld)
    (fun _ call hx h => stepCall_leases_iff hx h json call) TaskIndex.wellFormed_new hnew calls

def completedCalls : List Call :=
  [.op (.submit 1 (.new 7 "http.request" "fetch") fun _ => 10),
   .op (.nextReady "worker-1" fun _ => 20),
   .op (.complete 1 fun _ => 30)]

/-- It renews the lease of the completed task then. -/
theorem lease_renewed_after_completion :
    ¬ ∀ calls : List Call,
      LeaseValid (final (stepCall (sampleJson 0)) (TaskScheduler.new 1 .none 5000) calls) := by
  intro h
  have hvalid := h completedCalls
  have hrenewed : ((final (stepCall (sampleJson 0)) (TaskScheduler.new 1 .none 5000)
      completedCalls).renewLease 1 fun _ => 40).1 =
        .ok { taskId := 1, workerId := "worker-1", issuedAtMs := 40, expiresAtMs := 5040 } := by
    decide
  have hcompleted : (final (stepCall (sampleJson 0)) (TaskScheduler.new 1 .none 5000)
      completedCalls).stateOf 1 = some .completed := by
    decide
  have hrunning := hvalid.renewed 1 _ _ hrenewed
  rw [hcompleted] at hrunning
  cases hrunning

end Scheduler

end InfinityOS
