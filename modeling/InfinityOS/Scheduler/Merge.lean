import InfinityOS.Scheduler.Rewrite

/-!
# Restoring into a live scheduler

`restore` stores the records of the tasks that the scheduler does not know and queues every
queued record, known or not. The records of known tasks are not replaced.
-/

namespace InfinityOS

namespace Scheduler

open Transition

def TaskScheduler.queueCount (s : TaskScheduler) (id : TaskId) : ℕ :=
  s.readyQueue.countP fun e => e.taskId = id

/-- After the restoration of a snapshot of `t`, the scheduler `s` has the records of the
snapshot, and each task that is queued then is in the ready queue once. A restoration that fails
changes nothing. -/
structure RestoreReplaces (json : RecordJson) (s t : TaskScheduler) (text : String) : Prop where
  replaced : (s.restore json text).1 = .ok () → ∀ id r, t.index.get id = some r →
    (s.restore json text).2.index.get id = some r
  queued : (s.restore json text).1 = .ok () → ∀ id, (s.restore json text).2.queueCount id =
    if (s.restore json text).2.stateOf id = some .queued then 1 else 0
  unchanged : ∀ other e, (s.restore json other).1 = .error e → (s.restore json other).2 = s

/-- No task is known on both sides with different records. -/
def Agree (s t : TaskScheduler) : Prop :=
  ∀ id r u, t.index.get id = some r → s.index.get id = some u → u = r

/-- The tasks that both know have the same records, none of them waits in the ready queue of
`s`, and the other tasks do exactly if they are queued. -/
structure Mergeable (s t : TaskScheduler) : Prop where
  agree : Agree s t
  queue : ∀ id, s.queueCount id =
    if t.index.get id = none ∧ s.stateOf id = some .queued then 1 else 0

/-! ## What a restoration makes of one task -/

theorem countP_eq_of_nodup {α κ : Type*} [DecidableEq κ] (key : α → κ) (p : α → Bool)
    {l : List α} (h : (l.map key).Nodup) (k : κ) :
    l.countP (fun a => key a = k ∧ p a) =
      ((l.find? fun a => key a = k).map fun a => (p a).toNat).getD 0 := by
  induction l with
  | nil => rfl
  | cons a l ih =>
      rw [List.map_cons, List.nodup_cons] at h
      rw [List.countP_cons, ih h.2, List.find?_cons]
      by_cases ha : key a = k
      · have hnone : l.find? (fun b => key b = k) = none := by
          rw [List.find?_eq_none]
          intro b hb hk
          apply h.1
          rw [ha, ← of_decide_eq_true hk]
          exact List.mem_map_of_mem hb
        rw [hnone]
        cases hp : p a <;> simp [ha, hp]
      · simp [ha]

variable {json : RecordJson} {s t : TaskScheduler} {text : String}

theorem readyQueue_restoreOne (s : TaskScheduler) (r : TaskRecord) :
    (s.restoreOne r).readyQueue =
      if r.state = .queued then (s.readyQueue ++ [r.entry]).insertionSort ReadyEntry.before
      else s.readyQueue := by
  rw [TaskScheduler.restoreOne_eq]

theorem queueCount_restoreOne (s : TaskScheduler) (r : TaskRecord) (id : TaskId) :
    (s.restoreOne r).queueCount id =
      s.queueCount id + if r.taskId = id ∧ r.state = .queued then 1 else 0 := by
  unfold TaskScheduler.queueCount
  rw [readyQueue_restoreOne]
  by_cases hqueued : r.state = .queued
  · rw [if_pos hqueued, (List.perm_insertionSort _ _).countP_eq, List.countP_append,
      List.countP_singleton]
    apply congrArg
    have helem : r.entry.taskId = id ↔ r.taskId = id ∧ r.state = .queued :=
      ⟨fun hid => ⟨hid, hqueued⟩, fun hr => hr.1⟩
    exact if_congr (decide_eq_true_iff.trans helem) rfl rfl
  · rw [if_neg hqueued, if_neg fun h => hqueued h.2, Nat.add_zero]

theorem queueCount_restoreRecords (s : TaskScheduler) (records : List TaskRecord)
    (id : TaskId) :
    (s.restoreRecords records).queueCount id = s.queueCount id +
      records.countP fun r => r.taskId = id ∧ r.state = .queued := by
  induction records generalizing s with
  | nil => rfl
  | cons r records ih =>
      change ((s.restoreOne r).restoreRecords records).queueCount id = _
      rw [ih, queueCount_restoreOne, List.countP_cons, Nat.add_assoc]
      simp only [decide_eq_true_eq]
      rw [Nat.add_comm (records.countP _)]

theorem queueCount_restored (ht : t.index.WellFormed) (id : TaskId) :
    (s.restoreRecords t.index.iterInOrder).queueCount id =
      s.queueCount id + if t.stateOf id = some .queued then 1 else 0 := by
  have hnodup : (t.index.iterInOrder.map TaskRecord.taskId).Nodup := by
    rw [TaskIndex.map_taskId_iterInOrder ht]
    exact ht.nodup
  have hcount :=
    countP_eq_of_nodup TaskRecord.taskId (fun r => decide (r.state = .queued)) hnodup id
  rw [TaskIndex.find_iterInOrder ht] at hcount
  simp only [decide_eq_true_eq] at hcount
  rw [queueCount_restoreRecords, hcount, TaskScheduler.stateOf]
  cases t.index.get id with
  | none => rfl
  | some r => by_cases hqueued : r.state = .queued <;> simp [hqueued]

theorem get_restored (ht : t.index.WellFormed) (id : TaskId) :
    (s.restoreRecords t.index.iterInOrder).index.get id =
      (s.index.get id).or (t.index.get id) := by
  rw [get_restoreRecords, TaskIndex.find_iterInOrder ht]

theorem restore_error {e : String} (h : (s.restore json text).1 = .error e) :
    (s.restore json text).2 = s := by
  unfold TaskScheduler.restore at h ⊢
  split at h
  · rfl
  · cases h

theorem agree_iff (ht : t.index.WellFormed) :
    (∀ id r, t.index.get id = some r →
        (s.restoreRecords t.index.iterInOrder).index.get id = some r) ↔ Agree s t := by
  constructor
  · intro h id r u hr hu
    have hget := h id r hr
    rw [get_restored ht, hu, Option.some_or] at hget
    exact Option.some.inj hget
  · intro h id r hr
    rw [get_restored ht]
    cases hs : s.index.get id with
    | none => rw [Option.none_or, hr]
    | some u => rw [Option.some_or, h id r u hr hs]

theorem queued_once_iff (ht : t.index.WellFormed) (h : Agree s t) (id : TaskId) :
    ((s.restoreRecords t.index.iterInOrder).queueCount id =
        if (s.restoreRecords t.index.iterInOrder).stateOf id = some .queued then 1 else 0) ↔
      s.queueCount id =
        if t.index.get id = none ∧ s.stateOf id = some .queued then 1 else 0 := by
  rw [queueCount_restored ht]
  cases hr : t.index.get id with
  | none =>
      have hsame : (s.restoreRecords t.index.iterInOrder).stateOf id = s.stateOf id := by
        rw [TaskScheduler.stateOf, get_restored ht, hr, Option.or_none, TaskScheduler.stateOf]
      rw [hsame, TaskScheduler.stateOf, hr]
      simp
  | some r =>
      have hsame : (s.restoreRecords t.index.iterInOrder).stateOf id = t.stateOf id := by
        rw [TaskScheduler.stateOf, (agree_iff ht).mpr h id r hr, TaskScheduler.stateOf, hr]
      rw [hsame]
      simp

/-- A snapshot replaces the records and queues every queued task once, exactly where the two
schedulers agree and the tasks of the snapshot are not in the ready queue yet. -/
theorem restoreReplaces_iff (ht : t.index.WellFormed)
    (hread : json.fromStr text = .ok t.index.iterInOrder) :
    RestoreReplaces json s t text ↔ Mergeable s t := by
  have hrestore : s.restore json text = (.ok (), s.restoreRecords t.index.iterInOrder) := by
    rw [TaskScheduler.restore, hread]
  constructor
  · rintro ⟨hreplaced, hqueued, -⟩
    rw [hrestore] at hreplaced hqueued
    have hagree := (agree_iff ht).mp (hreplaced rfl)
    exact ⟨hagree, fun id => (queued_once_iff ht hagree id).mp (hqueued rfl id)⟩
  · intro h
    refine ⟨?_, ?_, fun other e => restore_error⟩
    · rw [hrestore]
      exact fun _ => (agree_iff ht).mpr h.agree
    · rw [hrestore]
      exact fun _ id => (queued_once_iff ht h.agree id).mpr (h.queue id)

/-- A snapshot of a reachable scheduler, restored into any scheduler, replaces the records and
queues every queued task once, exactly where both sides agree on the tasks they know and the
tasks of the snapshot are not in the ready queue yet. -/
theorem restore_replaces_iff (json : RecordJson) (s : TaskScheduler) (dim : DimensionId)
    (policy : PreemptionPolicy) (leaseMs : UInt64) (calls : List Call) (text : String)
    (htext : (final (stepCall json) (TaskScheduler.new dim policy leaseMs) calls).snapshot json =
      .ok text)
    (hserde : json.RoundTrips
      (final (stepCall json) (TaskScheduler.new dim policy leaseMs) calls).index.iterInOrder) :
    RestoreReplaces json s (final (stepCall json) (TaskScheduler.new dim policy leaseMs) calls)
        text ↔
      Mergeable s (final (stepCall json) (TaskScheduler.new dim policy leaseMs) calls) := by
  exact restoreReplaces_iff (wellFormed_final json TaskIndex.wellFormed_new calls)
    (hserde text htext)

def queuedRecords : List TaskRecord :=
  (final TaskScheduler.step (TaskScheduler.new 1 .none 5000) (sampleRun.take 2)).index.iterInOrder

def sampleQueued : TaskScheduler :=
  final (stepCall (jsonOf queuedRecords)) (TaskScheduler.new 1 .none 5000)
    ((sampleRun.take 2).map Call.op)

def sampleLive : TaskScheduler :=
  final (stepCall (jsonOf queuedRecords)) (TaskScheduler.new 1 .none 5000)
    [.op (.submit 9 (.new 7 "http.request" "other") fun _ => 10)]

theorem get_sampleLive {id : TaskId} (h : id ≠ 9) : sampleLive.index.get id = none := by
  have hwf : sampleLive.index.WellFormed := wellFormed_final _ TaskIndex.wellFormed_new _
  have honly : sampleLive.index.insertionOrder = [9] := rfl
  have hmem := hwf.mem_order id
  rw [honly, List.mem_singleton] at hmem
  by_contra hsome
  exact h (hmem.mpr (Option.isSome_iff_ne_none.mpr hsome))

theorem mergeable_sampleLive : Mergeable sampleLive sampleQueued := by
  have hnone : sampleQueued.index.get 9 = none := by
    have hisNone : (sampleQueued.index.get 9).isNone = true := by decide
    exact Option.isNone_iff_eq_none.mp hisNone
  have hqueue : sampleLive.readyQueue = [⟨.normal, 1, 9⟩] := by decide
  have hqueued : sampleLive.stateOf 9 = some .queued := by decide
  constructor
  · intro id r u hr hu
    by_cases hid : id = 9
    · rw [hid, hnone] at hr
      cases hr
    · rw [get_sampleLive hid] at hu
      cases hu
  · intro id
    unfold TaskScheduler.queueCount
    rw [hqueue]
    by_cases hid : id = 9
    · rw [hid, if_pos ⟨hnone, hqueued⟩]
      rfl
    · rw [if_neg, List.countP_singleton, if_neg]
      · simpa using Ne.symm hid
      · rintro ⟨-, hstate⟩
        rw [TaskScheduler.stateOf, get_sampleLive hid] at hstate
        cases hstate

/-- A snapshot with task 1 is read into a scheduler with task 9. -/
theorem restore_replaces_iff_live :
    RestoreReplaces (jsonOf queuedRecords) sampleLive sampleQueued
      (snapshotText queuedRecords) := by
  apply (restore_replaces_iff (jsonOf queuedRecords) sampleLive 1 .none 5000
    ((sampleRun.take 2).map Call.op) (snapshotText queuedRecords) ?_ ?_).mpr mergeable_sampleLive
  · rw [TaskScheduler.snapshot, final_stepCall_op]
    rfl
  · rw [final_stepCall_op]
    exact roundTrips_jsonOf queuedRecords

/-- Task 1 is handed out after the snapshot was read. Reading it again leaves the task running
and puts it into the ready queue. -/
theorem restored_running_kept :
    ¬ ∀ calls : List Call,
      RestoreReplaces (jsonOf queuedRecords)
        (final (stepCall (jsonOf queuedRecords)) (TaskScheduler.new 1 .none 5000) calls)
        sampleQueued (snapshotText queuedRecords) := by
  intro h
  have hreplaces := h [.restore (snapshotText queuedRecords),
    .op (.nextReady "worker-1" fun _ => 30)]
  have hread (s : TaskScheduler) : s.restore (jsonOf queuedRecords) (snapshotText queuedRecords) =
      (.ok (), s.restoreRecords queuedRecords) := by
    rw [TaskScheduler.restore, fromStr_jsonOf]
  have hlive : final (stepCall (jsonOf queuedRecords)) (TaskScheduler.new 1 .none 5000)
      [.restore (snapshotText queuedRecords), .op (.nextReady "worker-1" fun _ => 30)] =
        (((TaskScheduler.new 1 .none 5000).restoreRecords queuedRecords).step
          (.nextReady "worker-1" fun _ => 30)).2 := by
    rw [final_cons, stepCall, hread]
    rfl
  rw [hlive] at hreplaces
  have hsnapshot : sampleQueued.stateOf 1 = some .queued := by decide
  have hrunning : ((((TaskScheduler.new 1 .none 5000).restoreRecords queuedRecords).step
      (.nextReady "worker-1" fun _ => 30)).2.restoreRecords queuedRecords).stateOf 1 =
        some .running := by
    decide
  obtain ⟨r, hr, hstate⟩ := Option.map_eq_some_iff.mp hsnapshot
  have hget := hreplaces.replaced (congrArg Prod.fst (hread _)) 1 r hr
  rw [hread] at hget
  rw [TaskScheduler.stateOf, hget, Option.map_some, hstate] at hrunning
  cases hrunning

end Scheduler

end InfinityOS
