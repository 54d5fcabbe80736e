import InfinityOS.Core.Ranking
import InfinityOS.Transition.Run
import InfinityOS.Scheduler.Effect

/-!
# Snapshot and restore

`snapshot` writes the records in insertion order, `restore` adds the records it
reads to the index and enqueues the queued ones. The JSON text of a list of
records is the parameter `RecordJson`. `Loaded base recs s` is what `restore`
makes of a fresh scheduler `base`: the records and the ready queue come back,
the counters of running tasks and of submissions stay those of `base`.
-/

namespace InfinityOS

namespace Scheduler

open Transition

/-- `serde_json::to_string` and `serde_json::from_str` at lists of records; an
error is its message. -/
structure RecordJson where
  toString : List TaskRecord → Except String String
  fromStr : String → Except String (List TaskRecord)

/-- The text of these records, if they have one, is read as the records. -/
def RecordJson.RoundTrips (json : RecordJson) (records : List TaskRecord) : Prop :=
  ∀ text, json.toString records = .ok text → json.fromStr text = .ok records

/-- The index with a stored record at the end. The counter is not advanced. -/
def TaskIndex.adopt (x : TaskIndex) (r : TaskRecord) : TaskIndex :=
  { x with
    records := x.records.insert r.taskId r
    insertionOrder := x.insertionOrder ++ [r.taskId] }

namespace TaskScheduler

def snapshot (json : RecordJson) (s : TaskScheduler) : Except String String :=
  json.toString s.index.iterInOrder

/-- One turn of the loop of `restore`. -/
def restoreOne (s : TaskScheduler) (record : TaskRecord) : TaskScheduler :=
  let s :=
    if s.index.contains record.taskId then s
    else { s with index := s.index.adopt record }
  if record.state = .queued then
    s.enqueue record.taskId record.spec.priority record.seq
  else s

theorem restoreOne_eq (s : TaskScheduler) (r : TaskRecord) :
    s.restoreOne r =
      { s with
        index := if s.index.contains r.taskId then s.index else s.index.adopt r
        readyQueue := if r.state = .queued then
            (s.readyQueue ++ [r.entry]).insertionSort ReadyEntry.before
          else s.readyQueue } := by
  unfold restoreOne
  split
  · split
    · rfl
    · rfl
  · split
    · rfl
    · rfl

def restoreRecords (s : TaskScheduler) (records : List TaskRecord) : TaskScheduler :=
  records.foldl restoreOne s

def restore (json : RecordJson) (s : TaskScheduler) (text : String) :
    Except String Unit × TaskScheduler :=
  match json.fromStr text with
  | .error e => (.error e, s)
  | .ok records => (.ok (), s.restoreRecords records)

/-- The reading of a record leaves the books in order: a queued record brings a new task, and
a new task is not running. -/
def Admits (s : TaskScheduler) (record : TaskRecord) : Prop :=
  (record.state = .queued → s.index.get record.taskId = none) ∧
    (s.index.get record.taskId = none → record.state ≠ .running)

instance (s : TaskScheduler) (record : TaskRecord) : Decidable (s.Admits record) :=
  inferInstanceAs (Decidable (_ ∧ _))

/-- A fresh scheduler with the configuration and the quotas of `s`. -/
def freshLike (s : TaskScheduler) : TaskScheduler :=
  { TaskScheduler.new s.dimensionId s.preemptionPolicy s.leaseDurationMs with
    quotas := s.quotas }

end TaskScheduler

/-! ## The restore loop -/

/-- The scheduler `base` after the records `recs` have been added to it. -/
structure Loaded (base : TaskScheduler) (recs : List TaskRecord) (s : TaskScheduler) :
    Prop where
  order : s.index.insertionOrder = recs.map TaskRecord.taskId
  get : ∀ id, s.index.get id = recs.find? fun r => r.taskId = id
  counter : s.index.seq = 0
  queue : s.readyQueue =
    ((recs.filter fun r => r.state = .queued).map TaskRecord.entry).insertionSort
      ReadyEntry.before
  base : s = { base with index := s.index, readyQueue := s.readyQueue }

theorem TaskIndex.get_adopt (x : TaskIndex) (r : TaskRecord) (i : TaskId) :
    (x.adopt r).get i = if i = r.taskId then some r else x.get i :=
  x.get_set r.taskId r i

theorem loaded_freshLike (s : TaskScheduler) : Loaded s.freshLike [] s.freshLike where
  order := rfl
  get id := TaskIndex.get_new id
  counter := rfl
  queue := rfl
  base := rfl

theorem Loaded.restoreOne {base s : TaskScheduler} {recs : List TaskRecord}
    (h : Loaded base recs s) {r : TaskRecord} (hr : r.taskId ∉ recs.map TaskRecord.taskId) :
    Loaded base (recs ++ [r]) (s.restoreOne r) := by
  have hfind : recs.find? (fun t => t.taskId = r.taskId) = none := by
    rw [List.find?_eq_none]
    intro t ht
    rw [decide_eq_true_eq]
    rintro heq
    exact hr (heq ▸ List.mem_map_of_mem ht)
  have hcontains : ¬ s.index.contains r.taskId = true := by
    rw [TaskIndex.contains_eq_isSome, h.get, hfind]
    simp
  have hget : ∀ id, (s.index.adopt r).get id =
      (recs ++ [r]).find? fun t => t.taskId = id := by
    intro id
    rw [TaskIndex.get_adopt, List.find?_append, h.get]
    by_cases hid : id = r.taskId
    · rw [if_pos hid, hid, hfind]
      simp
    · rw [if_neg hid]
      simp [Ne.symm hid]
  have horder : (s.index.adopt r).insertionOrder = (recs ++ [r]).map TaskRecord.taskId := by
    rw [List.map_append, ← h.order]
    rfl
  have hbase := h.base
  rw [TaskScheduler.restoreOne_eq, if_neg hcontains]
  split
  · next hq =>
      refine ⟨horder, hget, h.counter, ?_, ?_⟩
      · have hlast : ([r].filter fun r => r.state = .queued) = [r] := by simp [hq]
        have hsort := Ranking.insertionSort_append_singleton (r := ReadyEntry.before)
          ((recs.filter fun r => r.state = .queued).map TaskRecord.entry) r.entry
        rw [← h.queue] at hsort
        rw [List.filter_append, List.map_append, hlast, List.map_singleton]
        exact hsort
      · rw [hbase]
  · next hq =>
      refine ⟨horder, hget, h.counter, ?_, ?_⟩
      · have hlast : ([r].filter fun r => r.state = .queued) = [] := by simp [hq]
        rw [List.filter_append, hlast, List.append_nil]
        exact h.queue
      · rw [hbase]

theorem loaded_restoreRecords (s : TaskScheduler) {recs : List TaskRecord}
    (hnodup : (recs.map TaskRecord.taskId).Nodup) :
    Loaded s.freshLike recs (s.freshLike.restoreRecords recs) := by
  induction recs using List.reverseRecOn with
  | nil => exact loaded_freshLike s
  | append_singleton recs r ih =>
      rw [List.map_append, List.nodup_append] at hnodup
      obtain ⟨hrecs, -, hdisj⟩ := hnodup
      rw [TaskScheduler.restoreRecords, List.foldl_append]
      refine (ih hrecs).restoreOne ?_
      intro hr
      exact hdisj r.taskId hr r.taskId (by simp) rfl

/-! ## The index of a restored scheduler -/

namespace TaskIndex

theorem map_taskId_iterInOrder {x : TaskIndex} (h : x.WellFormed) :
    x.iterInOrder.map TaskRecord.taskId = x.insertionOrder := by
  have hmem : ∀ l : List TaskId, (∀ i ∈ l, (x.get i).isSome) →
      (l.filterMap x.get).map TaskRecord.taskId = l := by
    intro l
    induction l with
    | nil => intro _; rfl
    | cons i l ih =>
        intro hl
        obtain ⟨r, hr⟩ := Option.isSome_iff_exists.mp (hl i (by simp))
        rw [List.filterMap_cons, hr, List.map_cons, h.keyed hr,
          ih fun j hj => hl j (List.mem_cons_of_mem i hj)]
  exact hmem x.insertionOrder fun i hi => (h.mem_order i).mp hi

theorem find_iterInOrder {x : TaskIndex} (h : x.WellFormed) (id : TaskId) :
    (x.iterInOrder.find? fun r => r.taskId = id) = x.get id := by
  cases hget : x.get id with
  | none =>
      rw [List.find?_eq_none]
      intro r hr
      obtain ⟨j, hj⟩ := (mem_iterInOrder h).mp hr
      rw [decide_eq_true_eq, h.keyed hj]
      rintro rfl
      rw [hget] at hj
      cases hj
  | some r =>
      obtain ⟨l₁, l₂, hx, -, hne⟩ := h.split hget
      have hnone : l₁.find? (fun r => r.taskId = id) = none := by
        rw [List.find?_eq_none]
        intro t ht
        simpa using hne t (List.mem_append_left l₂ ht)
      rw [hx, List.find?_append, hnone, Option.none_or,
        List.find?_cons_of_pos (by simpa using h.keyed hget)]

end TaskIndex

/-- The restored scheduler: a fresh one, given the records of `s`. -/
def TaskScheduler.restored (s : TaskScheduler) : TaskScheduler :=
  s.freshLike.restoreRecords s.index.iterInOrder

theorem restore_snapshot {json : RecordJson} {s : TaskScheduler} {text : String}
    (hread : json.fromStr text = .ok s.index.iterInOrder) :
    s.freshLike.restore json text = (.ok (), s.restored) := by
  rw [TaskScheduler.restore, hread]
  rfl

section Restored

variable {s : TaskScheduler}

namespace TaskIndex.WellFormed

theorem loaded (h : s.index.WellFormed) :
    Loaded s.freshLike s.index.iterInOrder s.restored := by
  apply loaded_restoreRecords
  rw [TaskIndex.map_taskId_iterInOrder h]
  exact h.nodup

theorem get_restored (h : s.index.WellFormed) (id : TaskId) :
    s.restored.index.get id = s.index.get id := by
  rw [h.loaded.get, TaskIndex.find_iterInOrder h]

theorem insertionOrder_restored (h : s.index.WellFormed) :
    s.restored.index.insertionOrder = s.index.insertionOrder := by
  rw [h.loaded.order, TaskIndex.map_taskId_iterInOrder h]

theorem iterInOrder_restored (h : s.index.WellFormed) :
    s.restored.index.iterInOrder = s.index.iterInOrder := by
  rw [TaskIndex.iterInOrder, TaskIndex.iterInOrder, h.insertionOrder_restored]
  exact List.filterMap_congr fun id _ => h.get_restored id

theorem runningFor_restored (h : s.index.WellFormed) (d : DimensionId) :
    s.restored.runningFor d = 0 := by
  rw [h.loaded.base]
  simp [TaskScheduler.runningFor, TaskScheduler.freshLike, TaskScheduler.new]

theorem accounted_restored (h : s.index.WellFormed)
    (hidle : ∀ id r, s.index.get id = some r → r.state ≠ .running) :
    Accounted s.restored where
  index := by
    refine ⟨?_, ?_, ?_⟩
    · intro id r hr
      rw [h.get_restored] at hr
      exact h.keyed hr
    · rw [h.insertionOrder_restored]
      exact h.nodup
    · intro id
      rw [h.insertionOrder_restored, h.get_restored]
      exact h.mem_order id
  queue := by
    rw [TaskIndex.queuedEntries, h.iterInOrder_restored, h.loaded.queue]
    exact List.perm_insertionSort _ _
  sorted := by
    rw [h.loaded.queue]
    exact List.pairwise_insertionSort _ _
  running d := by
    rw [h.runningFor_restored, TaskIndex.runningTasks, h.iterInOrder_restored, eq_comm]
    change _ = 0
    rw [List.countP_eq_zero]
    intro r hr
    obtain ⟨id, hid⟩ := (TaskIndex.mem_iterInOrder h).mp hr
    simp [hidle id r hid]

end TaskIndex.WellFormed

end Restored

/-! ## Sequence numbers over a run -/

theorem Moved.sequenced {s s' : TaskScheduler} {id : TaskId} {r r' : TaskRecord}
    (hm : Moved s s' id r r') (h : s.index.Sequenced) : s'.index.Sequenced := by
  rw [hm.index]
  exact h.set hm.found hm.seq

theorem Promoted.sequenced {s s' : TaskScheduler} (hp : Promoted s s')
    (h : s.index.Sequenced) : s'.index.Sequenced := by
  induction hp with
  | refl s => exact h
  | step hm _ _ _ _ ih => exact ih (hm.sequenced h)

theorem Effect.sequenced {s s' : TaskScheduler} {op : Op} {answer : Answer}
    (he : Effect s op answer s') (h : s.index.Sequenced) : s'.index.Sequenced := by
  cases he with
  | quota => exact h
  | refused _ => exact h
  | registered _ _ _ => exact h.push _ _ _
  | queued _ _ _ hm _ => exact hm.sequenced (h.push _ _ _)
  | handed hm _ _ _ => exact hm.sequenced h
  | renewed hm _ => exact hm.sequenced h
  | completed hm _ _ hpromoted _ => exact hpromoted.sequenced (hm.sequenced h)
  | failed hm _ _ htouch _ _ => exact htouch.sequenced (hm.sequenced h)
  | retried hm _ _ htouch _ hrequeue _ _ =>
      exact hrequeue.sequenced (htouch.sequenced (hm.sequenced h))
  | cancelled hm _ _ => exact hm.sequenced h
  | paused hm _ _ => exact hm.sequenced h
  | resumed hm _ _ => exact hm.sequenced h

theorem sequenced_final (dim : DimensionId) (policy : PreemptionPolicy)
    (leaseMs : UInt64) (ops : List Op) :
    let s := final TaskScheduler.step (TaskScheduler.new dim policy leaseMs) ops
    Accounted s ∧ s.index.Sequenced := by
  refine invariant_final_of_forall (fun s => Accounted s ∧ s.index.Sequenced)
    (fun s op h => ?_) ops ⟨accounted_new dim policy leaseMs, TaskIndex.sequenced_new⟩
  exact ⟨accounted_step op h.1, (step_effect h.1 op).sequenced h.2⟩

/-- Where the books are in order the ready queue is in the order of the restored one: it is
determined by the distinct sequence numbers. -/
theorem Accounted.readyQueue_eq {s : TaskScheduler} (h : Accounted s)
    (hseq : s.index.Sequenced) :
    s.readyQueue = s.index.queuedEntries.insertionSort ReadyEntry.before := by
  have hperm : s.readyQueue.Perm (s.index.queuedEntries.insertionSort ReadyEntry.before) :=
    h.queue.trans (List.perm_insertionSort _ _).symm
  refine hperm.eq_of_pairwise ?_ h.sorted (List.pairwise_insertionSort _ _)
  intro e f he hf hef hfe
  obtain ⟨r, hr, -, hre⟩ := h.mem_queue.mp he
  obtain ⟨t, ht, -, htf⟩ := h.mem_queue.mp (hperm.mem_iff.mpr hf)
  have hrank : e.priority.rank = f.priority.rank ∧ e.seq = f.seq := by
    unfold ReadyEntry.before at hef hfe
    omega
  have hid : e.taskId = f.taskId := by
    refine hseq.inj hr ht ?_
    rw [hre, htf] at hrank
    exact hrank.2
  rw [hid, ht] at hr
  rw [hre, htf, Option.some.inj hr]

end Scheduler

end InfinityOS
