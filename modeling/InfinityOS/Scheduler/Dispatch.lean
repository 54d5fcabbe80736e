import InfinityOS.Core.Ranking
import InfinityOS.Scheduler.Accounting
import InfinityOS.Scheduler.Snapshot

/-!
# The task that is handed out

`DispatchCorrect s` says of `next_ready` on `s` that it hands out the first of the queued
tasks whose dimension has a free slot, in the order of `ReadyEntry.before`, and none only if
there is none. Slots are counted from the records, not from the counters. It holds while the
books are in order, which every call but `restore` keeps: `restore` files a queued record
again although its task is known, and does not count a running one.
-/

namespace InfinityOS

namespace Scheduler

open Transition

/-! ## Runs with snapshots -/

/-- A call of the scheduler, or the restoration of a text. -/
inductive Call where
  | op (op : Op)
  | restore (text : String)

inductive Reply where
  | answer (answer : Answer)
  | restored (result : Except String Unit)

def stepCall (json : RecordJson) (s : TaskScheduler) : Call → Reply × TaskScheduler
  | .op op => let r := s.step op; (.answer r.1, r.2)
  | .restore text => let r := s.restore json text; (.restored r.1, r.2)

theorem final_stepCall_op (json : RecordJson) (s : TaskScheduler) (ops : List Op) :
    final (stepCall json) s (ops.map Call.op) = final TaskScheduler.step s ops := by
  induction ops generalizing s with
  | nil => rfl
  | cons op ops ih =>
      rw [List.map_cons, final_cons, final_cons]
      exact ih _

/-- Every record of a restored text is admitted where the loop reads it. -/
def Call.Admits (json : RecordJson) (s : TaskScheduler) : Call → Prop
  | .op _ => True
  | .restore text => ∀ records, json.fromStr text = .ok records →
      Along TaskScheduler.Admits (fun s r => ((), s.restoreOne r)) s records

structure Candidate (s : TaskScheduler) (r : TaskRecord) : Prop where
  found : s.index.get r.taskId = some r
  queued : r.state = .queued
  slot : s.index.runningTasks r.spec.dimensionId <
    (s.quotaFor r.spec.dimensionId).maxConcurrent.toNat

/-- `next_ready` hands out a candidate that no other comes before, and nothing exactly where
there is no candidate. -/
structure DispatchCorrect (s : TaskScheduler) : Prop where
  chosen : ∀ w now r' lease, (s.nextReady w now).1 = some (r', lease) →
    ∃ r, Candidate s r ∧ r'.taskId = r.taskId ∧ lease.taskId = r.taskId ∧
      ∀ q, Candidate s q → r.entry.before q.entry
  empty : ∀ w now, (s.nextReady w now).1 = none ↔ ∀ r, ¬ Candidate s r

variable {s : TaskScheduler}

/-! ## While the books are in order -/

theorem Accounted.eligible_iff (h : Accounted s) {r : TaskRecord}
    (hr : s.index.get r.taskId = some r) :
    s.eligible r.entry = true ↔ s.index.runningTasks r.spec.dimensionId <
      (s.quotaFor r.spec.dimensionId).maxConcurrent.toNat := by
  have hget : s.index.get r.entry.taskId = some r := hr
  rw [TaskScheduler.eligible, hget, ← h.running]
  simp [UInt32.lt_iff_toNat_lt]

theorem Accounted.candidate_iff (h : Accounted s) {r : TaskRecord}
    (hr : s.index.get r.taskId = some r) :
    Candidate s r ↔ r.entry ∈ s.readyQueue ∧ s.eligible r.entry = true := by
  rw [h.eligible_iff hr, h.mem_queue]
  constructor
  · intro hc
    exact ⟨⟨r, hr, hc.queued, rfl⟩, hc.slot⟩
  · rintro ⟨⟨t, ht, hq, -⟩, hslot⟩
    have hsame : r = t := Option.some.inj (hr.symm.trans ht)
    exact ⟨hr, hsame ▸ hq, hslot⟩

theorem Accounted.dispatchCorrect (h : Accounted s) : DispatchCorrect s := by
  have hrefl : Std.Refl ReadyEntry.before := ⟨fun e => Or.inr ⟨rfl, le_refl _⟩⟩
  cases hpos : s.readyQueue.findIdx? s.eligible with
  | none =>
      have hnone (r : TaskRecord) : ¬ Candidate s r := by
        intro hc
        obtain ⟨hmem, helig⟩ := (h.candidate_iff hc.found).mp hc
        have hfalse := List.findIdx?_eq_none_iff.mp hpos r.entry hmem
        rw [helig] at hfalse
        cases hfalse
      constructor
      · intro w now r' lease hanswer
        rw [nextReady_none h hpos] at hanswer
        cases hanswer
      · intro w now
        rw [nextReady_none h hpos]
        exact iff_of_true rfl hnone
  | some pos =>
      obtain ⟨hlt, helig, -⟩ := List.findIdx?_eq_some_iff_getElem.mp hpos
      have hget := List.getElem?_eq_getElem hlt
      obtain ⟨r, hr, -, hentry⟩ := h.mem_queue.mp (List.getElem_mem hlt)
      rw [hentry] at hget helig
      have hid : r.taskId = s.readyQueue[pos].taskId := h.index.keyed hr
      have hcandidate : Candidate s r := by
        rw [h.candidate_iff (hid ▸ hr)]
        exact ⟨List.mem_of_getElem? hget, helig⟩
      constructor
      · intro w now r' lease hanswer
        obtain ⟨r₀, r₁, lease₀, s', heq, hm, -, -, hlease, -⟩ := nextReady_found h hpos hget w now
        rw [heq] at hanswer
        cases hanswer
        refine ⟨r, hcandidate, ?_, hlease, ?_⟩
        · rw [hm.taskId, h.index.keyed hm.found]
          rfl
        · intro q hq
          obtain ⟨hmem, heligible⟩ := (h.candidate_iff hq.found).mp hq
          exact Ranking.rel_of_findIdx? h.sorted hpos hget hmem heligible
      · intro w now
        obtain ⟨r₀, r₁, lease₀, s', heq, -⟩ := nextReady_found h hpos hget w now
        rw [heq]
        exact iff_of_false (Option.some_ne_none _) fun hnone => hnone r hcandidate

/-! ## What a restoration keeps -/

theorem TaskIndex.extends_adopt {x : TaskIndex} {r : TaskRecord} (hnew : x.get r.taskId = none) :
    x.Extends (x.adopt r) r.taskId r :=
  ⟨hnew, rfl, x.get_adopt r⟩

theorem Accounted.restoreOne (h : Accounted s) {r : TaskRecord} (hr : s.Admits r) :
    Accounted (s.restoreOne r) := by
  rw [TaskScheduler.restoreOne_eq, TaskIndex.contains_eq_isSome]
  cases hget : s.index.get r.taskId with
  | some t =>
      have hqueued : r.state ≠ .queued := by
        intro hq
        rw [hr.1 hq] at hget
        cases hget
      rw [Option.isSome_some, if_pos rfl, if_neg hqueued]
      exact h
  | none =>
      have hextends := TaskIndex.extends_adopt hget
      rw [Option.isSome_none, if_neg Bool.false_ne_true]
      split
      · next hq =>
        apply h.extend hextends rfl (hr.2 hget) _ (List.pairwise_insertionSort _ _)
        rw [if_pos hq]
        exact List.perm_insertionSort _ _
      · next hq =>
        apply h.extend hextends rfl (hr.2 hget) _ h.sorted
        rw [if_neg hq, List.append_nil]

theorem Accounted.restoreRecords (h : Accounted s) {records : List TaskRecord}
    (hrecords : Along TaskScheduler.Admits (fun s r => ((), s.restoreOne r)) s records) :
    Accounted (s.restoreRecords records) := by
  induction records generalizing s with
  | nil => exact h
  | cons r records ih => exact ih (h.restoreOne hrecords.1) hrecords.2

theorem Accounted.stepCall (h : Accounted s) {json : RecordJson} {call : Call}
    (hcall : call.Admits json s) : Accounted (stepCall json s call).2 := by
  cases call with
  | op op => exact accounted_step op h
  | restore text =>
      change Accounted (s.restore json text).2
      unfold TaskScheduler.restore
      cases hread : json.fromStr text with
      | error e => exact h
      | ok records => exact h.restoreRecords (hcall records hread)

/-- In every run in which no restored text queues a task that is known or brings a running
one, `next_ready` hands out the right task in the state reached. -/
theorem nextReady_correct_along (json : RecordJson) (dim : DimensionId)
    (policy : PreemptionPolicy) (leaseMs : UInt64) (calls : List Call)
    (hcalls : Along (fun s call => call.Admits json s) (stepCall json)
      (TaskScheduler.new dim policy leaseMs) calls) :
    DispatchCorrect (final (stepCall json) (TaskScheduler.new dim policy leaseMs) calls) := by
  have hacc : Accounted (final (stepCall json) (TaskScheduler.new dim policy leaseMs) calls) :=
    invariant_final Accounted (fun _ _ h hcall => h.stepCall hcall)
      (accounted_new dim policy leaseMs) hcalls
  exact hacc.dispatchCorrect

/-! ## The text of a snapshot -/

def TaskState.text : TaskState → String
  | pending => "pending"
  | queued => "queued"
  | running => "running"
  | paused => "paused"
  | completed => "completed"
  | failed => "failed"
  | cancelled => "cancelled"

def TaskPriority.text : TaskPriority → String
  | background => "background"
  | normal => "normal"
  | high => "high"
  | critical => "critical"

/-- A string without characters to escape. -/
def quoted (text : String) : String :=
  "\"" ++ text ++ "\""

def uuidText (id : Uuid) : String :=
  let digits := (Nat.toDigits 16 id.toNat).leftpad 32 '0'
  let group (start length : ℕ) := String.ofList ((digits.drop start).take length)
  quoted ("-".intercalate [group 0 8, group 8 4, group 12 4, group 16 4, group 20 12])

def objectText (members : List (String × String)) : String :=
  "\x7b" ++ ",".intercalate (members.map fun m => quoted m.1 ++ ":" ++ m.2) ++ "\x7d"

def listText (items : List String) : String :=
  "[" ++ ",".intercalate items ++ "]"

def TaskLease.text (l : TaskLease) : String :=
  objectText [("task_id", uuidText l.taskId), ("worker_id", quoted l.workerId),
    ("issued_at_ms", toString l.issuedAtMs), ("expires_at_ms", toString l.expiresAtMs)]

def RetryPolicy.text (p : RetryPolicy) : String :=
  objectText [("max_attempts", toString p.maxAttempts),
    ("base_backoff_ms", toString p.baseBackoffMs), ("max_backoff_ms", toString p.maxBackoffMs)]

/-- A specification without parameters. -/
def TaskSpec.text (t : TaskSpec) : String :=
  objectText [("dimension_id", uuidText t.dimensionId), ("kind", quoted t.kind),
    ("label", quoted t.label), ("priority", quoted t.priority.text), ("params", objectText []),
    ("retry_policy", t.retryPolicy.text), ("dependencies", listText (t.dependencies.map uuidText)),
    ("template_id", (t.templateId.map uuidText).getD "null")]

def TaskRecord.text (r : TaskRecord) : String :=
  objectText [("task_id", uuidText r.taskId), ("spec", r.spec.text),
    ("state", quoted r.state.text), ("attempt", toString r.attempt),
    ("submitted_at_ms", toString r.submittedAtMs), ("updated_at_ms", toString r.updatedAtMs),
    ("failure_reason", (r.failureReason.map quoted).getD "null"),
    ("lease", (r.lease.map TaskLease.text).getD "null"), ("seq", toString r.seq)]

def snapshotText (records : List TaskRecord) : String :=
  listText (records.map TaskRecord.text)

def jsonOf (records : List TaskRecord) : RecordJson where
  toString list := .ok (snapshotText list)
  fromStr text :=
    if text = snapshotText records then .ok records
    else .error "expected value at line 1 column 1"

theorem fromStr_jsonOf (records : List TaskRecord) :
    (jsonOf records).fromStr (snapshotText records) = .ok records :=
  if_pos rfl

theorem roundTrips_jsonOf (records : List TaskRecord) :
    (jsonOf records).RoundTrips records := by
  rintro text htext
  cases htext
  exact fromStr_jsonOf records

/-! ## Snapshots that the condition leaves out -/

/-- Every text is read as the records of a scheduler after the first calls of `sampleRun`. -/
def sampleJson (count : ℕ) : RecordJson where
  toString _ := .ok "snapshot"
  fromStr _ := .ok
    (final TaskScheduler.step (TaskScheduler.new 1 .none 5000)
      (sampleRun.take count)).index.iterInOrder

def sampleRestored (count : ℕ) (calls : List Call) : TaskScheduler :=
  final (stepCall (sampleJson count)) (TaskScheduler.new 1 .none 5000) calls

/-- Two queued tasks are read into a new scheduler. -/
theorem nextReady_correct_along_queued :
    DispatchCorrect (sampleRestored 3 [.restore "snapshot"]) := by
  apply nextReady_correct_along (sampleJson 3) 1 .none 5000 [.restore "snapshot"]
  refine ⟨?_, trivial⟩
  intro records hread
  have htest : testAlong (fun s r => decide (s.Admits r)) (fun s r => ((), s.restoreOne r))
      (TaskScheduler.new 1 .none 5000) records = true := by
    cases hread
    decide
  exact along_of_testAlong (fun _ _ => of_decide_eq_true) htest

/-- A fresh scheduler with the limit of `sampleRun`, into which a snapshot is read. -/
def limitedCalls : List Call :=
  [.op (.setQuota 7 { maxConcurrent := 1, maxQueued := 100, tasksPerMinute := 0 }),
   .restore "snapshot"]

/-- In the snapshot task 1 runs and takes the only slot. Task 2 is handed out. -/
theorem restored_running_not_counted :
    ¬ ∀ calls : List Call, DispatchCorrect (sampleRestored 4 calls) := by
  intro h
  have hcorrect := h limitedCalls
  have hanswer : ((sampleRestored 4 limitedCalls).nextReady "worker" fun _ => 40).1.map
      (fun t => t.1.taskId) = some 2 := by
    decide
  have hdim : ((sampleRestored 4 limitedCalls).index.get 2).map
      (fun r => r.spec.dimensionId) = some 7 := by
    decide
  have hfull : ((sampleRestored 4 limitedCalls).quotaFor 7).maxConcurrent.toNat ≤
      (sampleRestored 4 limitedCalls).index.runningTasks 7 := by
    decide
  obtain ⟨⟨r', lease⟩, hsome, hhanded⟩ := Option.map_eq_some_iff.mp hanswer
  obtain ⟨r, hcandidate, hid, -⟩ := hcorrect.chosen _ _ _ _ hsome
  have hfound := hcandidate.found
  rw [← hid.symm.trans hhanded] at hdim
  rw [hfound, Option.map_some, Option.some.injEq] at hdim
  have hslot := hcandidate.slot
  rw [hdim] at hslot
  exact absurd hslot (not_lt.mpr hfull)

/-- Task 1 is read into a scheduler twice and handed out. Then task 2 is submitted. -/
def repeatedCalls : List Call :=
  [.restore "snapshot", .restore "snapshot",
   .op (.nextReady "worker-1" fun _ => 30),
   .op (.submit 2 (.new 7 "http.request" "second") fun _ => 20)]

theorem restored_twice_blocks :
    ¬ ∀ calls : List Call, DispatchCorrect (sampleRestored 2 calls) := by
  intro h
  have hcorrect := h repeatedCalls
  have hanswer : ((sampleRestored 2 repeatedCalls).nextReady "worker" fun _ => 40).1.isNone := by
    decide
  have htask : ((sampleRestored 2 repeatedCalls).index.get 2).map
      (fun r => (r.taskId, r.state, r.spec.dimensionId)) = some (2, .queued, 7) := by
    decide
  have hfree : (sampleRestored 2 repeatedCalls).index.runningTasks 7 <
      ((sampleRestored 2 repeatedCalls).quotaFor 7).maxConcurrent.toNat := by
    decide
  obtain ⟨r, hr, htask⟩ := Option.map_eq_some_iff.mp htask
  simp only [Prod.mk.injEq] at htask
  obtain ⟨hid, hqueued, hdim⟩ := htask
  apply (hcorrect.empty _ _).mp (Option.isNone_iff_eq_none.mp hanswer) r
  constructor
  · rw [hid]
    exact hr
  · exact hqueued
  · rw [hdim]
    exact hfree

end Scheduler

end InfinityOS
