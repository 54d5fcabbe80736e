import InfinityOS.Scheduler.Rewrite

/-!
# Limits of the queue

`submit` compares the number of queued tasks of a dimension with `max_queued`. A task that is
tried again, resumed, promoted or read from a snapshot is queued without the comparison, so the
limit holds in exactly the runs in which there happens to be room for it.
-/

namespace InfinityOS

namespace Scheduler

open Transition

def TaskRecord.waits (r : TaskRecord) (d : DimensionId) : ℕ :=
  if r.spec.dimensionId = d ∧ r.state = .queued then 1 else 0

def TaskIndex.queuedTasks (x : TaskIndex) (d : DimensionId) : ℕ :=
  x.iterInOrder.countP fun r => r.spec.dimensionId = d ∧ r.state = .queued

namespace TaskScheduler

/-- No dimension has more queued tasks than its quota allows. -/
def QueueCapped (s : TaskScheduler) : Prop :=
  ∀ d, s.index.queuedTasks d ≤ (s.quotaFor d).maxQueued.toNat

def Room (s : TaskScheduler) (d : DimensionId) : Prop :=
  s.index.queuedTasks d < (s.quotaFor d).maxQueued.toNat

/-- The task waits for no other task than `id`. -/
def FreedBy (s : TaskScheduler) (id : TaskId) (r : TaskRecord) : Prop :=
  ∀ p ∈ r.spec.dependencies, p = id ∨ s.stateOf p = some .completed

instance (s : TaskScheduler) (id : TaskId) (r : TaskRecord) : Decidable (s.FreedBy id r) :=
  inferInstanceAs (Decidable (∀ p ∈ r.spec.dependencies, _))

/-- The number of pending tasks of a dimension that the completion of `id` frees. -/
def released (s : TaskScheduler) (id : TaskId) (d : DimensionId) : ℕ :=
  s.index.iterInOrder.countP fun r =>
    r.spec.dimensionId = d ∧ r.state = .pending ∧ s.FreedBy id r

end TaskScheduler

/-- There is room in the queue for the tasks that the call queues without looking at the
limit, and a new limit is not below the present number. -/
def Call.LeavesRoom (json : RecordJson) (s : TaskScheduler) : Call → Prop
  | .op (.setQuota dim quota) => s.index.queuedTasks dim ≤ quota.maxQueued.toNat
  | .op (.complete id _) => s.stateOf id = some .running →
      ∀ d, s.index.queuedTasks d + s.released id d ≤ (s.quotaFor d).maxQueued.toNat
  | .op (.fail id _ _) => ∀ r, s.index.get id = some r → r.state = .running →
      r.attempt < r.spec.retryPolicy.maxAttempts → s.Room r.spec.dimensionId
  | .op (.resume id _) => ∀ r, s.index.get id = some r →
      r.state.canTransitionTo .queued = true → s.Room r.spec.dimensionId
  | .op _ => True
  | .restore text => Call.Reads json (fun s r =>
      s.index.get r.taskId = none → r.state = .queued → s.Room r.spec.dimensionId) s text

/-! ## Counting queued tasks -/

theorem TaskRecord.waits_of_ne {r : TaskRecord} (h : r.state ≠ .queued) (d : DimensionId) :
    r.waits d = 0 :=
  if_neg fun hr => h hr.2

theorem TaskRecord.waits_of_queued {r : TaskRecord} (h : r.state = .queued) (d : DimensionId) :
    r.waits d = if r.spec.dimensionId = d then 1 else 0 := by
  simp [waits, h]

namespace TaskIndex

variable {x : TaskIndex} {id : TaskId} {r r' : TaskRecord}

theorem queuedTasks_set (h : x.WellFormed) (hr : x.get id = some r) (r' : TaskRecord)
    (d : DimensionId) :
    (x.set id r').queuedTasks d + r.waits d = x.queuedTasks d + r'.waits d := by
  have hcount := countP_set h hr r' fun r => r.spec.dimensionId = d ∧ r.state = .queued
  simpa only [queuedTasks, TaskRecord.waits, decide_eq_true_eq] using hcount

theorem Extends.queuedTasks {x' : TaskIndex} (he : Extends x x' id r) (h : x.WellFormed)
    (d : DimensionId) : x'.queuedTasks d = x.queuedTasks d + r.waits d := by
  unfold TaskIndex.queuedTasks
  rw [he.iterInOrder h, List.countP_append]
  simp only [List.countP_cons, List.countP_nil, TaskRecord.waits, decide_eq_true_eq, zero_add]

theorem queuedTasks_set_le (h : x.WellFormed) (hr : x.get id = some r)
    (hstate : r'.state ≠ .queued) (d : DimensionId) :
    (x.set id r').queuedTasks d ≤ x.queuedTasks d := by
  have hset := queuedTasks_set h hr r' d
  rw [TaskRecord.waits_of_ne hstate] at hset
  omega

theorem queuedTasks_set_queued (h : x.WellFormed) (hr : x.get id = some r)
    (hbefore : r.state ≠ .queued) (hafter : r'.state = .queued) (d : DimensionId) :
    (x.set id r').queuedTasks d =
      x.queuedTasks d + if r'.spec.dimensionId = d then 1 else 0 := by
  have hset := queuedTasks_set h hr r' d
  rw [TaskRecord.waits_of_ne hbefore, TaskRecord.waits_of_queued hafter] at hset
  exact hset

theorem countP_iterInOrder (x : TaskIndex) (p : TaskRecord → Bool) :
    x.iterInOrder.countP p = x.insertionOrder.countP fun i => ((x.get i).map p).getD false :=
  List.countP_filterMap

end TaskIndex

theorem countP_eq_add {α : Type*} {l : List α} {p q r : α → Bool}
    (h : ∀ a ∈ l, (p a).toNat = (q a).toNat + (r a).toNat) :
    l.countP p = l.countP q + l.countP r := by
  have htest (b : Bool) : (if b = true then 1 else 0) = b.toNat := by
    cases b <;> rfl
  induction l with
  | nil => rfl
  | cons a l ih =>
      have ha := h a List.mem_cons_self
      have hl := ih fun b hb => h b (List.mem_cons_of_mem a hb)
      rw [List.countP_cons, List.countP_cons, List.countP_cons, hl, htest, htest, htest, ha]
      omega

/-! ## What a completion queues -/

variable {s m t : TaskScheduler} {id : TaskId} {r : TaskRecord} {now : UInt64}

theorem allDepsCompleted_iff_stateOf (deps : List TaskId) :
    s.allDepsCompleted deps = true ↔ ∀ p ∈ deps, s.stateOf p = some .completed := by
  rw [allDepsCompleted_iff]
  apply forall₂_congr
  intro p _
  rw [TaskScheduler.stateOf, Option.map_eq_some_iff]

theorem promotable_completed_iff (hm : m.index = s.index.set id (r.inState .completed now))
    (u : TaskRecord) :
    m.Promotable u ↔ u.state = .pending ∧ s.FreedBy id u := by
  rw [TaskScheduler.Promotable, allDepsCompleted_iff_stateOf]
  apply and_congr_right
  intro _
  apply forall₂_congr
  intro p _
  unfold TaskScheduler.stateOf
  rw [hm, TaskIndex.get_set]
  split
  · next hpid => simp [hpid, TaskRecord.inState]
  · next hpid => simp [hpid]

theorem queuedTasks_completed (hr : s.index.get id = some r) (hrunning : r.state = .running)
    (hm : m.index = s.index.set id (r.inState .completed now)) (hp : Promotes m t)
    (d : DimensionId) :
    t.index.queuedTasks d = s.index.queuedTasks d + s.released id d := by
  have horder : t.index.insertionOrder = s.index.insertionOrder := by
    rw [hp.order, hm, TaskIndex.insertionOrder_set]
  unfold TaskIndex.queuedTasks TaskScheduler.released
  rw [TaskIndex.countP_iterInOrder, TaskIndex.countP_iterInOrder, TaskIndex.countP_iterInOrder,
    horder]
  apply countP_eq_add
  intro i _
  have hkept (hnot : ∀ u, m.index.get i = some u → ¬ m.Promotable u) :
      t.index.get i = m.index.get i := hp.kept i hnot
  by_cases hid : i = id
  · -- the completed task is neither queued nor pending
    subst hid
    have hget : m.index.get i = some (r.inState .completed now) := by
      rw [hm, TaskIndex.get_set_self]
    have hnot (u : TaskRecord) (hu : m.index.get i = some u) : ¬ m.Promotable u := by
      rintro ⟨hpending, -⟩
      rw [hget] at hu
      cases hu
      cases hpending
    rw [hkept hnot, hget, hr]
    simp [TaskRecord.inState, hrunning]
  · have hget : m.index.get i = s.index.get i := by
      rw [hm, TaskIndex.get_set_of_ne _ _ hid]
    cases hs : s.index.get i with
    | none =>
        have hnone : t.index.get i = none := by
          rw [hkept, hget, hs]
          intro u hu
          rw [hget, hs] at hu
          cases hu
        rw [hnone]
        rfl
    | some u =>
        by_cases hmoved : m.Promotable u
        · obtain ⟨now', hget'⟩ := hp.moved i u (hget.trans hs) hmoved
          obtain ⟨hpending, hdeps⟩ := (promotable_completed_iff hm u).mp hmoved
          rw [hget']
          simp [TaskRecord.inState, hpending, hdeps]
        · have hsame : t.index.get i = some u := by
            rw [hkept, hget, hs]
            intro v hv
            rw [hget, hs] at hv
            cases hv
            exact hmoved
          rw [promotable_completed_iff hm, not_and] at hmoved
          rw [hsame]
          simpa using fun _ => hmoved

/-! ## One call -/

variable {op : Op} {answer : Answer} {x : TaskIndex}

theorem TaskScheduler.QueueCapped.add_iff (h : s.QueueCapped) (e : DimensionId) :
    (∀ d, s.index.queuedTasks d + (if e = d then 1 else 0) ≤ (s.quotaFor d).maxQueued.toNat) ↔
      s.Room e := by
  constructor
  · intro hall
    have he := hall e
    rw [if_pos rfl] at he
    exact he
  · intro hroom d
    split
    · next hd =>
        subst hd
        exact hroom
    · exact h d

/-- The comparison of `submit`: the count, cut to 32 bits, is below the limit. -/
theorem room_of_ofNat_lt {n : ℕ} {max : UInt32} (hle : n ≤ max.toNat)
    (hlt : UInt32.ofNat n < max) : n < max.toNat := by
  have hsize : n < UInt32.size := lt_of_le_of_lt hle max.toNat_lt_size
  rwa [UInt32.lt_iff_toNat_lt, UInt32.toNat_ofNat_of_lt' hsize] at hlt

theorem TaskScheduler.QueueCapped.set_le (h : s.QueueCapped) (hx : s.index.WellFormed)
    {v : TaskRecord} (hr : s.index.get id = some r) (hv : v.state ≠ .queued) (d : DimensionId) :
    (s.index.set id v).queuedTasks d ≤ (s.quotaFor d).maxQueued.toNat :=
  (TaskIndex.queuedTasks_set_le hx hr hv d).trans (h d)

theorem TaskScheduler.QueueCapped.set_queued_iff (h : s.QueueCapped) (hx : s.index.WellFormed)
    (v : TaskRecord) (hr : s.index.get id = some r) (hstate : r.state ≠ .queued)
    (hv : v.state = .queued) (hspec : v.spec = r.spec) :
    (∀ d, (s.index.set id v).queuedTasks d ≤ (s.quotaFor d).maxQueued.toNat) ↔
      s.Room r.spec.dimensionId := by
  rw [← h.add_iff, ← hspec]
  apply forall_congr'
  intro d
  rw [TaskIndex.queuedTasks_set_queued hx hr hstate hv]

theorem TaskIndex.queuedTasks_push (hx : x.WellFormed) (hnew : x.get id = none) (spec : TaskSpec)
    (d : DimensionId) : (x.push id spec now).queuedTasks d = x.queuedTasks d := by
  rw [(TaskIndex.extends_push hnew spec now).queuedTasks hx,
    TaskRecord.waits_of_ne (by simp [TaskRecord.new]), Nat.add_zero]

theorem TaskScheduler.QueueCapped.submit (h : s.QueueCapped) (hx : s.index.WellFormed)
    {spec : TaskSpec} {later : UInt64} (hnew : s.index.get id = none)
    (hroom : UInt32.ofNat (s.index.queuedTasks spec.dimensionId) <
      (s.quotaFor spec.dimensionId).maxQueued) (d : DimensionId) :
    ((s.index.push id spec now).set id
      ((TaskRecord.new id spec (s.index.seq + 1) now).inState .queued later)).queuedTasks d ≤
        (s.quotaFor d).maxQueued.toNat := by
  have hget : (s.index.push id spec now).get id =
      some (TaskRecord.new id spec (s.index.seq + 1) now) := by
    rw [TaskIndex.get_push, if_pos rfl]
  have hfree : s.Room spec.dimensionId := room_of_ofNat_lt (h spec.dimensionId) hroom
  rw [TaskIndex.queuedTasks_set_queued (hx.push hnew _ _) hget (by simp [TaskRecord.new]) rfl,
    TaskIndex.queuedTasks_push hx hnew]
  exact (h.add_iff spec.dimensionId).mpr hfree d

theorem leavesRoom_of_not_applies (hop : op.isSetQuota = false) (hnot : ¬ op.Applies s)
    (json : RecordJson) : Call.LeavesRoom json s (.op op) := by
  cases op with
  | setQuota => cases hop
  | complete i now => exact fun hrunning => absurd hrunning hnot
  | fail i reason now =>
      intro u hu hrunning
      exact absurd (Option.map_eq_some_iff.mpr ⟨u, hu, hrunning⟩) hnot
  | resume i now => exact fun u hu hcan => absurd ⟨u, hu, hcan⟩ hnot
  | _ => trivial

theorem Rewrites.queueCapped_iff (he : Rewrites s op answer x) (hx : s.index.WellFormed)
    (h : s.QueueCapped) (hop : op.isSetQuota = false) (json : RecordJson) :
    (∀ d, x.queuedTasks d ≤ (s.quotaFor d).maxQueued.toNat) ↔
      Call.LeavesRoom json s (.op op) := by
  cases he with
  | quota => cases hop
  | refused hrefusal hnot => exact iff_of_true h (leavesRoom_of_not_applies hop hnot json)
  | @registered i spec now hnew =>
      refine iff_of_true (fun d => ?_) trivial
      rw [TaskIndex.queuedTasks_push hx hnew]
      exact h d
  | queued hnew hroom => exact iff_of_true (h.submit hx hnew hroom) trivial
  | handed hr _ _ =>
      exact iff_of_true (h.set_le hx hr (by simp [TaskRecord.started, TaskRecord.inState])) trivial
  | @renewed i now r old lease hr _ =>
      refine iff_of_true (fun d => ?_) trivial
      have hset := TaskIndex.queuedTasks_set hx hr { r with lease := some lease } d
      have hwaits : ({ r with lease := some lease } : TaskRecord).waits d = r.waits d := rfl
      rw [hwaits] at hset
      rw [Nat.add_right_cancel hset]
      exact h d
  | @completed i now r m t hr hrunning hm hp =>
      have hstate : s.stateOf i = some .running := by
        rw [TaskScheduler.stateOf, hr, Option.map_some, hrunning]
      constructor
      · intro hall _ d
        rw [← queuedTasks_completed hr hrunning hm hp]
        exact hall d
      · intro hroom d
        rw [queuedTasks_completed hr hrunning hm hp]
        exact hroom hstate d
  | @failed i reason _ r hr hrunning hlast =>
      refine iff_of_true (h.set_le hx hr (by simp [TaskRecord.broken, TaskRecord.inState])) ?_
      intro u hu _ hmore
      rw [hr] at hu
      cases hu
      exact absurd hmore hlast
  | @retried i reason now r hr hrunning hmore =>
      rw [h.set_queued_iff hx ((r.broken reason (now 0)).inState .queued (now 1)) hr
        (by simp [hrunning]) rfl rfl]
      constructor
      · intro hroom u hu _ _
        rw [hr] at hu
        cases hu
        exact hroom
      · intro hroom
        exact hroom r hr hrunning hmore
  | cancelled hr _ => exact iff_of_true (h.set_le hx hr (by simp [TaskRecord.inState])) trivial
  | paused hr _ => exact iff_of_true (h.set_le hx hr (by simp [TaskRecord.inState])) trivial
  | @resumed i now r hr hcan =>
      have hstate : r.state ≠ .queued := by
        intro hqueued
        rw [hqueued] at hcan
        cases hcan
      rw [h.set_queued_iff hx (r.inState .queued (now 0)) hr hstate rfl rfl]
      constructor
      · intro hroom u hu _
        rw [hr] at hu
        cases hu
        exact hroom
      · intro hroom
        exact hroom r hr hcan

theorem queueCapped_congr {t : TaskScheduler} (hquotas : t.quotas = s.quotas) :
    t.QueueCapped ↔ ∀ d, t.index.queuedTasks d ≤ (s.quotaFor d).maxQueued.toNat := by
  unfold TaskScheduler.QueueCapped TaskScheduler.quotaFor
  rw [hquotas]

theorem step_queueCapped_iff (hx : s.index.WellFormed) (h : s.QueueCapped) (op : Op)
    (json : RecordJson) :
    (s.step op).2.QueueCapped ↔ Call.LeavesRoom json s (.op op) := by
  cases hop : op.isSetQuota with
  | false =>
      rw [queueCapped_congr (step_quotas hx hop)]
      exact (step_rewrites hx op).queueCapped_iff hx h hop json
  | true =>
      cases op with
      | setQuota dim quota =>
          change (s.setQuota dim quota).QueueCapped ↔
            s.index.queuedTasks dim ≤ quota.maxQueued.toNat
          constructor
          · intro hall
            have hdim := hall dim
            rwa [TaskScheduler.quotaFor_setQuota, if_pos rfl] at hdim
          · intro hle d
            rw [TaskScheduler.quotaFor_setQuota]
            split
            · next hd =>
                subst hd
                exact hle
            · exact h d
      | _ => cases hop

/-! ## Restoring -/

theorem queuedTasks_restoreOne (hx : s.index.WellFormed) (r : TaskRecord) (d : DimensionId) :
    (s.restoreOne r).index.queuedTasks d =
      s.index.queuedTasks d + if s.index.get r.taskId = none then r.waits d else 0 := by
  cases hget : s.index.get r.taskId with
  | some u => rw [restoreOne_of_known hget, if_neg (Option.some_ne_none u), Nat.add_zero]
  | none => rw [restoreOne_of_new hget, if_pos rfl, (TaskIndex.extends_adopt hget).queuedTasks hx]

theorem restoreOne_queueCapped_iff (hx : s.index.WellFormed) (h : s.QueueCapped)
    (r : TaskRecord) :
    (s.restoreOne r).QueueCapped ↔
      (s.index.get r.taskId = none → r.state = .queued → s.Room r.spec.dimensionId) := by
  rw [queueCapped_congr (quotas_restoreOne s r)]
  simp only [queuedTasks_restoreOne hx]
  by_cases hnew : s.index.get r.taskId = none ∧ r.state = .queued
  · obtain ⟨hget, hqueued⟩ := hnew
    simp only [hget, if_true, TaskRecord.waits_of_queued hqueued]
    rw [h.add_iff]
    simp [hqueued]
  · refine iff_of_true ?_ fun hget hqueued => absurd ⟨hget, hqueued⟩ hnew
    intro d
    split
    · next hget =>
        rw [TaskRecord.waits_of_ne fun hqueued => hnew ⟨hget, hqueued⟩, Nat.add_zero]
        exact h d
    · exact h d

theorem queueCapped_of_restoreRecords (hx : s.index.WellFormed) {records : List TaskRecord}
    (h : (s.restoreRecords records).QueueCapped) : s.QueueCapped := by
  induction records generalizing s with
  | nil => exact h
  | cons r records ih =>
      have hone := ih (wellFormed_restoreOne hx r) h
      rw [queueCapped_congr (quotas_restoreOne s r)] at hone
      intro d
      have hd := hone d
      rw [queuedTasks_restoreOne hx] at hd
      exact (Nat.le_add_right _ _).trans hd

theorem restoreRecords_queueCapped_iff (hx : s.index.WellFormed) (h : s.QueueCapped)
    (records : List TaskRecord) :
    (s.restoreRecords records).QueueCapped ↔
      Along (fun s r => s.index.get r.taskId = none → r.state = .queued →
        s.Room r.spec.dimensionId) TaskScheduler.read s records := by
  induction records generalizing s with
  | nil => exact iff_of_true h trivial
  | cons r records ih =>
      have hone := restoreOne_queueCapped_iff hx h r
      have hwf := wellFormed_restoreOne hx r
      constructor
      · intro hall
        have hcapped := queueCapped_of_restoreRecords hwf hall
        exact ⟨hone.mp hcapped, (ih hwf hcapped).mp hall⟩
      · rintro ⟨hroom, hrest⟩
        exact (ih hwf (hone.mpr hroom)).mpr hrest

theorem stepCall_queueCapped_iff (hx : s.index.WellFormed) (h : s.QueueCapped) (json : RecordJson)
    (call : Call) : (stepCall json s call).2.QueueCapped ↔ call.LeavesRoom json s := by
  cases call with
  | op op => exact step_queueCapped_iff hx h op json
  | restore text =>
      change (s.restore json text).2.QueueCapped ↔ Call.Reads json _ s text
      unfold TaskScheduler.restore Call.Reads
      cases json.fromStr text with
      | error e => exact iff_of_true h fun records hread => nomatch hread
      | ok records =>
          change (s.restoreRecords records).QueueCapped ↔ _
          rw [restoreRecords_queueCapped_iff hx h records]
          simp

/-- The limits hold in every state of a run exactly if every call of it leaves room in the
queue. -/
theorem queue_capped_iff_along (json : RecordJson) (dim : DimensionId)
    (policy : PreemptionPolicy) (leaseMs : UInt64) (calls : List Call) :
    (∀ bs, bs <+: calls →
        (final (stepCall json) (TaskScheduler.new dim policy leaseMs) bs).QueueCapped) ↔
      Along (fun s call => call.LeavesRoom json s) (stepCall json)
        (TaskScheduler.new dim policy leaseMs) calls := by
  have hnew : (TaskScheduler.new dim policy leaseMs).QueueCapped := fun _ => Nat.zero_le _
  exact forall_reached_iff_of_wellFormed TaskScheduler.QueueCapped
    (fun _ call hx h => stepCall_queueCapped_iff hx h json call) TaskIndex.wellFormed_new hnew
    calls

/-- Task 1 runs, task 2 waits in a queue for one task, and task 1 fails and is to be tried
again. -/
def crowdedCalls : List Call :=
  [.op (.submit 1 (.new 7 "http.request" "first") fun _ => 10),
   .op (.nextReady "worker-1" fun _ => 20),
   .op (.submit 2 (.new 7 "http.request" "second") fun _ => 30),
   .op (.fail 1 "timeout" fun _ => 40)]

/-- Both tasks are queued then. -/
theorem queue_limit_exceeded :
    ¬ ∀ (quota : DimensionQuota) (calls : List Call),
      (∀ call ∈ calls, ∀ dim q, call ≠ .op (.setQuota dim q)) →
        (final (stepCall (sampleJson 0)) ((TaskScheduler.new 1 .none 5000).setQuota 7 quota)
          calls).QueueCapped := by
  intro h
  have hcapped := h { maxConcurrent := 4, maxQueued := 1, tasksPerMinute := 0 } crowdedCalls
    (by simp [crowdedCalls]) 7
  revert hcapped
  decide

end Scheduler

end InfinityOS
