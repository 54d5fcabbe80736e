import InfinityOS.Scheduler.Snapshot

/-!
# Renumbered schedulers

`Shifted k s r` relates two schedulers with the same tasks in the same states,
where the sequence numbers of `s` exceed those of `r` by `k`, but for the number
zero, which no submission gives; the numbers of closed tasks, which never return
to the ready queue, are free. Every call gives the same answer in both, up to the
sequence number of a handed-out record, and keeps the relation: one lemma per
operation, in the order of `Operation`.
-/

namespace InfinityOS

namespace Scheduler

/-- The states that no transition leaves. -/
def TaskState.isClosed : TaskState → Bool
  | completed | cancelled => true
  | _ => false

theorem TaskState.canTransitionTo_of_isClosed {a : TaskState} (h : a.isClosed = true)
    (b : TaskState) : a.canTransitionTo b = false := by
  cases a <;> cases b <;> first | rfl | cases h

theorem TaskState.canTransitionTo_cancelled {a : TaskState} (h : a.isClosed = false) :
    a.canTransitionTo cancelled = true := by
  cases a <;> first | rfl | cases h

def TaskRecord.withSeq (r : TaskRecord) (q : ℕ) : TaskRecord :=
  { r with seq := q }

/-- The answer without the sequence number of the record it carries. -/
def Answer.withoutSeq : Answer → Answer
  | .handed task => .handed (task.map fun p => (p.1.withSeq 0, p.2))
  | answer => answer

/-- The sequence number that is `k` more, unless it is zero. -/
def shiftSeq (k q : ℕ) : ℕ :=
  if q = 0 then 0 else q + k

theorem shiftSeq_succ (k q : ℕ) : shiftSeq k (q + 1) = q + 1 + k :=
  if_neg (Nat.succ_ne_zero q)

theorem shiftSeq_zero_left (q : ℕ) : shiftSeq 0 q = q := by
  unfold shiftSeq
  split
  · next h => exact h.symm
  · rfl

theorem shiftSeq_le_iff (k : ℕ) {p q : ℕ} : shiftSeq k p ≤ shiftSeq k q ↔ p ≤ q := by
  unfold shiftSeq
  split <;> split <;> omega

def ReadyEntry.shift (k : ℕ) (e : ReadyEntry) : ReadyEntry :=
  { e with seq := shiftSeq k e.seq }

theorem ReadyEntry.before_shift (k : ℕ) (e f : ReadyEntry) :
    (e.shift k).before (f.shift k) ↔ e.before f := by
  unfold before shift
  rw [shiftSeq_le_iff]

/-- The record `a` is `b` with another sequence number: the shifted one, unless the
task is closed. -/
def Renumbered (k : ℕ) (a b : TaskRecord) : Prop :=
  ∃ q, a = b.withSeq q ∧ (b.state.isClosed = true ∨ q = shiftSeq k b.seq)

structure Shifted (k : ℕ) (s r : TaskScheduler) : Prop where
  order : s.index.insertionOrder = r.index.insertionOrder
  records : ∀ id, Option.Rel (Renumbered k) (s.index.get id) (r.index.get id)
  counter : s.index.seq = r.index.seq + k ∨ ∀ id, (r.index.get id).isSome
  queue : s.readyQueue = r.readyQueue.map (ReadyEntry.shift k)
  running : ∀ d, s.runningFor d = r.runningFor d
  quotas : s.quotas = r.quotas
  dimensionId : s.dimensionId = r.dimensionId
  leaseDurationMs : s.leaseDurationMs = r.leaseDurationMs

namespace Shifted

variable {k : ℕ} {s r : TaskScheduler}

/-! ## What both schedulers read alike -/

theorem get_cases (h : Shifted k s r) (id : TaskId) :
    (s.index.get id = none ∧ r.index.get id = none) ∨
      ∃ b q, s.index.get id = some (b.withSeq q) ∧ r.index.get id = some b ∧
        (b.state.isClosed = true ∨ q = shiftSeq k b.seq) := by
  have hrel := h.records id
  cases hs : s.index.get id with
  | none =>
      cases hr : r.index.get id with
      | none => exact .inl ⟨rfl, rfl⟩
      | some b =>
          rw [hs, hr] at hrel
          cases hrel
  | some a =>
      cases hr : r.index.get id with
      | none =>
          rw [hs, hr] at hrel
          cases hrel
      | some b =>
          rw [hs, hr] at hrel
          cases hrel with
          | some hab =>
              obtain ⟨q, rfl, hq⟩ := hab
              exact .inr ⟨b, q, rfl, rfl, hq⟩

theorem map_get {α : Type} (h : Shifted k s r) (f : TaskRecord → α)
    (hf : ∀ b q, f (b.withSeq q) = f b) (id : TaskId) :
    (s.index.get id).map f = (r.index.get id).map f := by
  rcases h.get_cases id with ⟨hs, hr⟩ | ⟨b, q, hs, hr, -⟩
  · rw [hs, hr]
  · rw [hs, hr, Option.map_some, Option.map_some, hf]

theorem contains (h : Shifted k s r) (id : TaskId) :
    s.index.contains id = r.index.contains id := by
  have hmap := h.map_get (fun _ => ()) (fun _ _ => rfl) id
  rw [TaskIndex.contains_eq_isSome, TaskIndex.contains_eq_isSome,
    ← Option.isSome_map (f := fun _ => ()), hmap, Option.isSome_map]

theorem map_iterInOrder {α : Type} (h : Shifted k s r) (f : TaskRecord → α)
    (hf : ∀ b q, f (b.withSeq q) = f b) :
    s.index.iterInOrder.map f = r.index.iterInOrder.map f := by
  rw [TaskIndex.iterInOrder, TaskIndex.iterInOrder, List.map_filterMap,
    List.map_filterMap, h.order]
  exact List.filterMap_congr fun id _ => h.map_get f hf id

theorem countP_iterInOrder (h : Shifted k s r) (p : TaskRecord → Bool)
    (hp : ∀ b q, p (b.withSeq q) = p b) :
    s.index.iterInOrder.countP p = r.index.iterInOrder.countP p := by
  have hid : p = id ∘ p := rfl
  rw [hid, ← List.countP_map, ← List.countP_map, h.map_iterInOrder p hp]

theorem map_tasksInState (h : Shifted k s r) (state : TaskState) :
    (s.tasksInState state).map TaskRecord.taskId =
      (r.tasksInState state).map TaskRecord.taskId := by
  have hmap := h.map_iterInOrder (fun t => (t.state, t.taskId)) fun _ _ => rfl
  have hread : ∀ l : List TaskRecord,
      (l.filter fun t => t.state = state).map TaskRecord.taskId =
        ((l.map fun t => (t.state, t.taskId)).filter fun p => p.1 = state).map
          Prod.snd := by
    intro l
    rw [List.filter_map, List.map_map]
    rfl
  rw [TaskScheduler.tasksInState, TaskScheduler.tasksInState, hread, hread, hmap]

theorem quotaFor (h : Shifted k s r) (d : DimensionId) : s.quotaFor d = r.quotaFor d := by
  rw [TaskScheduler.quotaFor, TaskScheduler.quotaFor, h.quotas]

theorem allDepsCompleted (h : Shifted k s r) (deps : List TaskId) :
    s.allDepsCompleted deps = r.allDepsCompleted deps := by
  unfold TaskScheduler.allDepsCompleted
  congr 1
  funext id
  rw [h.map_get (fun t => decide (t.state = .completed)) fun _ _ => rfl]

theorem dimensionOf (h : Shifted k s r) (id : TaskId) :
    s.dimensionOf id = r.dimensionOf id := by
  rw [TaskScheduler.dimensionOf, TaskScheduler.dimensionOf, h.dimensionId,
    h.map_get (fun t => t.spec.dimensionId) fun _ _ => rfl]

theorem eligible (h : Shifted k s r) (e : ReadyEntry) :
    s.eligible (e.shift k) = r.eligible e := by
  have htask : (e.shift k).taskId = e.taskId := rfl
  rw [TaskScheduler.eligible, TaskScheduler.eligible, htask]
  rcases h.get_cases e.taskId with ⟨hs, hr⟩ | ⟨b, q, hs, hr, -⟩
  · rw [hs, hr]
  · rw [hs, hr]
    dsimp only [TaskRecord.withSeq]
    rw [h.running, h.quotaFor]

/-! ## Updates -/

theorem setRecord (h : Shifted k s r) (id : TaskId) {a b : TaskRecord}
    (hab : Renumbered k a b) : Shifted k (s.setRecord id a) (r.setRecord id b) where
  order := h.order
  records i := by
    rw [TaskScheduler.index_setRecord, TaskScheduler.index_setRecord, TaskIndex.get_set,
      TaskIndex.get_set]
    split
    · exact .some hab
    · exact h.records i
  counter := by
    rcases h.counter with hk | hall
    · exact .inl hk
    · refine .inr fun i => ?_
      rw [TaskScheduler.index_setRecord, TaskIndex.get_set]
      split
      · rfl
      · exact hall i
  queue := h.queue
  running := h.running
  quotas := h.quotas
  dimensionId := h.dimensionId
  leaseDurationMs := h.leaseDurationMs

theorem readyQueue (h : Shifted k s r) {l m : List ReadyEntry}
    (hq : l = m.map (ReadyEntry.shift k)) :
    Shifted k { s with readyQueue := l } { r with readyQueue := m } :=
  ⟨h.order, h.records, h.counter, hq, h.running, h.quotas, h.dimensionId,
    h.leaseDurationMs⟩

theorem sortReadyQueue (h : Shifted k s r) :
    Shifted k s.sortReadyQueue r.sortReadyQueue := by
  apply h.readyQueue
  rw [h.queue]
  refine (List.map_insertionSort ReadyEntry.before ReadyEntry.before _ _ ?_).symm
  intro e _ f _
  exact (ReadyEntry.before_shift k e f).symm

theorem enqueue (h : Shifted k s r) (id : TaskId) (p : TaskPriority) (q : ℕ) :
    Shifted k (s.enqueue id p (shiftSeq k q)) (r.enqueue id p q) := by
  have happend : s.readyQueue ++ [ReadyEntry.mk p (shiftSeq k q) id] =
      (r.readyQueue ++ [ReadyEntry.mk p q id]).map (ReadyEntry.shift k) := by
    rw [List.map_append, ← h.queue]
    rfl
  exact (h.readyQueue happend).sortReadyQueue

theorem incrementRunning (h : Shifted k s r) (d : DimensionId) :
    Shifted k (s.incrementRunning d) (r.incrementRunning d) where
  order := h.order
  records := h.records
  counter := h.counter
  queue := h.queue
  running d' := by
    rw [TaskScheduler.runningFor_incrementRunning,
      TaskScheduler.runningFor_incrementRunning, h.running, h.running]
  quotas := h.quotas
  dimensionId := h.dimensionId
  leaseDurationMs := h.leaseDurationMs

theorem decrementRunning (h : Shifted k s r) (d : DimensionId) :
    Shifted k (s.decrementRunning d) (r.decrementRunning d) where
  order := h.order
  records := h.records
  counter := h.counter
  queue := h.queue
  running d' := by
    rw [TaskScheduler.runningFor_decrementRunning,
      TaskScheduler.runningFor_decrementRunning, h.running, h.running]
  quotas := h.quotas
  dimensionId := h.dimensionId
  leaseDurationMs := h.leaseDurationMs

theorem setQuota (h : Shifted k s r) (d : DimensionId) (quota : DimensionQuota) :
    Shifted k (s.setQuota d quota) (r.setQuota d quota) where
  order := h.order
  records := h.records
  counter := h.counter
  queue := h.queue
  running := h.running
  quotas := by
    rw [TaskScheduler.setQuota, TaskScheduler.setQuota, h.quotas]
  dimensionId := h.dimensionId
  leaseDurationMs := h.leaseDurationMs

theorem register (h : Shifted k s r) {id : TaskId} (hid : r.index.get id = none)
    (spec : TaskSpec) (now : UInt64) :
    Shifted k (s.register id spec now) (r.register id spec now) := by
  have hk : s.index.seq = r.index.seq + k := by
    rcases h.counter with hk | hall
    · exact hk
    · have := hall id
      rw [hid] at this
      cases this
  refine ⟨?_, fun i => ?_, .inl ?_, h.queue, h.running, h.quotas, h.dimensionId,
    h.leaseDurationMs⟩
  · change s.index.insertionOrder ++ [id] = r.index.insertionOrder ++ [id]
    rw [h.order]
  · change Option.Rel _ ((s.index.push id spec now).get i) ((r.index.push id spec now).get i)
    rw [TaskIndex.get_push, TaskIndex.get_push]
    split
    · refine .some ⟨s.index.seq + 1, rfl, .inr ?_⟩
      change s.index.seq + 1 = shiftSeq k (r.index.seq + 1)
      rw [shiftSeq_succ]
      omega
    · exact h.records i
  · change s.index.seq + 1 = r.index.seq + 1 + k
    omega

/-! ## The operations -/

theorem transition (h : Shifted k s r) (id : TaskId) (next : TaskState) (now : UInt64) :
    (∃ e, s.transition id next now = .error e ∧ r.transition id next now = .error e) ∨
      ∃ s' r', s.transition id next now = .ok s' ∧ r.transition id next now = .ok r' ∧
        Shifted k s' r' := by
  unfold TaskScheduler.transition
  rcases h.get_cases id with ⟨hs, hr⟩ | ⟨b, q, hs, hr, hq⟩
  · rw [hs, hr]
    exact .inl ⟨_, rfl, rfl⟩
  · rw [hs, hr]
    dsimp only [TaskRecord.withSeq]
    by_cases hcan : b.state.canTransitionTo next = true
    · rw [if_pos hcan, if_pos hcan]
      -- an open task keeps the distance
      have hqk : q = shiftSeq k b.seq := by
        rcases hq with hclosed | hq
        · rw [TaskState.canTransitionTo_of_isClosed hclosed] at hcan
          cases hcan
        · exact hq
      subst hqk
      have hset := h.setRecord id
        (a := { b with state := next, updatedAtMs := now, seq := shiftSeq k b.seq })
        (b := { b with state := next, updatedAtMs := now }) ⟨shiftSeq k b.seq, rfl, .inr rfl⟩
      refine .inr ?_
      split_ifs
      · exact ⟨_, _, rfl, rfl, hset.enqueue id b.spec.priority b.seq⟩
      · exact ⟨_, _, rfl, rfl, hset.incrementRunning b.spec.dimensionId⟩
      · exact ⟨_, _, rfl, rfl, hset⟩
    · rw [if_neg hcan, if_neg hcan]
      exact .inl ⟨_, rfl, rfl⟩

theorem promoteOne (h : Shifted k s r) (id : TaskId) (now : UInt64) :
    Shifted k (s.promoteOne id now) (r.promoteOne id now) := by
  unfold TaskScheduler.promoteOne
  rw [h.map_get (fun t => t.spec.dependencies) fun _ _ => rfl]
  dsimp only
  rw [h.allDepsCompleted]
  split
  · rcases h.transition id .queued now with ⟨e, hs, hr⟩ | ⟨s', r', hs, hr, h'⟩
    · rw [hs, hr]
      exact h
    · rw [hs, hr]
      exact h'
  · exact h

theorem promoteLoop (h : Shifted k s r) (ids : List TaskId) (now : Clock) :
    Shifted k (s.promoteLoop ids now) (r.promoteLoop ids now) := by
  induction ids generalizing s r now with
  | nil => exact h
  | cons id ids ih => exact ih (h.promoteOne id (now 0)) fun k => now (k + 1)

theorem promotePendingTasks (h : Shifted k s r) (now : Clock) :
    Shifted k (s.promotePendingTasks now) (r.promotePendingTasks now) := by
  unfold TaskScheduler.promotePendingTasks
  rw [h.map_tasksInState]
  exact h.promoteLoop _ now

theorem submit (h : Shifted k s r) (id : TaskId) (spec : TaskSpec) (now : Clock) :
    (s.submit id spec now).1 = (r.submit id spec now).1 ∧
      Shifted k (s.submit id spec now).2 (r.submit id spec now).2 := by
  have hcount := h.countP_iterInOrder
    (fun t => t.spec.dimensionId = spec.dimensionId ∧ t.state = .queued) fun _ _ => rfl
  have hfind : (spec.dependencies.find? fun p => !s.index.contains p) =
      spec.dependencies.find? fun p => !r.index.contains p := by
    congr 1
    funext p
    rw [h.contains]
  unfold TaskScheduler.submit
  dsimp only
  rw [h.contains, hcount, hfind, h.quotaFor, h.running, h.allDepsCompleted]
  by_cases hcontains : r.index.contains id = true
  · rw [if_pos hcontains, if_pos hcontains]
    exact ⟨rfl, h⟩
  · rw [if_neg hcontains, if_neg hcontains]
    have hnew : r.index.get id = none := by
      simpa [TaskIndex.contains_eq_isSome] using hcontains
    split
    · exact ⟨rfl, h⟩
    · split
      · exact ⟨rfl, h⟩
      · rw [TaskIndex.insert, TaskIndex.insert, h.contains, if_neg hcontains,
          if_neg hcontains]
        have hregister := h.register hnew spec (now 0)
        dsimp only
        split
        · rcases hregister.transition id .queued (now 1) with
            ⟨e, hs, hr⟩ | ⟨s', r', hs, hr, h'⟩
          · unfold TaskScheduler.register at hs hr
            rw [hs, hr]
            exact ⟨rfl, hregister⟩
          · unfold TaskScheduler.register at hs hr
            rw [hs, hr]
            exact ⟨rfl, h'⟩
        · exact ⟨rfl, hregister⟩

theorem nextReady (h : Shifted k s r) (w : String) (now : Clock) :
    (Answer.handed (s.nextReady w now).1).withoutSeq =
        (Answer.handed (r.nextReady w now).1).withoutSeq ∧
      Shifted k (s.nextReady w now).2 (r.nextReady w now).2 := by
  have hsort := h.sortReadyQueue
  unfold TaskScheduler.nextReady
  dsimp only
  set s₁ := s.sortReadyQueue
  set r₁ := r.sortReadyQueue
  have hfind : s₁.readyQueue.findIdx? s₁.eligible = r₁.readyQueue.findIdx? r₁.eligible := by
    rw [hsort.queue, List.findIdx?_map]
    congr 1
    funext e
    exact hsort.eligible e
  rw [hfind]
  split
  · exact ⟨rfl, hsort⟩
  · next pos _ =>
      have hpos : s₁.readyQueue[pos]? = (r₁.readyQueue[pos]?).map (ReadyEntry.shift k) := by
        rw [hsort.queue, List.getElem?_map]
      have herase : Shifted k { s₁ with readyQueue := s₁.readyQueue.eraseIdx pos }
          { r₁ with readyQueue := r₁.readyQueue.eraseIdx pos } := by
        apply hsort.readyQueue
        rw [hsort.queue, List.eraseIdx_map]
      rw [hpos]
      cases r₁.readyQueue[pos]? with
      | none => exact ⟨rfl, hsort⟩
      | some e =>
          dsimp only [Option.map_some, ReadyEntry.shift]
          rcases herase.transition e.taskId .running (now 0) with
            ⟨err, hs, hr⟩ | ⟨s', r', hs, hr, h'⟩
          · rw [hs, hr]
            exact ⟨rfl, herase⟩
          · rw [hs, hr]
            dsimp only
            rw [h'.leaseDurationMs]
            rcases h'.get_cases e.taskId with ⟨hs', hr'⟩ | ⟨b, q, hs', hr', hq⟩
            · rw [hs', hr']
              exact ⟨rfl, h'⟩
            · rw [hs', hr']
              exact ⟨rfl, h'.setRecord _ ⟨q, rfl, hq⟩⟩

theorem renewLease (h : Shifted k s r) (id : TaskId) (now : Clock) :
    (s.renewLease id now).1 = (r.renewLease id now).1 ∧
      Shifted k (s.renewLease id now).2 (r.renewLease id now).2 := by
  unfold TaskScheduler.renewLease
  rcases h.get_cases id with ⟨hs, hr⟩ | ⟨b, q, hs, hr, hq⟩
  · rw [hs, hr]
    exact ⟨rfl, h⟩
  · rw [hs, hr]
    dsimp only [TaskRecord.withSeq]
    cases b.lease with
    | none => exact ⟨rfl, h⟩
    | some lease =>
        dsimp only
        rw [h.leaseDurationMs]
        split
        · exact ⟨rfl, h.setRecord id ⟨q, rfl, hq⟩⟩
        · exact ⟨rfl, h⟩

theorem complete (h : Shifted k s r) (id : TaskId) (now : Clock) :
    (s.complete id now).1 = (r.complete id now).1 ∧
      Shifted k (s.complete id now).2 (r.complete id now).2 := by
  unfold TaskScheduler.complete
  rcases h.transition id .completed (now 0) with ⟨e, hs, hr⟩ | ⟨s', r', hs, hr, h'⟩
  · rw [hs, hr]
    exact ⟨rfl, h⟩
  · rw [hs, hr]
    dsimp only
    rw [h'.dimensionOf]
    exact ⟨rfl, (h'.decrementRunning _).promotePendingTasks _⟩

theorem markFailed (h : Shifted k s r) (id : TaskId) (reason : String)
    (dim : DimensionId) (now : UInt64) :
    (s.markFailed id reason dim now).1 = (r.markFailed id reason dim now).1 ∧
      Shifted k (s.markFailed id reason dim now).2 (r.markFailed id reason dim now).2 := by
  unfold TaskScheduler.markFailed
  rcases h.transition id .failed now with ⟨e, hs, hr⟩ | ⟨s', r', hs, hr, h'⟩
  · rw [hs, hr]
    exact ⟨rfl, h⟩
  · rw [hs, hr]
    dsimp only
    rcases h'.get_cases id with ⟨hs', hr'⟩ | ⟨b, q, hs', hr', hq⟩
    · rw [hs', hr']
      exact ⟨rfl, h'⟩
    · rw [hs', hr']
      have hset := h'.setRecord id
        (a := { b.withSeq q with failureReason := some reason })
        (b := { b with failureReason := some reason }) ⟨q, rfl, hq⟩
      exact ⟨rfl, hset.decrementRunning dim⟩

theorem fail (h : Shifted k s r) (id : TaskId) (reason : String) (now : Clock) :
    (s.fail id reason now).1 = (r.fail id reason now).1 ∧
      Shifted k (s.fail id reason now).2 (r.fail id reason now).2 := by
  unfold TaskScheduler.fail
  rcases h.get_cases id with ⟨hs, hr⟩ | ⟨b, q, hs, hr, -⟩
  · rw [hs, hr]
    exact ⟨rfl, h⟩
  · rw [hs, hr]
    dsimp only [TaskRecord.withSeq]
    obtain ⟨hanswer, hmarked⟩ := h.markFailed id reason b.spec.dimensionId (now 0)
    generalize s.markFailed id reason b.spec.dimensionId (now 0) = ms at hanswer hmarked
    generalize r.markFailed id reason b.spec.dimensionId (now 0) = mr at hanswer hmarked
    obtain ⟨as, s'⟩ := ms
    obtain ⟨ar, r'⟩ := mr
    cases hanswer
    cases as with
    | error e => exact ⟨rfl, hmarked⟩
    | ok u =>
        dsimp only at hmarked ⊢
        split
        · rcases hmarked.transition id .queued (now 1) with
            ⟨e, hs, hr⟩ | ⟨s'', r'', hs, hr, h'⟩
          · rw [hs, hr]
            exact ⟨rfl, hmarked⟩
          · rw [hs, hr]
            exact ⟨rfl, h'⟩
        · exact ⟨rfl, hmarked⟩

theorem cancel (h : Shifted k s r) (id : TaskId) (now : Clock) :
    (s.cancel id now).1 = (r.cancel id now).1 ∧
      Shifted k (s.cancel id now).2 (r.cancel id now).2 := by
  have withdraw : ∀ {s' r' : TaskScheduler}, Shifted k s' r' →
      Shifted k { s' with readyQueue := s'.readyQueue.filter fun e => e.taskId ≠ id }
        { r' with readyQueue := r'.readyQueue.filter fun e => e.taskId ≠ id } := by
    intro s' r' h'
    apply h'.readyQueue
    rw [h'.queue, List.filter_map]
    rfl
  unfold TaskScheduler.cancel
  rw [h.map_get (fun t => decide (t.state = .running)) (fun _ _ => rfl), h.dimensionOf]
  dsimp only
  rcases h.transition id .cancelled (now 0) with ⟨e, hs, hr⟩ | ⟨s', r', hs, hr, h'⟩
  · rw [hs, hr]
    exact ⟨rfl, h⟩
  · rw [hs, hr]
    dsimp only
    split
    · exact ⟨rfl, withdraw (h'.decrementRunning _)⟩
    · exact ⟨rfl, withdraw h'⟩

theorem pause (h : Shifted k s r) (id : TaskId) (now : Clock) :
    (s.pause id now).1 = (r.pause id now).1 ∧
      Shifted k (s.pause id now).2 (r.pause id now).2 := by
  unfold TaskScheduler.pause
  rw [h.dimensionOf]
  dsimp only
  rcases h.transition id .paused (now 0) with ⟨e, hs, hr⟩ | ⟨s', r', hs, hr, h'⟩
  · rw [hs, hr]
    exact ⟨rfl, h⟩
  · rw [hs, hr]
    exact ⟨rfl, h'.decrementRunning _⟩

theorem resume (h : Shifted k s r) (id : TaskId) (now : Clock) :
    (s.resume id now).1 = (r.resume id now).1 ∧
      Shifted k (s.resume id now).2 (r.resume id now).2 := by
  unfold TaskScheduler.resume
  rcases h.transition id .queued (now 0) with ⟨e, hs, hr⟩ | ⟨s', r', hs, hr, h'⟩
  · rw [hs, hr]
    exact ⟨rfl, h⟩
  · rw [hs, hr]
    exact ⟨rfl, h'⟩

theorem step (h : Shifted k s r) (op : Op) :
    (s.step op).1.withoutSeq = (r.step op).1.withoutSeq ∧
      Shifted k (s.step op).2 (r.step op).2 := by
  have done : ∀ {a b : Except SchedulerError Unit} {s' r' : TaskScheduler},
      a = b ∧ Shifted k s' r' →
      (Answer.done a).withoutSeq = (Answer.done b).withoutSeq ∧ Shifted k s' r' := by
    rintro a b s' r' ⟨rfl, h'⟩
    exact ⟨rfl, h'⟩
  cases op with
  | setQuota dim quota => exact ⟨rfl, h.setQuota dim quota⟩
  | submit id spec now => exact done (h.submit id spec now)
  | nextReady w now => exact h.nextReady w now
  | renewLease id now =>
      obtain ⟨hanswer, h'⟩ := h.renewLease id now
      exact ⟨congrArg (fun a => (Answer.lease a).withoutSeq) hanswer, h'⟩
  | complete id now => exact done (h.complete id now)
  | fail id reason now => exact done (h.fail id reason now)
  | cancel id now => exact done (h.cancel id now)
  | pause id now => exact done (h.pause id now)
  | resume id now => exact done (h.resume id now)

/-! ## Restorations -/

theorem restoreOne (h : Shifted k s r) {record : TaskRecord}
    (hclosed : record.state.isClosed = true) :
    Shifted k (s.restoreOne record) (r.restoreOne record) := by
  have hqueued : record.state ≠ .queued := by
    rintro hq
    rw [hq] at hclosed
    cases hclosed
  rw [TaskScheduler.restoreOne_eq, TaskScheduler.restoreOne_eq, h.contains, if_neg hqueued,
    if_neg hqueued]
  split
  · exact h
  · have hadopt : ∀ id, Option.Rel (Renumbered k) ((s.index.adopt record).get id)
        ((r.index.adopt record).get id) := by
      intro id
      rw [TaskIndex.get_adopt, TaskIndex.get_adopt]
      split
      · exact .some ⟨record.seq, rfl, .inl hclosed⟩
      · exact h.records id
    refine ⟨congrArg (· ++ [record.taskId]) h.order, hadopt, h.counter.imp_right fun hall id => ?_,
      h.queue, h.running, h.quotas, h.dimensionId, h.leaseDurationMs⟩
    change ((r.index.adopt record).get id).isSome
    rw [TaskIndex.get_adopt]
    split
    · rfl
    · exact hall id

theorem restoreRecords (h : Shifted k s r) {records : List TaskRecord}
    (hclosed : ∀ record ∈ records, record.state.isClosed = true) :
    Shifted k (s.restoreRecords records) (r.restoreRecords records) := by
  induction records generalizing s r with
  | nil => exact h
  | cons record records ih =>
      rw [List.forall_mem_cons] at hclosed
      exact ih (h.restoreOne hclosed.1) hclosed.2

end Shifted

end Scheduler

end InfinityOS
