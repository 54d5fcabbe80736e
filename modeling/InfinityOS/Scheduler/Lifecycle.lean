import InfinityOS.Scheduler.Index

/-!
# What a call does to the tasks

`Accounted` is the bookkeeping invariant: the ready queue lists the queued tasks
in the order of `ReadyEntry.before` and the counters count the running tasks.
`Moved s s' id r r'` is the net effect of moving one task, and `Effect` says for
each call which tasks it moves and under which guard. Every operation of an
accounted scheduler has such an effect, so what holds over a whole run is proved
from `Effect` alone, without unfolding an operation again.
-/

namespace InfinityOS

namespace Scheduler

/-- The index is well formed, the ready queue lists the queued tasks in order,
and each counter is the number of running tasks of its dimension. -/
structure Accounted (s : TaskScheduler) : Prop where
  index : s.index.WellFormed
  queue : s.readyQueue.Perm s.index.queuedEntries
  sorted : s.readyQueue.Pairwise ReadyEntry.before
  running : ∀ d, (s.runningFor d).toNat = s.index.runningTasks d

/-- The net effect of moving the task `id` from the record `r` to `r'`: only this
record changes, the ready queue holds the task exactly when it is now queued,
and its slot is taken or freed. -/
structure Moved (s s' : TaskScheduler) (id : TaskId) (r r' : TaskRecord) : Prop where
  found : s.index.get id = some r
  index : s'.index = s.index.set id r'
  taskId : r'.taskId = r.taskId
  spec : r'.spec = r.spec
  seq : r'.seq = r.seq
  queue : s'.readyQueue.Perm
    (s.readyQueue.filter (fun e => e.taskId ≠ id) ++
      if r'.state = .queued then [r'.entry] else [])
  sorted : s'.readyQueue.Pairwise ReadyEntry.before
  running : ∀ d, (s'.runningFor d).toNat + r.slot d = (s.runningFor d).toNat + r'.slot d
  quotas : s'.quotas = s.quotas

theorem accounted_new (dim : DimensionId) (policy : PreemptionPolicy)
    (leaseMs : UInt64) : Accounted (TaskScheduler.new dim policy leaseMs) where
  index := TaskIndex.wellFormed_new
  queue := List.Perm.refl _
  sorted := List.Pairwise.nil
  running d := by simp [TaskScheduler.runningFor, TaskScheduler.new, TaskIndex.runningTasks]

namespace Accounted

variable {s : TaskScheduler} {id : TaskId} {r : TaskRecord}

theorem mem_queue (h : Accounted s) {e : ReadyEntry} :
    e ∈ s.readyQueue ↔
      ∃ r, s.index.get e.taskId = some r ∧ r.state = .queued ∧ e = r.entry := by
  rw [h.queue.mem_iff, TaskIndex.mem_queuedEntries h.index]

theorem queue_split (h : Accounted s) (hr : s.index.get id = some r) :
    ∃ rest, s.readyQueue.Perm ((if r.state = .queued then [r.entry] else []) ++ rest) ∧
      (s.readyQueue.filter fun e => e.taskId ≠ id).Perm rest ∧
      ∀ r', (s.index.set id r').queuedEntries.Perm
        ((if r'.state = .queued then [r'.entry] else []) ++ rest) := by
  obtain ⟨l₁, l₂, hx, hset, hne⟩ := TaskIndex.queuedEntries_set h.index hr
  have swap : ∀ m : List ReadyEntry, (l₁ ++ m ++ l₂).Perm (m ++ (l₁ ++ l₂)) := by
    intro m
    rw [← List.append_assoc]
    exact List.perm_append_comm.append_right l₂
  have hperm := h.queue.trans (hx ▸ swap _)
  refine ⟨l₁ ++ l₂, hperm, ?_, fun r' => hset r' ▸ swap _⟩
  refine (hperm.filter _).trans ?_
  have hown : (if r.state = .queued then [r.entry] else []).filter
      (fun e => decide (e.taskId ≠ id)) = [] := by
    have hid : r.entry.taskId = id := h.index.keyed hr
    split <;> simp [hid]
  have hrest : (l₁ ++ l₂).filter (fun e => decide (e.taskId ≠ id)) = l₁ ++ l₂ :=
    List.filter_eq_self.mpr fun e he => by simpa using hne e he
  rw [List.filter_append, hown, hrest, List.nil_append]

theorem filter_queue (h : Accounted s) (hr : s.index.get id = some r)
    (hq : r.state ≠ .queued) :
    s.readyQueue.filter (fun e => e.taskId ≠ id) = s.readyQueue := by
  refine List.filter_eq_self.mpr fun e he => ?_
  obtain ⟨t, ht, htq, -⟩ := h.mem_queue.mp he
  rw [decide_eq_true_eq]
  rintro rfl
  rw [hr] at ht
  cases ht
  exact hq htq

theorem eraseIdx_queue (h : Accounted s) {pos : ℕ} {e : ReadyEntry}
    (he : s.readyQueue[pos]? = some e) :
    (s.readyQueue.eraseIdx pos).Perm
      (s.readyQueue.filter fun f => f.taskId ≠ e.taskId) := by
  obtain ⟨hlt, hget⟩ := List.getElem?_eq_some_iff.mp he
  obtain ⟨r, hr, hq, hentry⟩ := h.mem_queue.mp (List.mem_of_getElem? he)
  obtain ⟨rest, hperm, hfilter, -⟩ := h.queue_split hr
  rw [if_pos hq, ← hentry, List.singleton_append] at hperm
  have herase : (e :: s.readyQueue.eraseIdx pos).Perm s.readyQueue :=
    hget ▸ List.getElem_cons_eraseIdx_perm hlt
  exact ((herase.trans hperm).cons_inv).trans hfilter.symm

theorem slot_le_running (h : Accounted s) (hr : s.index.get id = some r)
    (d : DimensionId) : r.slot d ≤ (s.runningFor d).toNat := by
  obtain ⟨l₁, l₂, hx, -, -⟩ := h.index.split hr
  rw [h.running, TaskIndex.runningTasks, hx, List.countP_append, List.countP_cons]
  simp only [TaskRecord.slot, decide_eq_true_eq]
  omega

theorem sortReadyQueue (h : Accounted s) : s.sortReadyQueue = s := by
  rw [TaskScheduler.sortReadyQueue, h.sorted.insertionSort_eq]

end Accounted

namespace Moved

variable {s s' : TaskScheduler} {id : TaskId} {r r' : TaskRecord}

theorem accounted (hm : Moved s s' id r r') (h : Accounted s) : Accounted s' where
  index := by
    rw [hm.index]
    exact h.index.set hm.found hm.taskId
  queue := by
    obtain ⟨rest, -, hfilter, hset⟩ := h.queue_split hm.found
    rw [hm.index]
    have hrest := hm.queue.trans (hfilter.append_right _)
    exact (hrest.trans List.perm_append_comm).trans (hset r').symm
  sorted := hm.sorted
  running d := by
    have hrun := hm.running d
    have htasks := TaskIndex.runningTasks_set h.index hm.found r' d
    have hbefore := h.running d
    rw [hm.index]
    omega

end Moved

/-! ## The elementary moves of the source -/

namespace TaskScheduler

@[simp] theorem index_setRecord (s : TaskScheduler) (id : TaskId) (r : TaskRecord) :
    (s.setRecord id r).index = s.index.set id r := rfl

@[simp] theorem index_enqueue (s : TaskScheduler) (id : TaskId) (p : TaskPriority)
    (q : ℕ) : (s.enqueue id p q).index = s.index := rfl

@[simp] theorem index_incrementRunning (s : TaskScheduler) (d : DimensionId) :
    (s.incrementRunning d).index = s.index := rfl

@[simp] theorem index_decrementRunning (s : TaskScheduler) (d : DimensionId) :
    (s.decrementRunning d).index = s.index := rfl

/-- A successful transition: the task exists, the move is allowed, and what it
does depends on the target state alone. -/
theorem transition_ok {s s' : TaskScheduler} {id : TaskId} {next : TaskState}
    {now : UInt64} (h : s.transition id next now = .ok s') :
    ∃ r, s.index.get id = some r ∧ r.state.canTransitionTo next = true ∧
      s' =
        if next = .queued then
          (s.setRecord id { r with state := next, updatedAtMs := now }).enqueue id
            r.spec.priority r.seq
        else if next = .running then
          (s.setRecord id { r with state := next, updatedAtMs := now }).incrementRunning
            r.spec.dimensionId
        else s.setRecord id { r with state := next, updatedAtMs := now } := by
  unfold transition at h
  split at h
  · cases h
  · next r hr =>
      split at h
      · next hcan =>
          refine ⟨r, hr, hcan, ?_⟩
          split_ifs at h ⊢ <;> exact (Except.ok.inj h).symm
      · cases h

theorem transition_isOk {s : TaskScheduler} {id : TaskId} {r : TaskRecord}
    (hr : s.index.get id = some r) (next : TaskState)
    (hcan : r.state.canTransitionTo next = true) (now : UInt64) :
    ∃ s', s.transition id next now = .ok s' := by
  unfold transition
  rw [hr]
  simp only [hcan, if_true]
  split_ifs <;> exact ⟨_, rfl⟩

end TaskScheduler

section Moves

variable {s : TaskScheduler} {id : TaskId} {r r' : TaskRecord}

theorem moved_enqueue (h : Accounted s) (hr : s.index.get id = some r)
    (hid : r'.taskId = r.taskId) (hspec : r'.spec = r.spec) (hseq : r'.seq = r.seq)
    (hq : r.state ≠ .queued) (hrun : r.state ≠ .running) (hq' : r'.state = .queued) :
    Moved s ((s.setRecord id r').enqueue id r.spec.priority r.seq) id r r' where
  found := hr
  index := rfl
  taskId := hid
  spec := hspec
  seq := hseq
  queue := by
    have hentry : r'.entry = ⟨r.spec.priority, r.seq, id⟩ := by
      rw [TaskRecord.entry, hspec, hseq, hid, h.index.keyed hr]
    rw [if_pos hq', h.filter_queue hr hq, hentry]
    exact List.perm_insertionSort _ _
  sorted := List.pairwise_insertionSort _ _
  running d := by
    have hrun' : r'.state ≠ .running := by simp [hq']
    rw [r.slot_of_ne_running hrun, r'.slot_of_ne_running hrun']
    rfl
  quotas := rfl

theorem moved_release (h : Accounted s) (hr : s.index.get id = some r)
    (hid : r'.taskId = r.taskId) (hspec : r'.spec = r.spec) (hseq : r'.seq = r.seq)
    (hrun : r.state = .running) (hq' : r'.state ≠ .queued) (hrun' : r'.state ≠ .running) :
    Moved s ((s.setRecord id r').decrementRunning r.spec.dimensionId) id r r' where
  found := hr
  index := rfl
  taskId := hid
  spec := hspec
  seq := hseq
  queue := by
    rw [if_neg hq', h.filter_queue hr (by simp [hrun]), List.append_nil]
    exact List.Perm.refl _
  sorted := h.sorted
  running d := by
    have hle := h.slot_le_running hr d
    rw [r.slot_of_running hrun] at hle ⊢
    rw [r'.slot_of_ne_running hrun', TaskScheduler.runningFor_decrementRunning]
    split
    · next hd =>
        subst hd
        rw [if_pos rfl] at hle ⊢
        rw [toNat_saturatingPred]
        change _ = (s.runningFor _).toNat + 0
        change (s.runningFor _).toNat - 1 + 1 = _
        omega
    · next hd =>
        rw [if_neg (Ne.symm hd)]
        rfl
  quotas := rfl

theorem moved_withdraw (hs : Accounted s) (hr : s.index.get id = some r)
    (hid : r'.taskId = r.taskId) (hspec : r'.spec = r.spec) (hseq : r'.seq = r.seq)
    (hrun : r.state ≠ .running) (hq' : r'.state ≠ .queued) (hrun' : r'.state ≠ .running) :
    Moved s { s.setRecord id r' with
        readyQueue := s.readyQueue.filter fun e => e.taskId ≠ id } id r r' where
  found := hr
  index := rfl
  taskId := hid
  spec := hspec
  seq := hseq
  queue := by
    rw [if_neg hq', List.append_nil]
  sorted := hs.sorted.filter _
  running d := by
    rw [r.slot_of_ne_running hrun, r'.slot_of_ne_running hrun']
    rfl
  quotas := rfl

theorem moved_touch (h : Accounted s) (hr : s.index.get id = some r)
    (hid : r'.taskId = r.taskId) (hspec : r'.spec = r.spec) (hseq : r'.seq = r.seq)
    (hstate : r'.state = r.state) : Moved s (s.setRecord id r') id r r' where
  found := hr
  index := rfl
  taskId := hid
  spec := hspec
  seq := hseq
  queue := by
    obtain ⟨rest, hperm, hfilter, -⟩ := h.queue_split hr
    have hentry : r'.entry = r.entry := by
      rw [TaskRecord.entry, TaskRecord.entry, hspec, hseq, hid]
    rw [hstate, hentry]
    exact (hperm.trans List.perm_append_comm).trans (hfilter.symm.append_right _)
  sorted := h.sorted
  running d := by
    rw [TaskRecord.slot, TaskRecord.slot, hstate, hspec]
    rfl
  quotas := rfl

theorem moved_handOut (h : Accounted s) (hr : s.index.get id = some r)
    (hid : r'.taskId = r.taskId) (hspec : r'.spec = r.spec) (hseq : r'.seq = r.seq)
    (hq : r.state = .queued) (hrun' : r'.state = .running) {pos : ℕ} {e : ReadyEntry}
    (hpos : s.readyQueue[pos]? = some e) (he : e.taskId = id) (r₁ : TaskRecord)
    (hslot : s.runningFor r.spec.dimensionId <
      (s.quotaFor r.spec.dimensionId).maxConcurrent) :
    Moved s
      (((({ s with readyQueue := s.readyQueue.eraseIdx pos }).setRecord id r₁).incrementRunning
        r.spec.dimensionId).setRecord id r') id r r' where
  found := hr
  index := by
    change (s.index.set id r₁).set id r' = s.index.set id r'
    rw [TaskIndex.set_set]
  taskId := hid
  spec := hspec
  seq := hseq
  queue := by
    rw [if_neg (by simp [hrun']), List.append_nil, ← he]
    exact h.eraseIdx_queue hpos
  sorted := h.sorted.sublist (List.eraseIdx_sublist _ _)
  running d := by
    have hinc := TaskScheduler.runningFor_incrementRunning s r.spec.dimensionId d
    rw [r.slot_of_ne_running (by simp [hq]), r'.slot_of_running hrun', hspec]
    change ((s.incrementRunning r.spec.dimensionId).runningFor d).toNat + 0 = _
    rw [hinc]
    split
    · next hd => rw [hd, if_pos rfl, toNat_add_one_of_lt hslot]
    · next hd => rw [if_neg (Ne.symm hd)]
  quotas := rfl

end Moves

end Scheduler

end InfinityOS
