import InfinityOS.Scheduler.Operation

/-!
# The task index

The index stores every record under its own task id and lists each id once in
insertion order; `Sequenced` adds that the sequence numbers are distinct. The
records in insertion order split around the record of any
task, and an update of that record replaces it in place. The ready entries and
the running tasks of a dimension are read off the same list.
-/

namespace InfinityOS

namespace Scheduler

def TaskRecord.entry (r : TaskRecord) : ReadyEntry :=
  ⟨r.spec.priority, r.seq, r.taskId⟩

/-- The concurrency slots of dimension `d` that a record holds: one while it
runs there. -/
def TaskRecord.slot (r : TaskRecord) (d : DimensionId) : ℕ :=
  if r.state = .running ∧ r.spec.dimensionId = d then 1 else 0

theorem TaskRecord.slot_of_ne_running {r : TaskRecord} (h : r.state ≠ .running)
    (d : DimensionId) : r.slot d = 0 := by
  simp [slot, h]

theorem TaskRecord.slot_of_running {r : TaskRecord} (h : r.state = .running)
    (d : DimensionId) : r.slot d = if r.spec.dimensionId = d then 1 else 0 := by
  simp [slot, h]

namespace TaskIndex

structure WellFormed (x : TaskIndex) : Prop where
  keyed : ∀ {id r}, x.get id = some r → r.taskId = id
  nodup : x.insertionOrder.Nodup
  mem_order : ∀ id, id ∈ x.insertionOrder ↔ (x.get id).isSome

/-- The records carry distinct positive sequence numbers up to the counter. -/
structure Sequenced (x : TaskIndex) : Prop where
  pos : ∀ {id r}, x.get id = some r → 0 < r.seq
  le : ∀ {id r}, x.get id = some r → r.seq ≤ x.seq
  inj : ∀ {i j r t}, x.get i = some r → x.get j = some t → r.seq = t.seq → i = j

def queuedEntries (x : TaskIndex) : List ReadyEntry :=
  (x.iterInOrder.filter fun r => r.state = .queued).map TaskRecord.entry

def runningTasks (x : TaskIndex) (d : DimensionId) : ℕ :=
  x.iterInOrder.countP fun r => r.state = .running ∧ r.spec.dimensionId = d

theorem wellFormed_new : TaskIndex.new.WellFormed where
  keyed h := by simp at h
  nodup := List.nodup_nil
  mem_order id := by simp [new, get]

theorem sequenced_new : TaskIndex.new.Sequenced where
  pos h := by simp at h
  le h := by simp at h
  inj h := by simp at h

theorem mem_iterInOrder {x : TaskIndex} (h : x.WellFormed) {r : TaskRecord} :
    r ∈ x.iterInOrder ↔ ∃ id, x.get id = some r := by
  rw [iterInOrder, List.mem_filterMap]
  constructor
  · rintro ⟨id, _, hr⟩
    exact ⟨id, hr⟩
  · rintro ⟨id, hr⟩
    refine ⟨id, ?_, hr⟩
    rw [h.mem_order, hr]
    rfl

theorem WellFormed.split {x : TaskIndex} (h : x.WellFormed) {id : TaskId}
    {r : TaskRecord} (hr : x.get id = some r) :
    ∃ l₁ l₂, x.iterInOrder = l₁ ++ r :: l₂ ∧
      (∀ r', (x.set id r').iterInOrder = l₁ ++ r' :: l₂) ∧
      ∀ t ∈ l₁ ++ l₂, t.taskId ≠ id := by
  have hmem : id ∈ x.insertionOrder := by
    rw [h.mem_order, hr]
    rfl
  obtain ⟨a, b, hab⟩ := List.append_of_mem hmem
  have hnodup := h.nodup
  rw [hab, List.nodup_append, List.nodup_cons] at hnodup
  obtain ⟨-, ⟨hb, -⟩, hdisj⟩ := hnodup
  have ha : id ∉ a := fun hid => hdisj id hid id (by simp) rfl
  refine ⟨a.filterMap x.get, b.filterMap x.get, ?_, ?_, ?_⟩
  · rw [iterInOrder, hab, List.filterMap_append, List.filterMap_cons, hr]
  · intro r'
    have hcongr : ∀ l : List TaskId, id ∉ l →
        l.filterMap (x.set id r').get = l.filterMap x.get := by
      intro l hl
      refine List.filterMap_congr fun i hi => ?_
      exact get_set_of_ne x r' fun h => hl (h ▸ hi)
    rw [iterInOrder, insertionOrder_set, hab, List.filterMap_append,
      List.filterMap_cons, get_set_self, hcongr a ha, hcongr b hb]
  · intro t ht
    rw [← List.filterMap_append, List.mem_filterMap] at ht
    obtain ⟨i, hi, hget⟩ := ht
    rw [h.keyed hget]
    rintro rfl
    rcases List.mem_append.mp hi with hi | hi
    · exact ha hi
    · exact hb hi

theorem WellFormed.set {x : TaskIndex} (h : x.WellFormed) {id : TaskId}
    {r r' : TaskRecord} (hr : x.get id = some r) (hid : r'.taskId = r.taskId) :
    (x.set id r').WellFormed := by
  refine ⟨?_, h.nodup, ?_⟩
  · intro i t ht
    rw [get_set] at ht
    split at ht
    · next hi =>
        cases ht
        rw [hi, hid, h.keyed hr]
    · exact h.keyed ht
  · intro i
    rw [insertionOrder_set, h.mem_order, get_set]
    split
    · next hi => rw [hi, hr]; rfl
    · rfl

theorem Sequenced.set {x : TaskIndex} (h : x.Sequenced) {id : TaskId}
    {r r' : TaskRecord} (hr : x.get id = some r) (hseq : r'.seq = r.seq) :
    (x.set id r').Sequenced := by
  -- the record read at `i` after the update has the number of one before it
  have back : ∀ {i t}, (x.set id r').get i = some t →
      ∃ u, x.get i = some u ∧ t.seq = u.seq := by
    intro i t ht
    rw [get_set] at ht
    split at ht
    · next hi =>
        cases ht
        exact ⟨r, hi ▸ hr, hseq⟩
    · exact ⟨t, ht, rfl⟩
  refine ⟨?_, ?_, ?_⟩
  · intro i t ht
    obtain ⟨u, hu, hut⟩ := back ht
    exact hut ▸ h.pos hu
  · intro i t ht
    obtain ⟨u, hu, hut⟩ := back ht
    exact hut ▸ h.le hu
  · intro i j t t' ht ht' heq
    obtain ⟨u, hu, hut⟩ := back ht
    obtain ⟨u', hu', hut'⟩ := back ht'
    exact h.inj hu hu' (by rw [← hut, ← hut', heq])

/-- The index `x'` has one record more than `x`, at the end. -/
structure Extends (x x' : TaskIndex) (id : TaskId) (r : TaskRecord) : Prop where
  new : x.get id = none
  order : x'.insertionOrder = x.insertionOrder ++ [id]
  get : ∀ i, x'.get i = if i = id then some r else x.get i

section Extends

variable {x x' : TaskIndex} {id : TaskId} {r : TaskRecord}

theorem WellFormed.notMem_order (h : x.WellFormed) (hid : x.get id = none) :
    id ∉ x.insertionOrder := by
  rw [h.mem_order, hid]
  simp

theorem Extends.iterInOrder (he : Extends x x' id r) (h : x.WellFormed) :
    x'.iterInOrder = x.iterInOrder ++ [r] := by
  have hold : x.insertionOrder.filterMap x'.get = x.iterInOrder := by
    refine List.filterMap_congr fun i hi => ?_
    rw [he.get, if_neg]
    exact fun heq => h.notMem_order he.new (heq ▸ hi)
  have hnew : x'.get id = some r := by
    rw [he.get, if_pos rfl]
  rw [TaskIndex.iterInOrder, he.order, List.filterMap_append, hold, List.filterMap_cons, hnew,
    List.filterMap_nil]

theorem Extends.wellFormed (he : Extends x x' id r) (h : x.WellFormed) (hr : r.taskId = id) :
    x'.WellFormed := by
  refine ⟨?_, ?_, ?_⟩
  · intro i t ht
    rw [he.get] at ht
    split at ht
    · next hi =>
        cases ht
        rw [hr, hi]
    · exact h.keyed ht
  · rw [he.order, List.nodup_append]
    refine ⟨h.nodup, List.nodup_singleton id, ?_⟩
    intro i hi j hj
    rw [List.mem_singleton] at hj
    rintro rfl
    exact h.notMem_order he.new (hj ▸ hi)
  · intro i
    rw [he.order, List.mem_append, List.mem_singleton, h.mem_order, he.get]
    split
    · next hi => simp [hi]
    · next hi => simp [hi]

end Extends

theorem extends_push {x : TaskIndex} {id : TaskId} (hid : x.get id = none) (spec : TaskSpec)
    (now : UInt64) :
    Extends x (x.push id spec now) id (TaskRecord.new id spec (x.seq + 1) now) :=
  ⟨hid, rfl, x.get_push id spec now⟩

theorem WellFormed.push {x : TaskIndex} (h : x.WellFormed) {id : TaskId}
    (hid : x.get id = none) (spec : TaskSpec) (now : UInt64) :
    (x.push id spec now).WellFormed :=
  (extends_push hid spec now).wellFormed h rfl

theorem Sequenced.push {x : TaskIndex} (h : x.Sequenced) (id : TaskId)
    (spec : TaskSpec) (now : UInt64) : (x.push id spec now).Sequenced := by
  have cases_get : ∀ {i t}, (x.push id spec now).get i = some t →
      (i = id ∧ t.seq = x.seq + 1) ∨ x.get i = some t := by
    intro i t ht
    rw [get_push] at ht
    split at ht
    · next hi =>
        cases ht
        exact .inl ⟨hi, rfl⟩
    · exact .inr ht
  refine ⟨?_, ?_, ?_⟩
  · intro i t ht
    rcases cases_get ht with ⟨-, hseq⟩ | ht
    · omega
    · exact h.pos ht
  · intro i t ht
    change t.seq ≤ x.seq + 1
    rcases cases_get ht with ⟨-, hseq⟩ | ht
    · omega
    · have := h.le ht
      omega
  · intro i j t t' ht ht' heq
    rcases cases_get ht with ⟨rfl, hseq⟩ | hold <;>
      rcases cases_get ht' with ⟨rfl, hseq'⟩ | hold'
    · rfl
    · have := h.le hold'
      omega
    · have := h.le hold
      omega
    · exact h.inj hold hold' heq

theorem countP_set {x : TaskIndex} (h : x.WellFormed) {id : TaskId} {r : TaskRecord}
    (hr : x.get id = some r) (r' : TaskRecord) (p : TaskRecord → Bool) :
    (x.set id r').iterInOrder.countP p + (if p r = true then 1 else 0) =
      x.iterInOrder.countP p + if p r' = true then 1 else 0 := by
  obtain ⟨l₁, l₂, hx, hset, -⟩ := h.split hr
  rw [hset r', hx]
  simp only [List.countP_append, List.countP_cons]
  omega

theorem runningTasks_set {x : TaskIndex} (h : x.WellFormed) {id : TaskId}
    {r : TaskRecord} (hr : x.get id = some r) (r' : TaskRecord) (d : DimensionId) :
    (x.set id r').runningTasks d + r.slot d = x.runningTasks d + r'.slot d := by
  have hcount := countP_set h hr r' fun r => r.state = .running ∧ r.spec.dimensionId = d
  simpa only [runningTasks, TaskRecord.slot, decide_eq_true_eq] using hcount

theorem queuedEntries_set {x : TaskIndex} (h : x.WellFormed) {id : TaskId}
    {r : TaskRecord} (hr : x.get id = some r) :
    ∃ l₁ l₂, x.queuedEntries =
        l₁ ++ (if r.state = .queued then [r.entry] else []) ++ l₂ ∧
      (∀ r', (x.set id r').queuedEntries =
        l₁ ++ (if r'.state = .queued then [r'.entry] else []) ++ l₂) ∧
      ∀ e ∈ l₁ ++ l₂, e.taskId ≠ id := by
  obtain ⟨l₁, l₂, hx, hset, hne⟩ := h.split hr
  refine ⟨(l₁.filter fun r => r.state = .queued).map TaskRecord.entry,
    (l₂.filter fun r => r.state = .queued).map TaskRecord.entry, ?_, ?_, ?_⟩
  · rw [queuedEntries, hx]
    by_cases hq : r.state = .queued <;> simp [hq]
  · intro r'
    rw [queuedEntries, hset r']
    by_cases hq : r'.state = .queued <;> simp [hq]
  · intro e he
    rw [← List.map_append, ← List.filter_append, List.mem_map] at he
    obtain ⟨t, ht, rfl⟩ := he
    exact hne t (List.mem_of_mem_filter ht)

theorem mem_queuedEntries {x : TaskIndex} (h : x.WellFormed) {e : ReadyEntry} :
    e ∈ x.queuedEntries ↔
      ∃ r, x.get e.taskId = some r ∧ r.state = .queued ∧ e = r.entry := by
  rw [queuedEntries, List.mem_map]
  constructor
  · rintro ⟨r, hr, rfl⟩
    rw [List.mem_filter, mem_iterInOrder h] at hr
    obtain ⟨⟨id, hget⟩, hq⟩ := hr
    refine ⟨r, ?_, by simpa using hq, rfl⟩
    rw [show r.entry.taskId = id from h.keyed hget, hget]
  · rintro ⟨r, hget, hq, he⟩
    refine ⟨r, ?_, he.symm⟩
    rw [List.mem_filter, mem_iterInOrder h]
    exact ⟨⟨e.taskId, hget⟩, by simpa using hq⟩

end TaskIndex

end Scheduler

end InfinityOS
