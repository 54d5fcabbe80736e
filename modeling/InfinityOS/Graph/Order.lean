import InfinityOS.Graph.Analysis

/-!
# The topological order

The invariant of Kahn's loop: the in-degree of an id counts its links from
sources that are not emitted yet, the emitted and the queued ids are the known
ids without such links, and every emitted id comes after its sources. When the
queue is empty, the ids left over form a set in which everything has a
predecessor.
-/

namespace InfinityOS

namespace Graph

open Paths

/-- The value of a counter, zero where there is none. -/
def degree (inDegree : BTreeMap Uuid ℕ) (v : Uuid) : ℕ :=
  inDegree[v]?.getD 0

/-- The ids that the algorithm counts: nodes and targets of links. -/
def Known (s : FlowGraphSchema) (v : Uuid) : Prop :=
  s.nodes.contains v = true ∨ ∃ a, Joins s a v

/-- The number of links into `v` from sources outside `order`. -/
def pendingDegree (s : FlowGraphSchema) (order : List Uuid) (v : Uuid) : ℕ :=
  s.linkList.countP fun l => l.targetNode = v ∧ l.sourceNode ∉ order

theorem pendingDegree_eq_zero {s : FlowGraphSchema} {order : List Uuid} {v : Uuid} :
    pendingDegree s order v = 0 ↔ ∀ a, Joins s a v → a ∈ order := by
  rw [pendingDegree, List.countP_eq_zero]
  constructor
  · rintro h a ⟨l, hl, rfl, rfl⟩
    simpa using h l hl
  · intro h l hl
    have := h l.sourceNode
    rw [decide_eq_true_eq]
    rintro ⟨rfl, hout⟩
    exact hout (h l.sourceNode ⟨l, hl, rfl, rfl⟩)

theorem pendingDegree_append (s : FlowGraphSchema) {order : List Uuid} {node : Uuid}
    (hnode : node ∉ order) (v : Uuid) :
    pendingDegree s (order ++ [node]) v + (targetsOf s node).count v =
      pendingDegree s order v := by
  rw [count_targetsOf, pendingDegree, pendingDegree]
  induction s.linkList with
  | nil => rfl
  | cons l links ih =>
      rw [List.countP_cons, List.countP_cons, List.countP_cons, ← ih]
      by_cases hsource : l.sourceNode = node
      · by_cases htarget : l.targetNode = v
        · simp [hsource, htarget, hnode]
          omega
        · simp [hsource, htarget]
      · by_cases htarget : l.targetNode = v
        · simp [hsource, htarget]
          omega
        · simp [hsource, htarget]

/-! ## The loop over the neighbours -/

theorem degree_insert (m : BTreeMap Uuid ℕ) (k : Uuid) (n : ℕ) (v : Uuid) :
    degree (m.insert k n) v = if v = k then n else degree m v := by
  rw [degree, Maps.getElem?_insert_ite]
  split <;> rfl

theorem relax_cons {inDegree : BTreeMap Uuid ℕ} {next : Uuid}
    (hpos : degree inDegree next ≠ 0) (batch rest : List Uuid) :
    relax inDegree batch (next :: rest) =
      relax (inDegree.insert next (degree inDegree next - 1))
        (if degree inDegree next - 1 = 0 then batch ++ [next] else batch) rest := by
  rw [relax]
  exact if_neg hpos

theorem cover_tail {inDegree : BTreeMap Uuid ℕ} {next : Uuid} {rest : List Uuid}
    (hcover : ∀ v, (next :: rest).count v ≤ degree inDegree v) (v : Uuid) :
    rest.count v ≤ degree (inDegree.insert next (degree inDegree next - 1)) v := by
  have hv := hcover v
  rw [degree_insert]
  rw [List.count_cons] at hv
  split
  · next h =>
      rw [h, BEq.rfl, if_pos rfl] at hv
      rw [h]
      omega
  · omega

/-- If the counters cover the targets, no decrement underflows; each target is
counted down and joins the batch when its counter reaches zero. -/
theorem relax_spec (targets : List Uuid) (inDegree : BTreeMap Uuid ℕ) (batch : List Uuid)
    (hcover : ∀ v, targets.count v ≤ degree inDegree v) :
    ∃ d b, relax inDegree batch targets = .ok (d, batch ++ b) ∧
      (∀ v, degree d v + targets.count v = degree inDegree v) ∧ b.Nodup ∧
      ∀ v, v ∈ b ↔ v ∈ targets ∧ degree inDegree v = targets.count v := by
  induction targets generalizing inDegree batch with
  | nil => exact ⟨inDegree, [], by rw [relax, List.append_nil], by simp, List.nodup_nil, by simp⟩
  | cons next rest ih =>
      have hnext := hcover next
      rw [List.count_cons_self] at hnext
      have hpos : degree inDegree next ≠ 0 := by
        omega
      have hdeg := degree_insert inDegree next (degree inDegree next - 1)
      obtain ⟨d, b, hrelax, hcount, hnodup, hmem⟩ := ih _
        (if degree inDegree next - 1 = 0 then batch ++ [next] else batch) (cover_tail hcover)
      refine ⟨d, (if degree inDegree next - 1 = 0 then [next] else []) ++ b, ?_, ?_, ?_, ?_⟩
      · rw [relax_cons hpos, hrelax]
        split <;> simp
      · intro v
        have hv := hcount v
        rw [hdeg] at hv
        rw [List.count_cons]
        by_cases h : v = next
        · rw [if_pos h] at hv
          subst h
          simp only [BEq.rfl, if_true]
          omega
        · rw [if_neg h] at hv
          rw [if_neg (by simpa using Ne.symm h)]
          omega
      · split
        · next hlast =>
            rw [List.singleton_append, List.nodup_cons]
            refine ⟨fun hb => ?_, hnodup⟩
            -- the last link into `next` is gone, so it is not met again
            have hrest := List.count_pos_iff.mpr ((hmem next).mp hb).1
            omega
        · exact hnodup
      · intro v
        rw [List.mem_append, hmem, hdeg, List.mem_cons, List.count_cons]
        by_cases h : v = next
        · subst h
          have hzero : v ∈ rest ↔ rest.count v ≠ 0 := by
            rw [← List.count_pos_iff]
            omega
          split
          · simp
            omega
          · simp [hzero]
            omega
        · have hne : ¬ (next == v) = true := by simpa using Ne.symm h
          rw [if_neg h, if_neg hne]
          split <;> simp [h]

/-! ## The counters before the loop -/

theorem degree_foldl_raise (targets : List Uuid) (m : BTreeMap Uuid ℕ) (v : Uuid) :
    degree (targets.foldl raiseDegree m) v = degree m v + targets.count v := by
  induction targets generalizing m with
  | nil => rfl
  | cons t targets ih =>
      rw [List.foldl_cons, ih, raiseDegree, degree_insert, List.count_cons]
      by_cases h : v = t
      · subst h
        simp only [if_true, BEq.rfl]
        change degree m v + 1 + _ = _
        omega
      · rw [if_neg h, if_neg (by simpa using Ne.symm h), Nat.add_zero]

theorem isSome_foldl_raise (targets : List Uuid) (m : BTreeMap Uuid ℕ) (v : Uuid) :
    (targets.foldl raiseDegree m)[v]?.isSome ↔ m[v]?.isSome ∨ v ∈ targets := by
  induction targets generalizing m with
  | nil => simp
  | cons t targets ih =>
      rw [List.foldl_cons, ih, raiseDegree, Maps.getElem?_insert_ite, List.mem_cons]
      by_cases h : v = t
      · simp [h]
      · simp [h]

theorem degree_inDegrees (s : FlowGraphSchema) (v : Uuid) :
    degree (inDegrees s (adjacencyList s)) v = pendingDegree s [] v := by
  have hfold : ∀ (lists : List (List Uuid)) (m : BTreeMap Uuid ℕ),
      degree (lists.foldl (fun m targets => targets.foldl raiseDegree m) m) v =
        degree m v + (lists.map fun targets => targets.count v).sum := by
    intro lists
    induction lists with
    | nil => simp
    | cons targets lists ih =>
        intro m
        rw [List.foldl_cons, ih, degree_foldl_raise, List.map_cons, List.sum_cons]
        omega
  have hzero : degree (s.nodes.keys.foldl (fun m id => m.insert id 0) ∅) v = 0 :=
    getD_foldl_insert 0 _ _ (by simp) v
  rw [inDegrees, hfold, hzero, List.map_map, Nat.zero_add]
  change occurrences (adjacencyList s) v = _
  rw [occurrences_adjacencyList, pendingDegree]
  simp

theorem isSome_inDegrees (s : FlowGraphSchema) (v : Uuid) :
    (inDegrees s (adjacencyList s))[v]?.isSome ↔ Known s v := by
  have hfold : ∀ (lists : List (List Uuid)) (m : BTreeMap Uuid ℕ),
      (lists.foldl (fun m targets => targets.foldl raiseDegree m) m)[v]?.isSome ↔
        m[v]?.isSome ∨ ∃ targets ∈ lists, v ∈ targets := by
    intro lists
    induction lists with
    | nil => simp
    | cons targets lists ih =>
        intro m
        rw [List.foldl_cons, ih, isSome_foldl_raise, List.exists_mem_cons_iff, or_assoc]
  rw [inDegrees, hfold, mem_foldl_insert, Std.ExtTreeMap.mem_keys]
  have hlists : (∃ targets ∈ (adjacencyList s).toList.map Prod.snd, v ∈ targets) ↔
      ∃ a, Joins s a v := by
    constructor
    · rintro ⟨targets, htargets, hv⟩
      obtain ⟨⟨a, ts⟩, hmem, rfl⟩ := List.mem_map.mp htargets
      refine ⟨a, mem_targetsOf.mp ?_⟩
      rw [← getElem?_adjacencyList, Maps.mem_toList.mp hmem]
      exact hv
    · rintro ⟨a, ha⟩
      have hmem := mem_targetsOf.mpr ha
      rw [← getElem?_adjacencyList] at hmem
      cases hget : (adjacencyList s)[a]? with
      | none =>
          rw [hget] at hmem
          cases hmem
      | some ts =>
          rw [hget] at hmem
          exact ⟨ts, List.mem_map.mpr ⟨(a, ts), Maps.mem_toList.mpr hget, rfl⟩, hmem⟩
  rw [hlists, Known]
  simp

/-! ## The loop over the queue -/

/-- The state of the loop: what is emitted and queued has no link from a source
that is not emitted, and nothing else that is known has none. -/
structure Emitting (s : FlowGraphSchema) (inDegree : BTreeMap Uuid ℕ)
    (queue order : List Uuid) : Prop where
  nodup : (order ++ queue).Nodup
  counted : ∀ v, degree inDegree v = pendingDegree s order v
  ready : ∀ v, v ∈ order ++ queue ↔ Known s v ∧ pendingDegree s order v = 0
  sources : SourcesFirst (Joins s) order

theorem emitting_initial (s : FlowGraphSchema) :
    Emitting s (inDegrees s (adjacencyList s))
      (initialQueue (inDegrees s (adjacencyList s))) [] := by
  set m := inDegrees s (adjacencyList s) with hm
  have hperm : (initialQueue m).Perm ((m.toList.filter fun p => p.2 = 0).map Prod.fst) :=
    List.perm_insertionSort _ _
  refine ⟨?_, ?_, ?_, sourcesFirst_nil⟩
  · rw [List.nil_append, hperm.nodup_iff]
    have hkeys := Std.ExtTreeMap.nodup_keys (t := m)
    rw [← Std.ExtTreeMap.map_fst_toList_eq_keys] at hkeys
    exact hkeys.sublist (List.filter_sublist.map _)
  · exact degree_inDegrees s
  · intro v
    rw [List.nil_append, hperm.mem_iff, ← isSome_inDegrees, ← degree_inDegrees, ← hm,
      degree, List.mem_map]
    constructor
    · rintro ⟨⟨id, n⟩, hmem, rfl⟩
      rw [List.mem_filter, Maps.mem_toList, decide_eq_true_eq] at hmem
      obtain ⟨hget, hn⟩ := hmem
      dsimp only at hn
      subst hn
      rw [hget]
      exact ⟨rfl, rfl⟩
    · rintro ⟨hsome, hzero⟩
      obtain ⟨n, hn⟩ := Option.isSome_iff_exists.mp hsome
      rw [hn, Option.getD_some] at hzero
      subst hzero
      refine ⟨(v, 0), ?_, rfl⟩
      rw [List.mem_filter, Maps.mem_toList, hn]
      exact ⟨rfl, rfl⟩

theorem Emitting.step {s : FlowGraphSchema} {inDegree : BTreeMap Uuid ℕ} {node : Uuid}
    {queue order : List Uuid} (h : Emitting s inDegree (node :: queue) order) :
    ∃ d b, relax inDegree [] ((adjacencyList s)[node]?.getD []) = .ok (d, b) ∧
      Emitting s d (queue ++ b.insertionSort (· ≤ ·)) (order ++ [node]) := by
  have hnodup := h.nodup
  rw [List.nodup_append, List.nodup_cons] at hnodup
  have hnode : node ∉ order := fun hmem => hnodup.2.2 node hmem node (by simp) rfl
  have hsplit := pendingDegree_append s hnode
  have hzero : pendingDegree s order node = 0 :=
    ((h.ready node).mp (List.mem_append_right _ List.mem_cons_self)).2
  have hcover : ∀ v, (targetsOf s node).count v ≤ degree inDegree v := by
    intro v
    have := hsplit v
    rw [h.counted]
    omega
  obtain ⟨d, b, hrelax, hcount, hbnodup, hmem⟩ := relax_spec (targetsOf s node) inDegree []
    hcover
  rw [List.nil_append] at hrelax
  rw [getElem?_adjacencyList]
  refine ⟨d, b, hrelax, ?_⟩
  have hsort : (b.insertionSort (· ≤ ·)).Perm b := List.perm_insertionSort _ _
  have hperm : (order ++ [node] ++ (queue ++ b.insertionSort (· ≤ ·))).Perm
      ((order ++ node :: queue) ++ b) := by
    rw [List.append_assoc, List.singleton_append, ← List.cons_append, ← List.append_assoc]
    exact hsort.append_left _
  -- a member of the batch had a pending link, from `node`
  have hbatch : ∀ v ∈ b, pendingDegree s order v ≠ 0 := by
    intro v hv
    have hpos := List.count_pos_iff.mpr ((hmem v).mp hv).1
    have := hsplit v
    omega
  refine ⟨?_, ?_, ?_, ?_⟩
  · rw [hperm.nodup_iff, List.nodup_append]
    refine ⟨h.nodup, hbnodup, ?_⟩
    rintro v hv w hw rfl
    exact hbatch v hw ((h.ready v).mp hv).2
  · intro v
    have h₁ := hcount v
    have h₂ := hsplit v
    have h₃ := h.counted v
    omega
  · intro v
    have h₁ := hsplit v
    have h₂ := h.counted v
    rw [hperm.mem_iff, List.mem_append, h.ready, hmem, h₂]
    constructor
    · rintro (⟨hknown, hpending⟩ | ⟨htarget, hdeg⟩)
      · exact ⟨hknown, by omega⟩
      · exact ⟨.inr ⟨node, mem_targetsOf.mp htarget⟩, by omega⟩
    · rintro ⟨hknown, hpending⟩
      by_cases hold : pendingDegree s order v = 0
      · exact .inl ⟨hknown, hold⟩
      · refine .inr ⟨List.count_pos_iff.mp (by omega), by omega⟩
  · exact sourcesFirst_append_singleton h.sources (pendingDegree_eq_zero.mp hzero)

theorem kahnLoop_spec {s : FlowGraphSchema} (fuel : ℕ) {inDegree : BTreeMap Uuid ℕ}
    {queue order : List Uuid} (h : Emitting s inDegree queue order)
    (hfuel : ∀ l : List Uuid, l.Nodup → (∀ v ∈ l, Known s v) →
      l.length ≤ order.length + fuel) :
    ∃ result d, kahnLoop (adjacencyList s) fuel inDegree queue order = .ok result ∧
      Emitting s d [] result := by
  induction fuel generalizing inDegree queue order with
  | zero =>
      cases queue with
      | nil => exact ⟨order, inDegree, rfl, h⟩
      | cons node queue =>
          have hlong := hfuel _ h.nodup fun v hv => ((h.ready v).mp hv).1
          rw [List.length_append, List.length_cons] at hlong
          omega
  | succ fuel ih =>
      cases queue with
      | nil => exact ⟨order, inDegree, rfl, h⟩
      | cons node queue =>
          obtain ⟨d, b, hrelax, hnext⟩ := h.step
          have hrun : kahnLoop (adjacencyList s) (fuel + 1) inDegree (node :: queue) order =
              kahnLoop (adjacencyList s) fuel d (queue ++ b.insertionSort (· ≤ ·))
                (order ++ [node]) := by
            rw [kahnLoop, hrelax]
          rw [hrun]
          refine ih hnext fun l hl hknown => ?_
          have := hfuel l hl hknown
          rw [List.length_append, List.length_singleton]
          omega

theorem kahnLoop_initial (s : FlowGraphSchema) :
    ∃ order d, kahnLoop (adjacencyList s) (inDegrees s (adjacencyList s)).size
        (inDegrees s (adjacencyList s)) (initialQueue (inDegrees s (adjacencyList s))) [] =
          .ok order ∧ Emitting s d [] order := by
  have hsize : ∀ l : List Uuid, l.Nodup → (∀ v ∈ l, Known s v) →
      l.length ≤ (inDegrees s (adjacencyList s)).size := by
    intro l hl hknown
    rw [← Std.ExtTreeMap.length_keys]
    refine (List.subperm_of_subset hl fun v hv => ?_).length_le
    rw [Std.ExtTreeMap.mem_keys, Std.ExtTreeMap.mem_iff_isSome_getElem?, isSome_inDegrees]
    exact hknown v hv
  exact kahnLoop_spec _ (emitting_initial s) (by simpa using hsize)

theorem topologicalOrder_of_loop {s : FlowGraphSchema} {order : List Uuid}
    (hloop : kahnLoop (adjacencyList s) (inDegrees s (adjacencyList s)).size
      (inDegrees s (adjacencyList s)) (initialQueue (inDegrees s (adjacencyList s))) [] =
        .ok order) :
    topologicalOrder s =
      .ok (if order.length ≠ s.nodes.size then
        .error (.cycleDetected (s.nodes.keys.filter fun id => id ∉ order))
      else .ok order) := by
  unfold topologicalOrder
  dsimp only
  rw [hloop]
  dsimp only
  split_ifs <;> rfl

/-- What the algorithm computes on any schema: it never aborts, and the emitted
ids are the known ids all of whose sources are emitted. -/
theorem topologicalOrder_spec (s : FlowGraphSchema) :
    ∃ order, order.Nodup ∧ SourcesFirst (Joins s) order ∧
      (∀ v, v ∈ order ↔ Known s v ∧ ∀ a, Joins s a v → a ∈ order) ∧
      topologicalOrder s =
        .ok (if order.length ≠ s.nodes.size then
          .error (.cycleDetected (s.nodes.keys.filter fun id => id ∉ order))
        else .ok order) := by
  obtain ⟨order, d, hloop, hemit⟩ := kahnLoop_initial s
  refine ⟨order, by simpa using hemit.nodup, hemit.sources, fun v => ?_,
    topologicalOrder_of_loop hloop⟩
  have hready := hemit.ready v
  rwa [List.append_nil, pendingDegree_eq_zero] at hready

/-! ## Correctness -/

/-- Every link joins two nodes of the schema. -/
def LinksJoinNodes (s : FlowGraphSchema) : Prop :=
  ∀ l ∈ s.linkList, s.nodes.contains l.sourceNode = true ∧
    s.nodes.contains l.targetNode = true

theorem LinksJoinNodes.joins {s : FlowGraphSchema} (h : LinksJoinNodes s) {a b : Uuid}
    (hab : Joins s a b) : s.nodes.contains a = true ∧ s.nodes.contains b = true := by
  obtain ⟨l, hl, rfl, rfl⟩ := hab
  exact h l hl

theorem perm_of_acyclic {s : FlowGraphSchema} (h : LinksJoinNodes s) {order : List Uuid}
    (hnodup : order.Nodup)
    (hmem : ∀ v, v ∈ order ↔ Known s v ∧ ∀ a, Joins s a v → a ∈ order)
    (hacyclic : Acyclic (Joins s)) : order.Perm s.nodes.keys := by
  rw [List.perm_ext_iff_of_nodup hnodup Std.ExtTreeMap.nodup_keys]
  intro v
  rw [Std.ExtTreeMap.mem_keys, ← Std.ExtTreeMap.contains_iff_mem]
  constructor
  · intro hv
    rcases ((hmem v).mp hv).1 with hnode | ⟨a, ha⟩
    · exact hnode
    · exact (h.joins ha).2
  · intro hv
    by_contra hout
    refine not_acyclic_of_predecessors (r := Joins s)
      (l := s.nodes.keys.filter fun id => id ∉ order) (fun hnil => ?_) (fun b hb => ?_)
      hacyclic
    · have hleft : v ∈ s.nodes.keys.filter fun id => id ∉ order := by
        rw [List.mem_filter, Std.ExtTreeMap.mem_keys, ← Std.ExtTreeMap.contains_iff_mem]
        exact ⟨hv, by simpa using hout⟩
      rw [hnil] at hleft
      cases hleft
    · rw [List.mem_filter, Std.ExtTreeMap.mem_keys, ← Std.ExtTreeMap.contains_iff_mem,
        decide_eq_true_eq] at hb
      have hpred : ¬ ∀ a, Joins s a b → a ∈ order :=
        fun hall => hb.2 ((hmem b).mpr ⟨.inl hb.1, hall⟩)
      push Not at hpred
      obtain ⟨a, hab, ha⟩ := hpred
      refine ⟨a, ?_, hab⟩
      rw [List.mem_filter, Std.ExtTreeMap.mem_keys, ← Std.ExtTreeMap.contains_iff_mem]
      exact ⟨(h.joins hab).1, by simpa using ha⟩

theorem topologicalOrder_eq_ok (s : FlowGraphSchema) (h : LinksJoinNodes s) :
    ∃ order, order.Nodup ∧ SourcesFirst (Joins s) order ∧
      (∀ v, v ∈ order ↔ Known s v ∧ ∀ a, Joins s a v → a ∈ order) ∧
      (∀ e, topologicalOrder s ≠ .error e) ∧
      ∀ result, topologicalOrder s = .ok (.ok result) ↔
        order.Perm s.nodes.keys ∧ result = order := by
  obtain ⟨order, hnodup, hsources, hmem, hrun⟩ := topologicalOrder_spec s
  have hperm : order.length = s.nodes.size ↔ order.Perm s.nodes.keys := by
    rw [← Std.ExtTreeMap.length_keys]
    refine ⟨fun hlength => ?_, fun hperm => hperm.length_eq⟩
    refine (List.subperm_of_subset hnodup fun v hv => ?_).perm_of_length_le hlength.ge
    rw [Std.ExtTreeMap.mem_keys, ← Std.ExtTreeMap.contains_iff_mem]
    rcases ((hmem v).mp hv).1 with hnode | ⟨a, ha⟩
    · exact hnode
    · exact (h.joins ha).2
  refine ⟨order, hnodup, hsources, hmem, fun e he => ?_, fun result => ?_⟩
  · rw [hrun] at he
    cases he
  · rw [hrun, ← hperm]
    by_cases hlength : order.length = s.nodes.size
    · simp [hlength, eq_comm]
    · simp [hlength]

theorem LinksJoinNodes.target_mem {s : FlowGraphSchema} (h : LinksJoinNodes s)
    {order : List Uuid} (hperm : order.Perm s.nodes.keys) {a b : Uuid} (hab : Joins s a b) :
    b ∈ order := by
  rw [hperm.mem_iff, Std.ExtTreeMap.mem_keys, ← Std.ExtTreeMap.contains_iff_mem]
  exact (h.joins hab).2

theorem topologicalOrder_ok_iff (s : FlowGraphSchema) (h : LinksJoinNodes s) :
    (∃ order, topologicalOrder s = .ok (.ok order)) ↔ Acyclic (Joins s) := by
  obtain ⟨order, hnodup, hsources, hmem, -, hok⟩ := topologicalOrder_eq_ok s h
  constructor
  · rintro ⟨result, hresult⟩
    have hperm := ((hok result).mp hresult).1
    exact hsources.acyclic hnodup fun _ _ hab => h.target_mem hperm hab
  · intro hacyclic
    exact ⟨order, (hok order).mpr ⟨perm_of_acyclic h hnodup hmem hacyclic, rfl⟩⟩

/-- On a schema whose links join its nodes, `topological_order` never underflows
and always returns; it returns `Ok` exactly when the links are acyclic, and then
a permutation of the nodes in which every link leads forward. -/
theorem topologicalOrder_correct (s : FlowGraphSchema) (h : LinksJoinNodes s) :
    (∀ e, topologicalOrder s ≠ .error e) ∧
      ((∃ order, topologicalOrder s = .ok (.ok order)) ↔ Acyclic (Joins s)) ∧
      ∀ order, topologicalOrder s = .ok (.ok order) →
        order.Perm s.nodes.keys ∧
          ∀ l ∈ s.linkList, order.idxOf l.sourceNode < order.idxOf l.targetNode := by
  obtain ⟨order, hnodup, hsources, -, hrun, hok⟩ := topologicalOrder_eq_ok s h
  refine ⟨hrun, topologicalOrder_ok_iff s h, fun result hresult => ?_⟩
  obtain ⟨hperm, rfl⟩ := (hok result).mp hresult
  refine ⟨hperm, fun l hl => ?_⟩
  have hjoins : Joins s l.sourceNode l.targetNode := ⟨l, hl, rfl, rfl⟩
  exact (hsources.idxOf_lt hnodup (h.target_mem hperm hjoins) hjoins).2

def sampleNode (id : Uuid) : GraphNode :=
  { GraphNode.new id "math.add" "node" 0 with
    ports := (Std.ExtTreeMap.empty.insert 10 (PortDef.new 10 "in" .input .number)).insert 11
      (PortDef.new 11 "out" .output .number) }

def sampleSchema : FlowGraphSchema :=
  (((FlowGraphSchema.new 1 7).putNode (sampleNode 2)).putNode (sampleNode 3)).putLink
    (Link.new 4 2 11 3 10)

theorem topologicalOrder_correct_sample :
    topologicalOrder sampleSchema = .ok (.ok [2, 3]) ∧ Acyclic (Joins sampleSchema) := by
  have hjoin : LinksJoinNodes sampleSchema := by
    unfold LinksJoinNodes
    decide
  have hrun : topologicalOrder sampleSchema = .ok (.ok [2, 3]) := by decide
  exact ⟨hrun, (topologicalOrder_correct sampleSchema hjoin).2.1.mp ⟨_, hrun⟩⟩

end Graph

end InfinityOS
