import InfinityOS.Graph.Order
import InfinityOS.Paths.Release

/-!
# The order within the layers

Kahn's loop emits the ids in the order in which they are released, and ids released by one
id by increasing value. Such an order is determined by the node ids and the pairs of joined
nodes. It goes by depth, but in a layer the ids follow the ids that release them.
-/

namespace InfinityOS

namespace Graph

open Paths

instance : Std.Asymm fun a b : Uuid => a < b :=
  ⟨fun _ _ => BitVec.lt_asymm⟩

instance : Std.Trichotomous fun a b : Uuid => a < b :=
  ⟨fun _ _ h h' => BitVec.le_antisymm (BitVec.not_lt.mp h') (BitVec.not_lt.mp h)⟩

theorem pairwise_lt_insertionSort {batch : List Uuid} (h : batch.Nodup) :
    (batch.insertionSort (· ≤ ·)).Pairwise fun a b : Uuid => a < b := by
  have htotal : Std.Total fun a b : Uuid => a ≤ b := ⟨BitVec.le_total⟩
  have htrans : IsTrans Uuid fun a b : Uuid => a ≤ b := ⟨fun _ _ _ => BitVec.le_trans⟩
  have hle := List.pairwise_insertionSort (fun a b : Uuid => a ≤ b) batch
  have hne : (batch.insertionSort (· ≤ ·)).Nodup :=
    (List.perm_insertionSort _ _).nodup_iff.mpr h
  exact (hle.and hne).imp fun ⟨hab, hne⟩ =>
    BitVec.not_le.mp fun hba => hne (BitVec.le_antisymm hab hba)

theorem Emitting.ready_iff {s : FlowGraphSchema} {inDegree : BTreeMap Uuid ℕ}
    {queue order : List Uuid} (h : Emitting s inDegree queue order) (v : Uuid) :
    v ∈ order ++ queue ↔ Known s v ∧ Ready (Joins s) order v := by
  rw [h.ready, pendingDegree_eq_zero]
  rfl

/-- The loop keeps the ids in the order of their release. -/
theorem kahnLoop_released {s : FlowGraphSchema} (fuel : ℕ) {inDegree : BTreeMap Uuid ℕ}
    {queue order result : List Uuid} (h : Emitting s inDegree queue order)
    (hreleased : (order ++ queue).Pairwise (Precedes (Joins s) (· < ·) order))
    (hrun : kahnLoop (adjacencyList s) fuel inDegree queue order = .ok result) :
    result.Pairwise (Precedes (Joins s) (· < ·) result) := by
  induction fuel generalizing inDegree queue order with
  | zero =>
      cases queue with
      | nil =>
          obtain rfl := Except.ok.inj hrun
          simpa using hreleased
      | cons node queue => cases hrun
  | succ fuel ih =>
      cases queue with
      | nil =>
          obtain rfl := Except.ok.inj hrun
          simpa using hreleased
      | cons node queue =>
          obtain ⟨d, b, hrelax, hnext⟩ := h.step
          rw [kahnLoop, hrelax] at hrun
          refine ih hnext (precedes_turn hreleased ?_ ?_ ?_) hrun
          · intro v hv
            exact ((h.ready_iff v).mp hv).2
          · intro v hv
            have hmem : v ∈ (order ++ [node]) ++ (queue ++ b.insertionSort (· ≤ ·)) := by
              simp [hv]
            obtain ⟨hknown, hready⟩ := (hnext.ready_iff v).mp hmem
            refine ⟨fun hbefore => ?_, hready⟩
            -- a batch does not repeat what is emitted or queued
            have hold : v ∈ (order ++ [node]) ++ queue := by
              simpa using (h.ready_iff v).mpr ⟨hknown, hbefore⟩
            have hnodup := hnext.nodup
            rw [← List.append_assoc] at hnodup
            exact (List.nodup_append.mp hnodup).2.2 v hold v hv rfl
          · have hbatch := (List.nodup_append.mp (List.nodup_append.mp hnext.nodup).2.1).2.1
            exact pairwise_lt_insertionSort ((List.perm_insertionSort _ _).nodup_iff.mp hbatch)

/-- On any schema the algorithm emits a release order of the known ids. -/
theorem topologicalOrder_release (s : FlowGraphSchema) :
    ∃ order, ReleaseOrder (Joins s) (· < ·) (Known s) order ∧
      topologicalOrder s =
        .ok (if order.length ≠ s.nodes.size then
          .error (.cycleDetected (s.nodes.keys.filter fun id => id ∉ order))
        else .ok order) := by
  obtain ⟨order, d, hloop, hemit⟩ := kahnLoop_initial s
  have hinitial := emitting_initial s
  have hsorted : (initialQueue (inDegrees s (adjacencyList s))).Pairwise
      fun a b : Uuid => a < b :=
    pairwise_lt_insertionSort ((List.perm_insertionSort _ _).nodup_iff.mp hinitial.nodup)
  refine ⟨order, ⟨by simpa using hemit.nodup, hemit.sources, fun v => ?_, ?_⟩,
    topologicalOrder_of_loop hloop⟩
  · simpa using hemit.ready_iff v
  · refine kahnLoop_released _ hinitial (precedes_of_nil (fun v hv => ?_) hsorted) hloop
    exact ((hinitial.ready_iff v).mp hv).2

/-! ## The order depends on the joined pairs only -/

theorem keys_congr {ν : Type} {m m' : BTreeMap Uuid ν}
    (h : ∀ v, m.contains v = m'.contains v) : m.keys = m'.keys := by
  have hperm : m.keys.Perm m'.keys := by
    rw [List.perm_ext_iff_of_nodup Std.ExtTreeMap.nodup_keys Std.ExtTreeMap.nodup_keys]
    intro v
    rw [Std.ExtTreeMap.mem_keys, Std.ExtTreeMap.mem_keys, ← Std.ExtTreeMap.contains_iff_mem,
      ← Std.ExtTreeMap.contains_iff_mem, h]
  refine hperm.eq_of_pairwise ?_ Std.ExtTreeMap.ordered_keys Std.ExtTreeMap.ordered_keys
  intro a b _ _ hab hba
  exact absurd hab (Std.OrientedCmp.not_lt_of_lt hba)

/-- Two schemas with the same node ids and the same joined pairs have the same
topological order. -/
theorem topologicalOrder_congr (s s' : FlowGraphSchema)
    (hnodes : ∀ v, s.nodes.contains v = s'.nodes.contains v)
    (hjoins : ∀ a b, Joins s a b ↔ Joins s' a b) : topologicalOrder s = topologicalOrder s' := by
  have hjoins : Joins s = Joins s' := by
    funext a b
    exact propext (hjoins a b)
  have hknown : Known s = Known s' := by
    funext v
    unfold Known
    rw [hnodes, hjoins]
  obtain ⟨order, horder, hrun⟩ := topologicalOrder_release s
  obtain ⟨order', horder', hrun'⟩ := topologicalOrder_release s'
  rw [← hjoins, ← hknown] at horder'
  have hkeys := keys_congr hnodes
  have hsize : s.nodes.size = s'.nodes.size := by
    rw [← Std.ExtTreeMap.length_keys, ← Std.ExtTreeMap.length_keys, hkeys]
  rw [hrun, hrun', horder.unique horder', hkeys, hsize]

/-- The nodes in the other order, joined by two links with other ids. -/
def doubledSchema : FlowGraphSchema :=
  ((((FlowGraphSchema.new 9 8).putNode (sampleNode 3)).putNode (sampleNode 2)).putLink
    (Link.new 6 2 11 3 10)).putLink (Link.new 5 2 12 3 14)

theorem topologicalOrder_congr_sample :
    topologicalOrder sampleSchema = topologicalOrder doubledSchema := by
  refine topologicalOrder_congr sampleSchema doubledSchema (fun v => ?_) fun a b => ?_
  · simp only [sampleSchema, doubledSchema, FlowGraphSchema.putLink, FlowGraphSchema.putNode,
      Std.ExtTreeMap.contains_insert]
    exact Bool.or_left_comm _ _ _
  · have hlinks : sampleSchema.linkList = [Link.new 4 2 11 3 10] := by decide
    have hdoubled : doubledSchema.linkList =
        [Link.new 5 2 12 3 14, Link.new 6 2 11 3 10] := by decide
    simp [Joins, hlinks, hdoubled, Link.new]

/-! ## The order goes by depth -/

/-- For an acyclic schema whose links join its nodes the order goes through the layers. It
goes through each layer by increasing id exactly if, of two ids of one layer, the greater
has on the layer above a source that is no smaller than any such source of the other. -/
theorem topologicalOrder_layers_iff (s : FlowGraphSchema) (hjoin : LinksJoinNodes s)
    (hacyclic : Acyclic (Joins s)) :
    ∃ order, topologicalOrder s = .ok (.ok order) ∧ order.Perm s.nodes.keys ∧
      (order.Pairwise fun a b => depth (Joins s) a ≤ depth (Joins s) b) ∧
      (order.Pairwise (LayerOrder (Joins s) (· < ·)) ↔
        LayersReleased (Joins s) (· < ·) s.nodes.keys) := by
  obtain ⟨order, horder, hrun⟩ := topologicalOrder_release s
  have hperm : order.Perm s.nodes.keys :=
    perm_of_acyclic hjoin horder.nodup horder.complete hacyclic
  have hlength : order.length = s.nodes.size := by
    rw [hperm.length_eq, Std.ExtTreeMap.length_keys]
  refine ⟨order, ?_, hperm, ?_, ?_⟩
  · rw [hrun, if_neg (not_not.mpr hlength)]
  · rw [pairwise_iff_idxOf horder.nodup]
    intro a ha b hb hab
    exact horder.depth_le ha hb hab
  · rw [horder.sorted_iff]
    simp only [LayersReleased, hperm.mem_iff]

/-- Two roots and two nodes behind them, of which the greater one has both as sources. -/
def layeredSchema : FlowGraphSchema :=
  ((((((((FlowGraphSchema.new 9 7).putNode (sampleNode 1)).putNode (sampleNode 2)).putNode
    (sampleNode 3)).putNode (sampleNode 5)).putLink (Link.new 6 1 11 3 10)).putLink
    (Link.new 7 1 11 5 10)).putLink (Link.new 8 2 11 5 10))

theorem joins_layeredSchema (a b : Uuid) :
    Joins layeredSchema a b ↔ a = 1 ∧ b = 3 ∨ a = 1 ∧ b = 5 ∨ a = 2 ∧ b = 5 := by
  have hlinks : layeredSchema.linkList =
      [Link.new 6 1 11 3 10, Link.new 7 1 11 5 10, Link.new 8 2 11 5 10] := by
    decide
  simp [Joins, hlinks, Link.new, eq_comm]

/-- Both layers are gone through by id. -/
theorem topologicalOrder_layers_iff_sample :
    topologicalOrder layeredSchema = .ok (.ok [1, 2, 3, 5]) ∧
      [1, 2, 3, 5].Pairwise (LayerOrder (Joins layeredSchema) (· < ·)) := by
  have hjoin : LinksJoinNodes layeredSchema := by
    unfold LinksJoinNodes
    decide
  have hrun : topologicalOrder layeredSchema = .ok (.ok [1, 2, 3, 5]) := by decide
  obtain ⟨order, horder, -, -, hiff⟩ := topologicalOrder_layers_iff layeredSchema hjoin
    ((topologicalOrder_ok_iff layeredSchema hjoin).mp ⟨_, hrun⟩)
  obtain rfl : [1, 2, 3, 5] = order := Except.ok.inj (Except.ok.inj (hrun.symm.trans horder))
  refine ⟨hrun, hiff.mpr ?_⟩
  intro a _ b hb hdepth hlt p hpa hp
  have hkeys : layeredSchema.nodes.keys = [1, 2, 3, 5] := by decide
  simp only [hkeys, List.mem_cons, List.not_mem_nil, or_false] at hb
  rw [joins_layeredSchema] at hpa
  have hlast : ¬ 5 < b := by
    rcases hb with rfl | rfl | rfl | rfl <;> simp
  rcases hpa with ⟨rfl, rfl⟩ | ⟨-, rfl⟩ | ⟨-, rfl⟩
  · -- only node 5 comes after node 3, and it has the same source
    have hafter : b = 5 := by
      rcases hb with rfl | rfl | rfl | rfl <;> simp at hlt ⊢
    subst hafter
    exact ⟨1, (joins_layeredSchema 1 5).mpr (by simp), hp.trans hdepth, lt_irrefl 1⟩
  · exact absurd hlt hlast
  · exact absurd hlt hlast

/-- Two roots, of which the smaller one leads to the greater of the other nodes. -/
def crossedSchema : FlowGraphSchema :=
  (((((((FlowGraphSchema.new 9 7).putNode (sampleNode 1)).putNode (sampleNode 2)).putNode
    (sampleNode 3)).putNode (sampleNode 5)).putLink (Link.new 6 1 11 5 10)).putLink
    (Link.new 7 2 11 3 10))

theorem joins_crossedSchema (a b : Uuid) :
    Joins crossedSchema a b ↔ a = 1 ∧ b = 5 ∨ a = 2 ∧ b = 3 := by
  have hlinks : crossedSchema.linkList = [Link.new 6 1 11 5 10, Link.new 7 2 11 3 10] := by
    decide
  simp [Joins, hlinks, Link.new, eq_comm]

/-- Both are at depth 1, and the greater one comes first. -/
theorem crossed_layer :
    ¬ (LinksJoinNodes crossedSchema → Acyclic (Joins crossedSchema) →
      ∃ order, topologicalOrder crossedSchema = .ok (.ok order) ∧
        order.Pairwise (LayerOrder (Joins crossedSchema) (· < ·))) := by
  have hjoin : LinksJoinNodes crossedSchema := by
    unfold LinksJoinNodes
    decide
  have hrun : topologicalOrder crossedSchema = .ok (.ok [1, 2, 5, 3]) := by decide
  have hroot : ∀ a b, Joins crossedSchema a b → Root (Joins crossedSchema) a := by
    intro a b hab c hca
    rw [joins_crossedSchema] at hab hca
    rcases hab with ⟨rfl, -⟩ | ⟨rfl, -⟩ <;> simp at hca
  have hdepth : ∀ {a b : Uuid}, Joins crossedSchema a b → depth (Joins crossedSchema) b = 1 :=
    fun hab => depth_of_below_roots hab fun a ha => hroot a _ ha
  have hfive : depth (Joins crossedSchema) 5 = 1 :=
    hdepth ((joins_crossedSchema 1 5).mpr (.inl ⟨rfl, rfl⟩))
  have hthree : depth (Joins crossedSchema) 3 = 1 :=
    hdepth ((joins_crossedSchema 2 3).mpr (.inr ⟨rfl, rfl⟩))
  intro h
  obtain ⟨order, horder, hsorted⟩ :=
    h hjoin ((topologicalOrder_ok_iff crossedSchema hjoin).mp ⟨_, hrun⟩)
  obtain rfl : [1, 2, 5, 3] = order := Except.ok.inj (Except.ok.inj (hrun.symm.trans horder))
  have hpair : LayerOrder (Joins crossedSchema) (· < ·) 5 3 := by
    have hlast := (List.pairwise_cons.mp (List.pairwise_cons.mp hsorted).2).2
    exact (List.pairwise_cons.mp hlast).1 3 (by decide)
  rw [LayerOrder, hfive, hthree] at hpair
  revert hpair
  decide

end Graph

end InfinityOS
