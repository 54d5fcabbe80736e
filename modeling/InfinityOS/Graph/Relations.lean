import InfinityOS.Graph.ExecutionStates

/-!
# Relations between nodes

`add_relation` requires both endpoints, but no way of removing a node looks at the
relations. Every relation joins two nodes for as long as no node is removed, directly or
for good by a patch, that a stored relation still names.
-/

namespace InfinityOS

namespace Graph

open Transition

/-- A call of the graph's editing interface, with the removal of relations. -/
inductive RelationCall where
  | edit (edit : Edit)
  | removeRelation (id : Uuid)

inductive RelationAnswer where
  | edited (answer : EditAnswer)
  | relation (result : Except FlowGraphError NodeRelation)

def FlowGraph.stepRelation (g : FlowGraph) : RelationCall → RelationAnswer × FlowGraph
  | .edit edit => let r := g.step edit; (.edited r.1, r.2)
  | .removeRelation id => let r := g.removeRelation id; (.relation r.1, r.2)

def FlowGraphSchema.Relates (s : FlowGraphSchema) (r : NodeRelation) : Prop :=
  ∃ id : Uuid, s.relations[id]? = some r

/-- Both endpoints of every stored relation are nodes. -/
def RelationsJoinNodes (g : FlowGraph) : Prop :=
  ∀ r, g.schema.Relates r →
    g.schema.nodes.contains r.fromNode = true ∧ g.schema.nodes.contains r.toNode = true

/-- No node is removed that a stored relation names: none by `remove_node`, and none by a
successful patch whose last operation on it removes it. -/
def SparesEndpoints (g : FlowGraph) : RelationCall → Prop
  | .edit (.removeNode id) => ∀ r, g.schema.Relates r → r.fromNode ≠ id ∧ r.toNode ≠ id
  | .edit (.applyPatch patch) => (g.applyPatch patch).1 = .ok () →
      ∀ r, g.schema.Relates r → presentAfter r.fromNode true patch.ops = true ∧
        presentAfter r.toNode true patch.ops = true
  | _ => True

section Step

variable {g g' : FlowGraph}

theorem RelationsJoinNodes.mono (h : RelationsJoinNodes g)
    (hnodes : ∀ v, g.schema.nodes.contains v = true → g'.schema.nodes.contains v = true)
    (hrelations : ∀ r, g'.schema.Relates r → g.schema.Relates r) : RelationsJoinNodes g' := by
  intro r hr
  obtain ⟨hfrom, hto⟩ := h r (hrelations r hr)
  exact ⟨hnodes _ hfrom, hnodes _ hto⟩

theorem RelationsJoinNodes.dropNode_iff (h : RelationsJoinNodes g) {id : Uuid}
    (hschema : g'.schema = g.schema.dropNode id) :
    RelationsJoinNodes g' ↔ ∀ r, g.schema.Relates r → r.fromNode ≠ id ∧ r.toNode ≠ id := by
  have hafter : ∀ v, g'.schema.nodes.contains v = true ↔
      v ≠ id ∧ g.schema.nodes.contains v = true := by
    intro v
    rw [hschema, contains_dropNode]
    by_cases hv : v = id
    · simp [hv]
    · simp [hv, Ne.symm hv]
  have hstored : ∀ r, g'.schema.Relates r ↔ g.schema.Relates r := by
    intro r
    rw [hschema]
    exact Iff.rfl
  constructor
  · intro hjoin r hr
    obtain ⟨hfrom, hto⟩ := hjoin r ((hstored r).mpr hr)
    exact ⟨((hafter _).mp hfrom).1, ((hafter _).mp hto).1⟩
  · intro hspares r hr
    have hold := (hstored r).mp hr
    obtain ⟨hfrom, hto⟩ := h r hold
    obtain ⟨hfromNe, htoNe⟩ := hspares r hold
    exact ⟨(hafter _).mpr ⟨hfromNe, hfrom⟩, (hafter _).mpr ⟨htoNe, hto⟩⟩

theorem RelationsJoinNodes.endpoint_ne (h : RelationsJoinNodes g) {id : Uuid}
    (hget : g.schema.nodes[id]? = none) {r : NodeRelation} (hr : g.schema.Relates r) :
    r.fromNode ≠ id ∧ r.toNode ≠ id := by
  have hid : g.schema.nodes.contains id = false := by
    rw [Std.ExtTreeMap.contains_eq_isSome_getElem?, hget]
    rfl
  obtain ⟨hfrom, hto⟩ := h r hr
  constructor
  · rintro rfl
    rw [hid] at hfrom
    cases hfrom
  · rintro rfl
    rw [hid] at hto
    cases hto

theorem RelationsJoinNodes.removeRelation (h : RelationsJoinNodes g) (id : Uuid) :
    RelationsJoinNodes (g.removeRelation id).2 := by
  unfold FlowGraph.removeRelation
  split
  · exact h
  · refine h.mono (fun _ hv => hv) ?_
    rintro r ⟨i, hr⟩
    rw [Maps.getElem?_erase_ite] at hr
    split at hr
    · cases hr
    · exact ⟨i, hr⟩

theorem RelationsJoinNodes.applyOps_iff (h : RelationsJoinNodes g) {ops : List GraphPatchOp}
    (hok : g.schema.applyOps ops = .ok g'.schema) :
    RelationsJoinNodes g' ↔ ∀ r, g.schema.Relates r →
      presentAfter r.fromNode true ops = true ∧ presentAfter r.toNode true ops = true := by
  obtain ⟨hnodes, hrelations⟩ := applyOps_nodes hok
  -- an endpoint was there before the patch
  have hafter : ∀ v, g.schema.nodes.contains v = true →
      g'.schema.nodes.contains v = presentAfter v true ops := by
    intro v hv
    rw [hnodes, hv]
  have hstored : ∀ r, g'.schema.Relates r ↔ g.schema.Relates r := by
    intro r
    rw [FlowGraphSchema.Relates, FlowGraphSchema.Relates, hrelations]
  constructor
  · intro hjoin r hr
    obtain ⟨hfrom, hto⟩ := h r hr
    rw [← hafter _ hfrom, ← hafter _ hto]
    exact hjoin r ((hstored r).mpr hr)
  · intro hspares r hr
    have hold := (hstored r).mp hr
    obtain ⟨hfrom, hto⟩ := h r hold
    rw [hafter _ hfrom, hafter _ hto]
    exact hspares r hold

theorem RelationsJoinNodes.edit (h : RelationsJoinNodes g) (edit : Edit) :
    RelationsJoinNodes (g.step edit).2 ↔ SparesEndpoints g (.edit edit) := by
  have hcase := g.editCase edit
  generalize (g.step edit).2 = g' at hcase ⊢
  cases hcase with
  | addedNode node =>
      refine iff_of_true (h.mono (fun v hv => ?_) fun _ hr => hr) trivial
      rw [contains_putNode, hv, ite_self]
  | missingNode id hget => exact iff_of_true h fun r hr => h.endpoint_ne hget hr
  | removedNode id node hget => exact h.dropNode_iff rfl
  | refusedLink link => exact iff_of_true h trivial
  | addedLink link hcheck => exact iff_of_true h trivial
  | missingLink id => exact iff_of_true h trivial
  | removedLink id => exact iff_of_true h trivial
  | addedGroup group => exact iff_of_true h trivial
  | refusedRelation relation => exact iff_of_true h trivial
  | addedRelation relation hfrom hto =>
      refine iff_of_true ?_ trivial
      rintro r ⟨i, hr⟩
      rw [Maps.getElem?_insert_ite] at hr
      split at hr
      · obtain rfl := Option.some.inj hr
        exact ⟨hfrom, hto⟩
      · exact h r ⟨i, hr⟩
  | failedPatch patch hfail => exact iff_of_true h fun hsuccess => absurd hsuccess hfail
  | patched patch working hsuccess hok =>
      rw [h.applyOps_iff hok]
      exact ⟨fun hspares _ => hspares, fun hspares => hspares hsuccess⟩

theorem RelationsJoinNodes.step (h : RelationsJoinNodes g) (call : RelationCall) :
    RelationsJoinNodes (g.stepRelation call).2 ↔ SparesEndpoints g call := by
  cases call with
  | removeRelation id => exact iff_of_true (h.removeRelation id) trivial
  | edit edit => exact h.edit edit

end Step

/-- The runs in which every relation joins two nodes in every state are those that never
remove a node that a stored relation names. -/
theorem relationsJoinNodes_iff (graphId : Uuid) (dim : DimensionId)
    (calls : List RelationCall) :
    (∀ made, made <+: calls → RelationsJoinNodes
        (final FlowGraph.stepRelation (FlowGraph.new graphId dim) made)) ↔
      Along SparesEndpoints FlowGraph.stepRelation (FlowGraph.new graphId dim) calls := by
  refine forall_reached_iff_along RelationsJoinNodes (fun g call h => h.step call) calls ?_
  rintro r ⟨id, hr⟩
  change (∅ : BTreeMap Uuid NodeRelation)[id]? = some r at hr
  simp at hr

/-- A relation outlives the node it starts from. -/
theorem removed_endpoint :
    ¬ RelationsJoinNodes (final FlowGraph.stepRelation (FlowGraph.new 1 7)
      [.edit (.addNode (sampleNode 2)), .edit (.addNode (sampleNode 3)),
       .edit (.addRelation ⟨4, 2, 3, .dependsOn, none, ∅⟩), .edit (.removeNode 2)]) := by
  intro h
  have hends := h ⟨4, 2, 3, .dependsOn, none, ∅⟩ ⟨4, rfl⟩
  revert hends
  decide

end Graph

end InfinityOS
