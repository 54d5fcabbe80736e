import InfinityOS.Graph.Integrity

/-!
# The nodes of a patch and the execution states

Whether a node is there after the operations of a patch is decided by the last of them
that adds or removes it. The map of execution states is written by `add_node` and
`remove_node` but not by `apply_patch`, so it has the ids of the nodes as its keys as
long as every patch leaves the set of node ids as it was.
-/

namespace InfinityOS

namespace Graph

open Transition

/-- What an operation makes of the node `v`: there, gone, or as before. -/
def GraphPatchOp.presence (v : Uuid) : GraphPatchOp → Option Bool
  | addNode node => if node.id = v then some true else none
  | removeNode id => if id = v then some false else none
  | _ => none

/-- Whether `v` is there after the operations, from whether it was there before. -/
def presentAfter (v : Uuid) (before : Bool) (ops : List GraphPatchOp) : Bool :=
  ops.foldl (fun b op => (op.presence v).getD b) before

theorem presentAfter_cons (v : Uuid) (before : Bool) (op : GraphPatchOp)
    (ops : List GraphPatchOp) :
    presentAfter v before (op :: ops) = presentAfter v ((op.presence v).getD before) ops :=
  rfl

section Operations

variable {s s' : FlowGraphSchema}

theorem contains_putNode (s : FlowGraphSchema) (node : GraphNode) (v : Uuid) :
    (s.putNode node).nodes.contains v = if node.id = v then true else s.nodes.contains v := by
  rw [FlowGraphSchema.putNode, Std.ExtTreeMap.contains_insert]
  by_cases h : node.id = v
  · simp [h]
  · simp [h]

theorem contains_dropNode (s : FlowGraphSchema) (id v : Uuid) :
    (s.dropNode id).nodes.contains v = if id = v then false else s.nodes.contains v := by
  rw [FlowGraphSchema.dropNode, Std.ExtTreeMap.contains_erase]
  by_cases h : id = v
  · simp [h]
  · simp [h]

theorem updateNode_frame {id : Uuid} {f : GraphNode → GraphNode}
    (hok : s.updateNode id f = .ok s') :
    (∀ v, s'.nodes.contains v = s.nodes.contains v) ∧ s'.relations = s.relations := by
  unfold FlowGraphSchema.updateNode at hok
  split at hok
  · cases hok
  · next node hget =>
      obtain rfl := Except.ok.inj hok
      refine ⟨fun v => ?_, rfl⟩
      rw [Std.ExtTreeMap.contains_insert]
      by_cases h : id = v
      · subst h
        simp [Std.ExtTreeMap.contains_eq_isSome_getElem?, hget]
      · simp [h]

theorem updateGroup_frame {id : Uuid} {f : Group → Group}
    (hok : s.updateGroup id f = .ok s') : s'.nodes = s.nodes ∧ s'.relations = s.relations := by
  unfold FlowGraphSchema.updateGroup at hok
  split at hok
  · cases hok
  · obtain rfl := Except.ok.inj hok
    exact ⟨rfl, rfl⟩

theorem applyOpToSchema_nodes {op : GraphPatchOp} (hok : s.applyOpToSchema op = .ok s') :
    (∀ v, s'.nodes.contains v = (op.presence v).getD (s.nodes.contains v)) ∧
      s'.relations = s.relations := by
  cases op with
  | addNode node =>
      obtain ⟨-, rfl⟩ := ok_of_refused hok
      refine ⟨fun v => ?_, rfl⟩
      rw [contains_putNode, GraphPatchOp.presence]
      split <;> rfl
  | removeNode id =>
      obtain rfl := ok_of_required hok
      refine ⟨fun v => ?_, rfl⟩
      rw [contains_dropNode, GraphPatchOp.presence]
      split <;> rfl
  | updateNodeLabel id newLabel => exact updateNode_frame hok
  | updateNodeParams id params => exact updateNode_frame hok
  | moveNode id position => exact updateNode_frame hok
  | addLink link =>
      obtain ⟨-, rfl⟩ := ok_of_refused hok
      exact ⟨fun _ => rfl, rfl⟩
  | removeLink id =>
      obtain rfl := ok_of_required hok
      exact ⟨fun _ => rfl, rfl⟩
  | addGroup group =>
      obtain ⟨-, rfl⟩ := ok_of_refused hok
      exact ⟨fun _ => rfl, rfl⟩
  | removeGroup id =>
      obtain rfl := ok_of_required hok
      exact ⟨fun _ => rfl, rfl⟩
  | addNodeToGroup nodeId groupId =>
      obtain ⟨hnodes, hrelations⟩ := updateGroup_frame hok
      exact ⟨fun v => by rw [hnodes]; rfl, hrelations⟩
  | removeNodeFromGroup nodeId groupId =>
      obtain ⟨hnodes, hrelations⟩ := updateGroup_frame hok
      exact ⟨fun v => by rw [hnodes]; rfl, hrelations⟩
  | addSubgraph subgraph =>
      obtain ⟨-, rfl⟩ := ok_of_refused hok
      exact ⟨fun _ => rfl, rfl⟩
  | removeSubgraph id =>
      obtain rfl := ok_of_required hok
      exact ⟨fun _ => rfl, rfl⟩

theorem applyOps_nodes {ops : List GraphPatchOp} (hok : s.applyOps ops = .ok s') :
    (∀ v, s'.nodes.contains v = presentAfter v (s.nodes.contains v) ops) ∧
      s'.relations = s.relations := by
  induction ops generalizing s with
  | nil =>
      obtain rfl := Except.ok.inj hok
      exact ⟨fun _ => rfl, rfl⟩
  | cons op ops ih =>
      rw [FlowGraphSchema.applyOps, List.foldlM_cons] at hok
      cases hop : s.applyOpToSchema op with
      | error e =>
          rw [hop] at hok
          cases hok
      | ok m =>
          rw [hop] at hok
          obtain ⟨hnodes, hrelations⟩ := applyOpToSchema_nodes hop
          obtain ⟨hrest, hkept⟩ := ih hok
          refine ⟨fun v => ?_, hkept.trans hrelations⟩
          rw [hrest, hnodes, presentAfter_cons]

end Operations

/-! ## Execution states -/

/-- The ids with an execution state are those of the nodes. -/
def StatesMatch (g : FlowGraph) : Prop :=
  ∀ id, g.executionStates.contains id = g.schema.nodes.contains id

/-- A patch that succeeds leaves each id that it adds or removes as it found it. -/
def SettlesNodes (g : FlowGraph) : Edit → Prop
  | .applyPatch patch => (g.applyPatch patch).1 = .ok () →
      ∀ id, presentAfter id (g.schema.nodes.contains id) patch.ops =
        g.schema.nodes.contains id
  | _ => True

theorem StatesMatch.step {g : FlowGraph} (h : StatesMatch g) (edit : Edit) :
    StatesMatch (g.step edit).2 ↔ SettlesNodes g edit := by
  have hcase := g.editCase edit
  generalize (g.step edit).2 = g' at hcase ⊢
  cases hcase with
  | addedNode node =>
      refine iff_of_true (fun id => ?_) trivial
      rw [FlowGraphSchema.putNode, Std.ExtTreeMap.contains_insert,
        Std.ExtTreeMap.contains_insert, h id]
  | missingNode id hget => exact iff_of_true h trivial
  | removedNode id node hget =>
      refine iff_of_true (fun v => ?_) trivial
      rw [Std.ExtTreeMap.contains_erase, h v, FlowGraphSchema.dropNode,
        Std.ExtTreeMap.contains_erase]
  | refusedLink link => exact iff_of_true h trivial
  | addedLink link hcheck => exact iff_of_true h trivial
  | missingLink id => exact iff_of_true h trivial
  | removedLink id => exact iff_of_true h trivial
  | addedGroup group => exact iff_of_true h trivial
  | refusedRelation relation => exact iff_of_true h trivial
  | addedRelation relation hfrom hto => exact iff_of_true h trivial
  | failedPatch patch hfail => exact iff_of_true h fun hsuccess => absurd hsuccess hfail
  | patched patch working hsuccess hok =>
      have hnodes := (applyOps_nodes hok).1
      constructor
      · intro hmatch _ id
        have hid : g.executionStates.contains id = working.nodes.contains id := hmatch id
        rw [← hnodes, ← hid, h id]
      · intro hsettles id
        change g.executionStates.contains id = working.nodes.contains id
        rw [hnodes, hsettles hsuccess id, h id]

/-- The runs in which the execution states belong to the nodes in every state are those
whose successful patches leave the set of node ids as it was. -/
theorem statesMatch_iff (graphId : Uuid) (dim : DimensionId) (edits : List Edit) :
    (∀ made, made <+: edits →
        StatesMatch (final FlowGraph.step (FlowGraph.new graphId dim) made)) ↔
      Along SettlesNodes FlowGraph.step (FlowGraph.new graphId dim) edits := by
  refine forall_reached_iff_along StatesMatch (fun g edit h => h.step edit) edits ?_
  intro id
  simp [FlowGraph.new, FlowGraphSchema.new]

/-- A node added by a patch has no execution state. -/
theorem patched_node_without_state :
    ¬ StatesMatch (final FlowGraph.step (FlowGraph.new 1 7)
      [.applyPatch (.new 5 "agent" 0 [.addNode (sampleNode 2)])]) := by
  intro h
  have hnode := h 2
  revert hnode
  decide

end Graph

end InfinityOS
