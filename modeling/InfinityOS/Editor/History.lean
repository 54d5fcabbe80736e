import InfinityOS.Core.UndoRedo
import InfinityOS.Editor.NodeGraph

/-!
# The history of the node graph

The reference for undo and redo keeps the maps themselves: those before each command
that is not undone, the present one, and those that can be redone. The graph, which
keeps commands, gives the same answers and the same map in every run in which
`add_node` draws ids that are not in use.
-/

namespace InfinityOS

namespace Editor

open Transition UndoRedo

/-- One call of the reference. Only the two last ones look beyond the present map. -/
def historyStep (dimensionId : DimensionId) (h : History NodeMap) :
    NodeOp → NodeAnswer × History NodeMap
  | .addNode template name position params id =>
      let parameters := finalParameters template params
      match missingParameter template parameters with
      | some p => (.added (.error (.missingRequiredParameter 0 p.name)), h)
      | none =>
          (.added (.ok id), h.record (h.present.insert
            { id, dimensionId, templateId := template.id, name, parameters, position }))
  | .removeNode nodeId =>
      match h.present.get nodeId with
      | none => (.done (.error (.notFound nodeId)), h)
      | some _ => (.done (.ok ()), h.record (h.present.erase nodeId))
  | .updateNode nodeId updates =>
      match h.present.get nodeId with
      | none => (.done (.error (.notFound nodeId)), h)
      | some node =>
          (.done (.ok ()), h.record (h.present.insert
            { node with parameters := Parameters.extend node.parameters updates }))
  | .moveNode nodeId newPosition =>
      match h.present.get nodeId with
      | none => (.done (.error (.notFound nodeId)), h)
      | some node =>
          (.done (.ok ()), h.record (h.present.insert { node with position := newPosition }))
  | .undo =>
      match h.undo with
      | none => (.done (.error .nothingToUndo), h)
      | some h' => (.done (.ok ()), h')
  | .redo =>
      match h.redo with
      | none => (.done (.error .nothingToRedo), h)
      | some h' => (.done (.ok ()), h')

/-- An id that `add_node` draws is not the id of a stored node. -/
def DrawsFreshId (g : NodeGraph) : NodeOp → Prop
  | .addNode _ _ _ _ id => g.nodes.get id = none
  | _ => True

/-- The graph of the dimension has the present map, and its stacks lead through the
others. -/
structure Refines (dimensionId : DimensionId) (g : NodeGraph) (h : History NodeMap) :
    Prop where
  dimension : g.dimensionId = dimensionId
  tracks : Tracks NodeCommand.execute NodeCommand.inverse g.undoStack g.redoStack g.nodes h

variable {dimensionId : DimensionId} {g : NodeGraph} {h : History NodeMap}

theorem Refines.applyCommand (hr : Refines dimensionId g h) {cmd : NodeCommand} {m : NodeMap}
    (hm : cmd.execute g.nodes = m)
    (hback : cmd.inverse.execute (cmd.execute g.nodes) = g.nodes) :
    Refines dimensionId (g.applyCommand cmd) (h.record m) := by
  subst hm
  exact ⟨hr.dimension, hr.tracks.record NodeCommand.inverse_inverse hback⟩

theorem Refines.addNode (hr : Refines dimensionId g h) (template : NodeTemplate)
    (name : String) (position : Position) (params : Parameters) {id : Uuid}
    (hfresh : g.nodes.get id = none) :
    (g.step (.addNode template name position params id)).1 =
        (historyStep dimensionId h (.addNode template name position params id)).1 ∧
      Refines dimensionId (g.step (.addNode template name position params id)).2
        (historyStep dimensionId h (.addNode template name position params id)).2 := by
  simp only [NodeGraph.step, historyStep, NodeGraph.addNode]
  cases missingParameter template (finalParameters template params) with
  | some p => exact ⟨rfl, hr⟩
  | none =>
      refine ⟨rfl, hr.applyCommand ?_ (execute_inverse_add hfresh)⟩
      rw [NodeCommand.execute, hr.tracks.present, hr.dimension]

theorem Refines.removeNode (hr : Refines dimensionId g h) (nodeId : Uuid) :
    (g.step (.removeNode nodeId)).1 = (historyStep dimensionId h (.removeNode nodeId)).1 ∧
      Refines dimensionId (g.step (.removeNode nodeId)).2
        (historyStep dimensionId h (.removeNode nodeId)).2 := by
  simp only [NodeGraph.step, historyStep, NodeGraph.removeNode, ← hr.tracks.present]
  cases hget : g.nodes.get nodeId with
  | none => exact ⟨rfl, hr⟩
  | some node =>
      refine ⟨rfl, hr.applyCommand ?_ (execute_inverse_remove hget)⟩
      rw [NodeCommand.execute, NodeMap.id_of_get hget]

theorem Refines.updateNode (hr : Refines dimensionId g h) (nodeId : Uuid)
    (updates : Parameters) :
    (g.step (.updateNode nodeId updates)).1 =
        (historyStep dimensionId h (.updateNode nodeId updates)).1 ∧
      Refines dimensionId (g.step (.updateNode nodeId updates)).2
        (historyStep dimensionId h (.updateNode nodeId updates)).2 := by
  simp only [NodeGraph.step, historyStep, NodeGraph.updateNode, ← hr.tracks.present]
  cases hget : g.nodes.get nodeId with
  | none => exact ⟨rfl, hr⟩
  | some node =>
      exact ⟨rfl, hr.applyCommand (execute_update hget _ _) (execute_inverse_update hget _)⟩

theorem Refines.moveNode (hr : Refines dimensionId g h) (nodeId : Uuid)
    (newPosition : Position) :
    (g.step (.moveNode nodeId newPosition)).1 =
        (historyStep dimensionId h (.moveNode nodeId newPosition)).1 ∧
      Refines dimensionId (g.step (.moveNode nodeId newPosition)).2
        (historyStep dimensionId h (.moveNode nodeId newPosition)).2 := by
  simp only [NodeGraph.step, historyStep, NodeGraph.moveNode, ← hr.tracks.present]
  cases hget : g.nodes.get nodeId with
  | none => exact ⟨rfl, hr⟩
  | some node =>
      exact ⟨rfl, hr.applyCommand (execute_move hget _ _) (execute_inverse_move hget _)⟩

theorem Refines.undo (hr : Refines dimensionId g h) :
    (g.step .undo).1 = (historyStep dimensionId h .undo).1 ∧
      Refines dimensionId (g.step .undo).2 (historyStep dimensionId h .undo).2 := by
  obtain ⟨hdimension, htracks⟩ := hr
  obtain ⟨nodes, undoStack, redoStack, dim⟩ := g
  cases undoStack with
  | nil =>
      rw [historyStep, htracks.undo_nil]
      exact ⟨rfl, hdimension, htracks⟩
  | cons cmd undoStack =>
      obtain ⟨h', hundo, htracks'⟩ := htracks.undo NodeCommand.inverse_inverse
      rw [historyStep, hundo]
      exact ⟨rfl, hdimension, htracks'⟩

theorem Refines.redo (hr : Refines dimensionId g h) :
    (g.step .redo).1 = (historyStep dimensionId h .redo).1 ∧
      Refines dimensionId (g.step .redo).2 (historyStep dimensionId h .redo).2 := by
  obtain ⟨hdimension, htracks⟩ := hr
  obtain ⟨nodes, undoStack, redoStack, dim⟩ := g
  cases redoStack with
  | nil =>
      rw [historyStep, htracks.redo_nil]
      exact ⟨rfl, hdimension, htracks⟩
  | cons cmd redoStack =>
      obtain ⟨h', hredo, htracks'⟩ := htracks.redo NodeCommand.inverse_inverse
      rw [historyStep, hredo]
      exact ⟨rfl, hdimension, htracks'⟩

theorem Refines.step (hr : Refines dimensionId g h) (op : NodeOp) (hop : DrawsFreshId g op) :
    (g.step op).1 = (historyStep dimensionId h op).1 ∧
      Refines dimensionId (g.step op).2 (historyStep dimensionId h op).2 := by
  cases op with
  | addNode template name position params id =>
      exact hr.addNode template name position params hop
  | removeNode nodeId => exact hr.removeNode nodeId
  | updateNode nodeId updates => exact hr.updateNode nodeId updates
  | moveNode nodeId newPosition => exact hr.moveNode nodeId newPosition
  | undo => exact hr.undo
  | redo => exact hr.redo

/-- In every run from an empty graph the graph and the reference give the same answers,
have the same map at the end, and can undo and redo as often. -/
theorem undo_redo_refines (dimensionId : DimensionId) (ops : List NodeOp)
    (hops : Along DrawsFreshId NodeGraph.step (NodeGraph.new dimensionId) ops) :
    let g := final NodeGraph.step (NodeGraph.new dimensionId) ops
    let h := final (historyStep dimensionId) (.new NodeMap.empty) ops
    trace NodeGraph.step (NodeGraph.new dimensionId) ops =
        trace (historyStep dimensionId) (.new NodeMap.empty) ops ∧
      g.nodes = h.present ∧ g.undoStack.length = h.past.length ∧
      g.redoStack.length = h.future.length := by
  intro g h
  have hnew : Refines dimensionId (NodeGraph.new dimensionId) (.new NodeMap.empty) :=
    ⟨rfl, tracks_new _⟩
  obtain ⟨htrace, hr⟩ := simulation_along (R := Refines dimensionId)
    (fun g h op hr hop => hr.step op hop) hnew hops
  exact ⟨htrace, hr.tracks.present, hr.tracks.past.length_eq, hr.tracks.future.length_eq⟩

/-- A node is added, changed and removed; the last three calls are taken back, one of them
is made again, and the id of the node is used once more after its removal. -/
def editingRun : List NodeOp :=
  [.addNode ⟨9, [⟨"color", some (.string "red"), true⟩]⟩ "first" (0, 0) ∅ 1,
   .updateNode 1 ((∅ : Parameters).insert "color" (.string "blue")),
   .moveNode 1 (3, 4),
   .removeNode 1,
   .undo, .undo, .undo,
   .redo,
   .removeNode 1,
   .addNode ⟨9, []⟩ "second" (1, 1) ∅ 1]

theorem undo_redo_refines_editing :
    let g := final NodeGraph.step (NodeGraph.new 7) editingRun
    let h := final (historyStep 7) (.new NodeMap.empty) editingRun
    trace NodeGraph.step (NodeGraph.new 7) editingRun =
        trace (historyStep 7) (.new NodeMap.empty) editingRun ∧
      g.nodes = h.present ∧ g.undoStack.length = h.past.length ∧
      g.redoStack.length = h.future.length := by
  apply undo_redo_refines 7 editingRun
  refine ⟨?_, trivial, trivial, trivial, trivial, trivial, trivial, trivial, trivial, ?_, trivial⟩
  · exact Option.isNone_iff_eq_none.mp (by decide +kernel)
  · exact Option.isNone_iff_eq_none.mp (by decide +kernel)

end Editor

end InfinityOS
