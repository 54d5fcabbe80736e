import InfinityOS.Graph.Cycle
import InfinityOS.Graph.Integrity

/-!
# The two cycle analyses agree

On a schema whose links join its nodes both analyses decide acyclicity. Links to
absent nodes can only come from a patch, and then the analyses differ:
`topological_order` counts a target that is not a node, `detect_cycle` passes
over a source that is not a node.
-/

namespace InfinityOS

namespace Graph

open Transition

/-- Both analyses accept the schema, or both reject it. -/
def AnalysesAgree (s : FlowGraphSchema) : Prop :=
  (∃ order, topologicalOrder s = .ok (.ok order)) ↔ detectCycle s = .ok (.ok ())

theorem analysesAgree_of_linksJoinNodes {s : FlowGraphSchema} (h : LinksJoinNodes s) :
    AnalysesAgree s := by
  have hsearch := detectCycle_ok_iff s fun l hl => (h l hl).1
  exact (topologicalOrder_ok_iff s h).trans hsearch.symm

/-- A patch that is applied adds links between nodes only. -/
def PatchesJoinNodes (g : FlowGraph) : Edit → Prop
  | .applyPatch patch => (g.applyPatch patch).1 = .ok () →
      AlongOps (AddsGoodLink EndpointsExist) g.schema patch.ops
  | _ => True

theorem keepsLinks_of_patchesJoinNodes {g : FlowGraph} (h : AllLinks EndpointsExist g.schema)
    {edit : Edit} (hedit : PatchesJoinNodes g edit) : KeepsLinks EndpointsExist g edit := by
  cases edit with
  | addNode node =>
      intro l hl _
      have hkeep : ∀ v, g.schema.nodes.contains v = true →
          (g.schema.putNode node).nodes.contains v = true := by
        intro v hv
        rw [contains_iff_portsOf] at hv ⊢
        rw [portsOf_putNode]
        split
        · rfl
        · exact hv
      exact ⟨hkeep _ (h l hl).1, hkeep _ (h l hl).2⟩
  | applyPatch patch => exact hedit
  | _ => trivial

/-- In every run whose patches add links between nodes only, the two analyses
agree. -/
theorem analyses_agree (graphId : Uuid) (dim : DimensionId) (edits : List Edit)
    (hedits : Along PatchesJoinNodes FlowGraph.step (FlowGraph.new graphId dim) edits) :
    AnalysesAgree (final FlowGraph.step (FlowGraph.new graphId dim) edits).schema := by
  apply analysesAgree_of_linksJoinNodes
  refine invariant_final (fun g => AllLinks EndpointsExist g.schema) (fun g edit h hedit => ?_)
    ?_ hedits
  · exact h.step endpointRule_endpointsExist (keepsLinks_of_patchesJoinNodes h hedit)
  · exact allLinks_final endpointRule_endpointsExist graphId dim [] trivial

theorem analyses_agree_sample :
    AnalysesAgree (final FlowGraph.step (FlowGraph.new 1 7)
      [.addNode (sampleNode 2), .addNode (sampleNode 3),
       .applyPatch (.new 5 "agent" 0 [.addLink (Link.new 4 2 11 3 10)])]).schema := by
  refine analyses_agree 1 7 _ ⟨trivial, trivial, fun _ => ⟨?_, fun _ _ => trivial⟩, trivial⟩
  constructor
  · decide
  · decide

/-- A patch links an absent node to a node: `topological_order` reports a cycle
and `detect_cycle` does not. -/
theorem analyses_disagree :
    ¬ AnalysesAgree (final FlowGraph.step (FlowGraph.new 1 7)
      [.addNode (sampleNode 3),
       .applyPatch (.new 5 "agent" 0 [.addLink (Link.new 4 9 11 3 10)])]).schema := by
  intro h
  have hsearch : detectCycle (final FlowGraph.step (FlowGraph.new 1 7)
      [.addNode (sampleNode 3),
       .applyPatch (.new 5 "agent" 0 [.addLink (Link.new 4 9 11 3 10)])]).schema =
      .ok (.ok ()) := by decide
  obtain ⟨order, horder⟩ := h.mpr hsearch
  have hcycle : topologicalOrder (final FlowGraph.step (FlowGraph.new 1 7)
      [.addNode (sampleNode 3),
       .applyPatch (.new 5 "agent" 0 [.addLink (Link.new 4 9 11 3 10)])]).schema =
      .ok (.error (.cycleDetected [3])) := by decide
  rw [hcycle] at horder
  cases horder

end Graph

end InfinityOS
