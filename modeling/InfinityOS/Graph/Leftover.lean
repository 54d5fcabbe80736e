import InfinityOS.Graph.Layers

/-!
# The ids in the error of `topological_order`

When not every node is emitted, `CycleDetected` lists the nodes that are left over. These
are the nodes behind a cycle, the cycle itself included, and those behind a link from an id
that is neither a node nor a target.
-/

namespace InfinityOS

namespace Graph

open Paths Relation

theorem released_iff {s : FlowGraphSchema} {order : List Uuid}
    (h : ReleaseOrder (Joins s) (· < ·) (Known s) order) (v : Uuid) :
    v ∈ order ↔ ¬ Blocked (Joins s) (Known s) v := by
  refine h.mem_iff (l := s.nodes.keys ++ s.linkList.map Link.targetNode) ?_
  rintro v (hnode | ⟨a, l, hl, -, rfl⟩)
  · refine List.mem_append_left _ ?_
    rwa [Std.ExtTreeMap.mem_keys, ← Std.ExtTreeMap.contains_iff_mem]
  · exact List.mem_append_right _ (List.mem_map_of_mem hl)

theorem mem_cycleDetected {s : FlowGraphSchema} {nodes : List Uuid}
    (h : topologicalOrder s = .ok (.error (.cycleDetected nodes))) (v : Uuid) :
    v ∈ nodes ↔ s.nodes.contains v = true ∧ Blocked (Joins s) (Known s) v := by
  obtain ⟨order, horder, hrun⟩ := topologicalOrder_release s
  rw [hrun] at h
  split at h
  · cases h
    rw [List.mem_filter, Std.ExtTreeMap.mem_keys, ← Std.ExtTreeMap.contains_iff_mem,
      decide_eq_true_eq, released_iff horder, not_not]
  · cases h

/-- All nodes in the error lie on cycles exactly if nothing but cycles is behind a cycle or
behind an id that is neither a node nor a target. -/
theorem cycleDetected_on_cycles_iff (s : FlowGraphSchema) (nodes : List Uuid)
    (h : topologicalOrder s = .ok (.error (.cycleDetected nodes))) :
    (∀ v ∈ nodes, TransGen (Joins s) v v) ↔
      ∀ b v, s.nodes.contains v = true → TransGen (Joins s) b v →
        TransGen (Joins s) b b ∨ ¬ Known s b → TransGen (Joins s) v v := by
  constructor
  · intro hcycles b v hv hbv hb
    exact hcycles v ((mem_cycleDetected h v).mpr ⟨hv, b, hb, hbv.to_reflTransGen⟩)
  · intro hbehind v hv
    obtain ⟨hnode, b, hb, hbv⟩ := (mem_cycleDetected h v).mp hv
    rcases reflTransGen_iff_eq_or_transGen.mp hbv with rfl | hpath
    · -- a node is known, so it is on a cycle itself
      exact hb.resolve_right (not_not.mpr (.inl hnode))
    · exact hbehind b v hnode hpath hb

def trailingSchema : FlowGraphSchema :=
  ((((FlowGraphSchema.new 9 7).putNode (sampleNode 2)).putNode (sampleNode 3)).putLink
    (Link.new 6 2 11 2 10)).putLink (Link.new 7 2 11 3 10)

def loopedSchema : FlowGraphSchema :=
  (((((((((FlowGraphSchema.new 9 7).putNode (sampleNode 1)).putNode (sampleNode 2)).putNode
    (sampleNode 3)).putNode (sampleNode 5)).putLink (Link.new 6 1 11 2 10)).putLink
    (Link.new 7 2 11 3 10)).putLink (Link.new 8 3 11 5 10)).putLink (Link.new 10 5 11 2 10))

theorem cycleDetected_on_cycles_iff_looped :
    topologicalOrder loopedSchema = .ok (.error (.cycleDetected [2, 3, 5])) ∧
      ∀ v ∈ [2, 3, 5], TransGen (Joins loopedSchema) v v := by
  have hrun : topologicalOrder loopedSchema = .ok (.error (.cycleDetected [2, 3, 5])) := by decide
  have hlinks : loopedSchema.linkList = [Link.new 6 1 11 2 10, Link.new 7 2 11 3 10,
      Link.new 8 3 11 5 10, Link.new 10 5 11 2 10] := by
    decide
  have hjoins : ∀ a b, Joins loopedSchema a b ↔
      a = 1 ∧ b = 2 ∨ a = 2 ∧ b = 3 ∨ a = 3 ∧ b = 5 ∨ a = 5 ∧ b = 2 := by
    intro a b
    simp [Joins, hlinks, Link.new, eq_comm]
  have htwo : Joins loopedSchema 2 3 := (hjoins 2 3).mpr (by simp)
  have hthree : Joins loopedSchema 3 5 := (hjoins 3 5).mpr (by simp)
  have hfive : Joins loopedSchema 5 2 := (hjoins 5 2).mpr (by simp)
  refine ⟨hrun, (cycleDetected_on_cycles_iff loopedSchema [2, 3, 5] hrun).mpr ?_⟩
  intro b v _ hbv _
  -- every link leads to one of the three nodes
  obtain ⟨c, -, hcv⟩ := TransGen.tail'_iff.mp hbv
  rcases (hjoins c v).mp hcv with ⟨-, rfl⟩ | ⟨-, rfl⟩ | ⟨-, rfl⟩ | ⟨-, rfl⟩
  · exact ((TransGen.single htwo).tail hthree).tail hfive
  · exact ((TransGen.single hthree).tail hfive).tail htwo
  · exact ((TransGen.single hfive).tail htwo).tail hthree
  · exact ((TransGen.single htwo).tail hthree).tail hfive

/-- The node behind the cycle is reported, and no link leaves it. -/
theorem trailing_node_reported :
    ¬ ∀ nodes, topologicalOrder trailingSchema = .ok (.error (.cycleDetected nodes)) →
      ∀ v ∈ nodes, TransGen (Joins trailingSchema) v v := by
  intro h
  have hlinks : trailingSchema.linkList = [Link.new 6 2 11 2 10, Link.new 7 2 11 3 10] := by
    decide
  have hcycle := h [2, 3] (by decide) 3 (by decide)
  obtain ⟨c, hstep, -⟩ := TransGen.head'_iff.mp hcycle
  simp [Joins, hlinks, Link.new] at hstep

end Graph

end InfinityOS
