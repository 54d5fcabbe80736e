import InfinityOS.Graph.Integrity

/-!
# Patches against direct edits

Four edits exist twice, as a method of the graph and as a patch operation. An
insertion by patch refuses an id in use where the method overwrites; apart from
that the two paths accept the same edits and leave the same schema.
-/

namespace InfinityOS

namespace Graph

def GraphPatchOp.direct : GraphPatchOp → Option Edit
  | addNode node => some (.addNode node)
  | removeNode id => some (.removeNode id)
  | addLink link => some (.addLink link)
  | removeLink id => some (.removeLink id)
  | _ => none

def GraphPatchOp.isLinkOp : GraphPatchOp → Bool
  | addLink _ | removeLink _ => true
  | _ => false

def EditAnswer.isOk : EditAnswer → Bool
  | id _ => true
  | node result => result.isOk
  | link result => result.isOk
  | inserted result => result.isOk
  | done result => result.isOk

/-- The call that applies the one operation `op` as a patch. -/
def viaPatch (patchId : Uuid) (author : String) (nowMs : UInt64) (op : GraphPatchOp) : Edit :=
  .applyPatch (.new patchId author nowMs [op])

/-- Both paths succeed or both fail, and on success they leave the same graph. -/
def PathsAgree (g : FlowGraph) (patch edit : Edit) : Prop :=
  (g.step patch).1.isOk = (g.step edit).1.isOk ∧
    ((g.step patch).1.isOk = true →
      (g.step patch).2.schema = (g.step edit).2.schema ∧
        (g.step patch).2.executionStates = (g.step edit).2.executionStates)

section Paths

variable (g : FlowGraph) (patchId : Uuid) (author : String) (nowMs : UInt64)

theorem applyOps_singleton (s : FlowGraphSchema) (op : GraphPatchOp) :
    s.applyOps [op] = s.applyOpToSchema op := by
  rw [FlowGraphSchema.applyOps, List.foldlM_cons]
  cases s.applyOpToSchema op <;> rfl

theorem step_viaPatch (op : GraphPatchOp) :
    (g.step (viaPatch patchId author nowMs op)).1.isOk = (g.schema.applyOpToSchema op).isOk ∧
      (g.step (viaPatch patchId author nowMs op)).2.executionStates = g.executionStates ∧
      ∀ s, g.schema.applyOpToSchema op = .ok s →
        (g.step (viaPatch patchId author nowMs op)).2.schema = s := by
  change ((g.applyPatch (.new patchId author nowMs [op])).1.isOk = _) ∧
    ((g.applyPatch (.new patchId author nowMs [op])).2.executionStates = _) ∧
    ∀ s, _ → (g.applyPatch (.new patchId author nowMs [op])).2.schema = s
  unfold FlowGraph.applyPatch GraphPatch.new
  rw [applyOps_singleton]
  cases hop : g.schema.applyOpToSchema op with
  | error e =>
      refine ⟨rfl, rfl, fun s hs => ?_⟩
      cases hs
  | ok s =>
      refine ⟨rfl, rfl, fun s' hs => ?_⟩
      exact Except.ok.inj hs

theorem removeNode_isOk (id : Uuid) :
    (g.step (.removeNode id)).1.isOk = g.schema.nodes.contains id ∧
      ((g.step (.removeNode id)).1.isOk = true →
        (g.step (.removeNode id)).2.schema = g.schema.dropNode id) := by
  rw [Std.ExtTreeMap.contains_eq_isSome_getElem?]
  change ((g.removeNode id).1.isOk = _) ∧ ((g.removeNode id).1.isOk = true →
    (g.removeNode id).2.schema = _)
  unfold FlowGraph.removeNode
  cases g.schema.nodes[id]? with
  | none =>
      refine ⟨rfl, fun h => ?_⟩
      cases h
  | some node => exact ⟨rfl, fun _ => rfl⟩

theorem removeLink_isOk (id : Uuid) :
    (g.step (.removeLink id)).1.isOk = g.schema.links.contains id ∧
      (g.step (.removeLink id)).2.executionStates = g.executionStates ∧
      ((g.step (.removeLink id)).1.isOk = true →
        (g.step (.removeLink id)).2.schema = g.schema.dropLink id) := by
  rw [Std.ExtTreeMap.contains_eq_isSome_getElem?]
  change ((g.removeLink id).1.isOk = _) ∧ ((g.removeLink id).2.executionStates = _) ∧
    ((g.removeLink id).1.isOk = true → (g.removeLink id).2.schema = _)
  unfold FlowGraph.removeLink
  cases g.schema.links[id]? with
  | none =>
      refine ⟨rfl, rfl, fun h => ?_⟩
      cases h
  | some link => exact ⟨rfl, rfl, fun _ => rfl⟩

theorem addLink_isOk (link : Link) :
    (g.step (.addLink link)).1.isOk = (g.schema.checkLink link).isOk ∧
      (g.step (.addLink link)).2.executionStates = g.executionStates ∧
      ((g.step (.addLink link)).1.isOk = true →
        (g.step (.addLink link)).2.schema = g.schema.putLink link) := by
  change ((g.addLink link).1.isOk = _) ∧ ((g.addLink link).2.executionStates = _) ∧
    ((g.addLink link).1.isOk = true → (g.addLink link).2.schema = _)
  unfold FlowGraph.addLink
  cases g.schema.checkLink link with
  | error e =>
      refine ⟨rfl, rfl, fun h => ?_⟩
      cases h
  | ok u => exact ⟨rfl, rfl, fun _ => rfl⟩

theorem isOk_ite {α : Type} (c : Bool) (e : FlowGraphError) (s : α) :
    (if c then .error e else .ok s : Except FlowGraphError α).isOk = !c ∧
      (if c then .ok s else .error e : Except FlowGraphError α).isOk = c := by
  cases c <;> exact ⟨rfl, rfl⟩

/-- When both paths of an edit succeed they leave the same schema, and the same
execution states if the edit concerns a link. -/
theorem step_viaPatch_eq {op : GraphPatchOp} {edit : Edit} (hdirect : op.direct = some edit)
    (hpatch : (g.step (viaPatch patchId author nowMs op)).1.isOk = true)
    (hedit : (g.step edit).1.isOk = true) :
    (g.step (viaPatch patchId author nowMs op)).2.schema = (g.step edit).2.schema ∧
      (op.isLinkOp = true →
        (g.step (viaPatch patchId author nowMs op)).2.executionStates =
          (g.step edit).2.executionStates) := by
  obtain ⟨hok, hstates, hschema⟩ := step_viaPatch g patchId author nowMs op
  rw [hok] at hpatch
  -- the operation went through its guard
  have hafter : ∀ {s : FlowGraphSchema} {c : Bool} {e : FlowGraphError},
      g.schema.applyOpToSchema op = (if c then .ok s else .error e) →
      g.schema.applyOpToSchema op = .ok s := by
    intro s c e heq
    rw [heq] at hpatch ⊢
    cases c with
    | true => rfl
    | false => cases hpatch
  have hafter' : ∀ {s : FlowGraphSchema} {c : Bool} {e : FlowGraphError},
      g.schema.applyOpToSchema op = (if c then .error e else .ok s) →
      g.schema.applyOpToSchema op = .ok s := by
    intro s c e heq
    rw [heq] at hpatch ⊢
    cases c with
    | true => cases hpatch
    | false => rfl
  cases op with
  | addNode node =>
      obtain rfl := Option.some.inj hdirect
      refine ⟨hschema _ (hafter' rfl), fun h => ?_⟩
      cases h
  | removeNode id =>
      obtain rfl := Option.some.inj hdirect
      refine ⟨?_, fun h => by cases h⟩
      rw [hschema _ (hafter rfl), (removeNode_isOk g id).2 hedit]
  | addLink link =>
      obtain rfl := Option.some.inj hdirect
      obtain ⟨-, hsame, hput⟩ := addLink_isOk g link
      rw [hschema _ (hafter' rfl), hput hedit, hstates, hsame]
      exact ⟨rfl, fun _ => rfl⟩
  | removeLink id =>
      obtain rfl := Option.some.inj hdirect
      obtain ⟨-, hsame, hdrop⟩ := removeLink_isOk g id
      rw [hschema _ (hafter rfl), hdrop hedit, hstates, hsame]
      exact ⟨rfl, fun _ => rfl⟩
  | _ => cases hdirect

end Paths

/-- Removals succeed by patch exactly when they do directly. The direct `add_node`
always succeeds, the patch when the id is new; a link that `add_link` accepts is
accepted by a patch when its id is new. When both paths succeed they leave the
same schema, and for link edits the same execution states. -/
theorem patch_path_agrees (g : FlowGraph) (patchId : Uuid) (author : String)
    (nowMs : UInt64) :
    let patch := viaPatch patchId author nowMs
    (∀ id, (g.step (patch (.removeNode id))).1.isOk = (g.step (.removeNode id)).1.isOk) ∧
    (∀ id, (g.step (patch (.removeLink id))).1.isOk = (g.step (.removeLink id)).1.isOk) ∧
    (∀ node, (g.step (.addNode node)).1.isOk = true ∧
      (g.step (patch (.addNode node))).1.isOk = !g.schema.nodes.contains node.id) ∧
    (∀ link, (g.step (.addLink link)).1.isOk = true →
      (g.step (patch (.addLink link))).1.isOk = !g.schema.links.contains link.id) ∧
    ∀ op edit, op.direct = some edit → (g.step (patch op)).1.isOk = true →
      (g.step edit).1.isOk = true →
      (g.step (patch op)).2.schema = (g.step edit).2.schema ∧
        (op.isLinkOp = true →
          (g.step (patch op)).2.executionStates = (g.step edit).2.executionStates) := by
  intro patch
  have hpatch := fun op => (step_viaPatch g patchId author nowMs op).1
  refine ⟨fun id => ?_, fun id => ?_, fun node => ⟨rfl, ?_⟩, fun link _ => ?_, ?_⟩
  · rw [hpatch, (removeNode_isOk g id).1]
    exact (isOk_ite _ _ _).2
  · rw [hpatch, (removeLink_isOk g id).1]
    exact (isOk_ite _ _ _).2
  · rw [hpatch]
    exact (isOk_ite _ _ _).1
  · rw [hpatch]
    exact (isOk_ite _ _ _).1
  · intro op edit hdirect hop hedit
    exact step_viaPatch_eq g patchId author nowMs hdirect hop hedit

/-- Adding a node again: the patch is refused, the method overwrites. -/
theorem addNode_paths_differ :
    ¬ PathsAgree (FlowGraph.addNode (.new 1 7) (sampleNode 2)).2
      (viaPatch 5 "agent" 0 (.addNode (sampleNode 2))) (.addNode (sampleNode 2)) := by
  rintro ⟨hsame, -⟩
  revert hsame
  decide

end Graph

end InfinityOS
