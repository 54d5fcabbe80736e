import InfinityOS.Registry.Blocks
import InfinityOS.Graph.Operation

/-!
# Patches on a graph with its log

`apply_op_to_schema` mutates the schema it is given, and some operations do so before they
fail. `apply_patch` lets them work on a clone and commits it, with an entry of the log, when
all of them have succeeded.
-/

namespace InfinityOS

namespace Graph

open Registry (Actor Stamp)

/-- The event type that `apply_patch` emits. -/
inductive EventType where
  | graphPatched
  deriving DecidableEq

structure ActionLogEntry where
  eventId : Uuid
  eventType : EventType
  occurredAtMs : UInt64
  dimensionId : Option DimensionId
  taskId : Option TaskId
  actor : Actor
  causalityId : Option Uuid
  correlationId : Option String
  payload : Json

def ActionLogEntry.new (eventType : EventType) (actor : Actor)
    (dimensionId : Option DimensionId) (taskId : Option TaskId) (payload : Json)
    (stamp : Stamp) : ActionLogEntry :=
  { eventId := stamp.eventId, eventType, occurredAtMs := stamp.occurredAtMs, dimensionId,
    taskId, actor, causalityId := none, correlationId := none, payload }

/-- The graph with all fields of the wrapper. -/
structure LoggedGraph extends FlowGraph where
  actionLog : List ActionLogEntry
  dimensionId : DimensionId
  taskId : TaskId

/-! ## Operations in place -/

namespace FlowGraphSchema

/-- `nodes.get_mut`, and a write through it. -/
def mutateNode (s : FlowGraphSchema) (id : Uuid) (f : GraphNode → GraphNode) :
    Except FlowGraphError Unit × FlowGraphSchema :=
  match s.nodes[id]? with
  | none => (.error (.nodeNotFound id), s)
  | some node => (.ok (), { s with nodes := s.nodes.insert id (f node) })

/-- `groups.get_mut`, and a write through it. -/
def mutateGroup (s : FlowGraphSchema) (id : Uuid) (f : Group → Group) :
    Except FlowGraphError Unit × FlowGraphSchema :=
  match s.groups[id]? with
  | none => (.error (.groupNotFound id), s)
  | some group => (.ok (), { s with groups := s.groups.insert id (f group) })

/-- `remove(id).ok_or(e)` with the map as it is left: the removal comes before the check. -/
def removeOr {ν : Type} (m : BTreeMap Uuid ν) (id : Uuid) (e : FlowGraphError) :
    Except FlowGraphError Unit × BTreeMap Uuid ν :=
  (match m[id]? with
    | none => .error e
    | some _ => .ok (),
    m.erase id)

/-- `apply_op_to_schema` with the schema as the call leaves it. -/
def applyOpInPlace (s : FlowGraphSchema) :
    GraphPatchOp → Except FlowGraphError Unit × FlowGraphSchema
  | .addNode node =>
      if s.nodes.contains node.id then
        (.error (.invalidPatch ("node " ++ node.id.display ++ " already exists")), s)
      else (.ok (), { s with nodes := s.nodes.insert node.id node })
  | .removeNode id =>
      match removeOr s.nodes id (.nodeNotFound id) with
      | (.error e, nodes) => (.error e, { s with nodes })
      | (.ok (), nodes) =>
          (.ok (), { s with nodes, links := s.detachLinks id, groups := s.detachGroups id })
  | .updateNodeLabel id newLabel => s.mutateNode id fun node => { node with label := newLabel }
  | .updateNodeParams id params =>
      s.mutateNode id fun node =>
        { node with parameters := params.foldl (fun m k v => m.insert k v) node.parameters }
  | .moveNode id position => s.mutateNode id fun node => { node with position }
  | .addLink link =>
      if s.links.contains link.id then
        (.error (.invalidPatch ("link " ++ link.id.display ++ " already exists")), s)
      else (.ok (), { s with links := s.links.insert link.id link })
  | .removeLink id =>
      let (answer, links) := removeOr s.links id (.linkNotFound id)
      (answer, { s with links })
  | .addGroup group =>
      if s.groups.contains group.id then
        (.error (.invalidPatch ("group " ++ group.id.display ++ " already exists")), s)
      else (.ok (), { s with groups := s.groups.insert group.id group })
  | .removeGroup id =>
      let (answer, groups) := removeOr s.groups id (.groupNotFound id)
      (answer, { s with groups })
  | .addNodeToGroup nodeId groupId =>
      s.mutateGroup groupId fun g => { g with nodeIds := g.nodeIds.insert nodeId }
  | .removeNodeFromGroup nodeId groupId =>
      s.mutateGroup groupId fun g => { g with nodeIds := g.nodeIds.erase nodeId }
  | .addSubgraph subgraph =>
      if s.subgraphs.contains subgraph.id then
        (.error (.invalidPatch ("subgraph " ++ subgraph.id.display ++ " already exists")), s)
      else (.ok (), { s with subgraphs := s.subgraphs.insert subgraph.id subgraph })
  | .removeSubgraph id =>
      let (answer, subgraphs) := removeOr s.subgraphs id (.subgraphNotFound id)
      (answer, { s with subgraphs })

/-- The loop over the operations, up to the first error. -/
def applyOpsInPlace (working : FlowGraphSchema) :
    List GraphPatchOp → Except FlowGraphError Unit × FlowGraphSchema
  | [] => (.ok (), working)
  | op :: ops =>
      match working.applyOpInPlace op with
      | (.error e, working) => (.error e, working)
      | (.ok (), working) => working.applyOpsInPlace ops

end FlowGraphSchema

namespace LoggedGraph

def patchEntry (g : LoggedGraph) (patch : GraphPatch) (stamp : Stamp) : ActionLogEntry :=
  .new .graphPatched .system (some g.dimensionId) (some g.taskId)
    (.object [("author", .string patch.author),
      ("op_count", .number (.posInt (UInt64.ofNat patch.ops.length))),
      ("patch_id", .string patch.id.display)])
    stamp

def applyPatch (g : LoggedGraph) (patch : GraphPatch) (stamp : Stamp) :
    Except FlowGraphError Unit × LoggedGraph :=
  let working := g.schema
  match working.applyOpsInPlace patch.ops with
  | (.error e, _) =>
      (.error (.invalidPatch
        ("patch " ++ patch.id.display ++ " op failed: " ++ e.display)), g)
  | (.ok (), working) =>
      let g := { g with schema := working }
      (.ok (), { g with actionLog := g.actionLog ++ [g.patchEntry patch stamp] })

end LoggedGraph

/-! ## One operation -/

/-- The answer of an operation with the schema that it leaves: the result, or the schema
unchanged. -/
def settled (s : FlowGraphSchema) :
    Except FlowGraphError FlowGraphSchema → Except FlowGraphError Unit × FlowGraphSchema
  | .ok s' => (.ok (), s')
  | .error e => (.error e, s)

section Operation

variable (s : FlowGraphSchema)

theorem erase_of_getElem?_eq_none {ν : Type} {m : BTreeMap Uuid ν} {id : Uuid}
    (h : m[id]? = none) : m.erase id = m := by
  ext v : 1
  rw [Maps.getElem?_erase_ite]
  split
  · next heq => rw [heq, h]
  · rfl

theorem mutateNode_eq (id : Uuid) (f : GraphNode → GraphNode) :
    s.mutateNode id f = settled s (s.updateNode id f) := by
  unfold FlowGraphSchema.mutateNode FlowGraphSchema.updateNode
  cases s.nodes[id]? <;> rfl

theorem mutateGroup_eq (id : Uuid) (f : Group → Group) :
    s.mutateGroup id f = settled s (s.updateGroup id f) := by
  unfold FlowGraphSchema.mutateGroup FlowGraphSchema.updateGroup
  cases s.groups[id]? <;> rfl

theorem refused_eq (c : Prop) [Decidable c] (e : FlowGraphError) (t : FlowGraphSchema) :
    (if c then (.error e, s) else (.ok (), t)) = settled s (if c then .error e else .ok t) := by
  split <;> rfl

theorem removeOr_eq {ν : Type} (m : BTreeMap Uuid ν) (id : Uuid) (e : FlowGraphError) :
    FlowGraphSchema.removeOr m id e =
      if m.contains id then (.ok (), m.erase id) else (.error e, m) := by
  rw [FlowGraphSchema.removeOr, Std.ExtTreeMap.contains_eq_isSome_getElem?]
  cases hget : m[id]? with
  | none =>
      rw [erase_of_getElem?_eq_none hget]
      rfl
  | some v => rfl

theorem applyOpInPlace_eq (op : GraphPatchOp) :
    s.applyOpInPlace op = settled s (s.applyOpToSchema op) := by
  cases op with
  | addNode node => exact refused_eq s _ _ _
  | addLink link => exact refused_eq s _ _ _
  | addGroup group => exact refused_eq s _ _ _
  | addSubgraph subgraph => exact refused_eq s _ _ _
  | updateNodeLabel id newLabel => exact mutateNode_eq s id _
  | updateNodeParams id params => exact mutateNode_eq s id _
  | moveNode id position => exact mutateNode_eq s id _
  | addNodeToGroup nodeId groupId => exact mutateGroup_eq s groupId _
  | removeNodeFromGroup nodeId groupId => exact mutateGroup_eq s groupId _
  | removeNode id =>
      rw [FlowGraphSchema.applyOpInPlace, removeOr_eq, FlowGraphSchema.applyOpToSchema]
      split_ifs <;> rfl
  | removeLink id =>
      rw [FlowGraphSchema.applyOpInPlace, removeOr_eq, FlowGraphSchema.applyOpToSchema]
      split_ifs <;> rfl
  | removeGroup id =>
      rw [FlowGraphSchema.applyOpInPlace, removeOr_eq, FlowGraphSchema.applyOpToSchema]
      split_ifs <;> rfl
  | removeSubgraph id =>
      rw [FlowGraphSchema.applyOpInPlace, removeOr_eq, FlowGraphSchema.applyOpToSchema]
      split_ifs <;> rfl

end Operation

/-! ## A whole patch -/

/-- The operations succeed from the left, each on the result of the one before. -/
inductive AppliedInTurn : FlowGraphSchema → List GraphPatchOp → FlowGraphSchema → Prop where
  | nil (s : FlowGraphSchema) : AppliedInTurn s [] s
  | cons {s m t : FlowGraphSchema} {op : GraphPatchOp} {ops : List GraphPatchOp}
      (hop : s.applyOpToSchema op = .ok m) (hrest : AppliedInTurn m ops t) :
      AppliedInTurn s (op :: ops) t

section Patch

variable {s t : FlowGraphSchema} {ops : List GraphPatchOp}

theorem applyOpsInPlace_ok_iff :
    s.applyOpsInPlace ops = (.ok (), t) ↔ AppliedInTurn s ops t := by
  induction ops generalizing s with
  | nil =>
      constructor
      · intro h
        cases h
        exact .nil _
      · intro h
        cases h
        rfl
  | cons op ops ih =>
      rw [FlowGraphSchema.applyOpsInPlace, applyOpInPlace_eq]
      constructor
      · intro h
        cases hop : s.applyOpToSchema op with
        | error e =>
            rw [hop] at h
            cases h
        | ok m =>
            rw [hop] at h
            exact .cons hop (ih.mp h)
      · intro h
        cases h with
        | cons hop hrest =>
            rw [hop]
            exact ih.mpr hrest

theorem applyOpsInPlace_error {e : FlowGraphError} (h : s.applyOpsInPlace ops = (.error e, t)) :
    ∃ before op after, ops = before ++ op :: after ∧ AppliedInTurn s before t ∧
      t.applyOpToSchema op = .error e := by
  induction ops generalizing s with
  | nil => cases h
  | cons op ops ih =>
      rw [FlowGraphSchema.applyOpsInPlace, applyOpInPlace_eq] at h
      cases hop : s.applyOpToSchema op with
      | error e' =>
          rw [hop] at h
          cases h
          exact ⟨[], op, ops, rfl, .nil _, hop⟩
      | ok m =>
          rw [hop] at h
          obtain ⟨before, op', after, rfl, hbefore, hfail⟩ := ih h
          exact ⟨op :: before, op', after, rfl, .cons hop hbefore, hfail⟩

end Patch

/-- A patch is applied as a whole and logged, or it fails at one of its operations and
leaves the graph as it was. -/
inductive PatchOutcome (g : LoggedGraph) (patch : GraphPatch) (stamp : Stamp) :
    Except FlowGraphError Unit × LoggedGraph → Prop where
  | applied (s : FlowGraphSchema) (h : AppliedInTurn g.schema patch.ops s) :
      PatchOutcome g patch stamp
        (.ok (), { g with schema := s, actionLog := g.actionLog ++ [g.patchEntry patch stamp] })
  | failed (before after : List GraphPatchOp) (op : GraphPatchOp) (s : FlowGraphSchema)
      (e : FlowGraphError) (hops : patch.ops = before ++ op :: after)
      (hbefore : AppliedInTurn g.schema before s) (hfail : s.applyOpToSchema op = .error e) :
      PatchOutcome g patch stamp
        (.error (.invalidPatch
          ("patch " ++ patch.id.display ++ " op failed: " ++ e.display)), g)

theorem LoggedGraph.applyPatch_outcome (g : LoggedGraph) (patch : GraphPatch) (stamp : Stamp) :
    PatchOutcome g patch stamp (g.applyPatch patch stamp) := by
  unfold LoggedGraph.applyPatch
  dsimp only
  rcases hrun : g.schema.applyOpsInPlace patch.ops with ⟨e | ⟨⟩, s⟩
  · obtain ⟨before, op, after, hops, hbefore, hfail⟩ := applyOpsInPlace_error hrun
    exact .failed before after op s e hops hbefore hfail
  · exact .applied s (applyOpsInPlace_ok_iff.mp hrun)

theorem AppliedInTurn.applyOps_append {s t : FlowGraphSchema} {before : List GraphPatchOp}
    (h : AppliedInTurn s before t) (after : List GraphPatchOp) :
    s.applyOps (before ++ after) = t.applyOps after := by
  induction h with
  | nil s => rfl
  | cons hop _ ih =>
      rw [List.cons_append, FlowGraphSchema.applyOps, List.foldlM_cons, hop]
      exact ih

theorem LoggedGraph.applyPatch_toFlowGraph (g : LoggedGraph) (patch : GraphPatch)
    (stamp : Stamp) :
    g.toFlowGraph.applyPatch patch =
      ((g.applyPatch patch stamp).1, (g.applyPatch patch stamp).2.toFlowGraph) := by
  have houtcome := g.applyPatch_outcome patch stamp
  generalize g.applyPatch patch stamp = result at houtcome
  unfold FlowGraph.applyPatch
  cases houtcome with
  | applied s h =>
      have hok := h.applyOps_append []
      rw [List.append_nil] at hok
      rw [hok]
      rfl
  | failed before after op s e hops hbefore hfail =>
      have herror : g.schema.applyOps patch.ops = .error e := by
        rw [hops, hbefore.applyOps_append, FlowGraphSchema.applyOps, List.foldlM_cons, hfail]
        rfl
      rw [herror]

/-- A patch that fails leaves the schema, the execution states and the log as they were.
One that succeeds makes the schema into the result of its operations, from the left. -/
theorem LoggedGraph.applyPatch_atomic (g : LoggedGraph) (patch : GraphPatch) (stamp : Stamp) :
    (∀ e, (g.applyPatch patch stamp).1 = .error e → (g.applyPatch patch stamp).2 = g) ∧
      ∀ s, ((g.applyPatch patch stamp).1 = .ok () ∧ (g.applyPatch patch stamp).2.schema = s) ↔
        AppliedInTurn g.schema patch.ops s := by
  refine ⟨fun e he => ?_, fun s => ⟨?_, fun happlied => ?_⟩⟩
  · have houtcome := g.applyPatch_outcome patch stamp
    generalize g.applyPatch patch stamp = result at houtcome he
    cases houtcome with
    | applied s h => cases he
    | failed before after op s e' hops hbefore hfail => rfl
  · have houtcome := g.applyPatch_outcome patch stamp
    generalize g.applyPatch patch stamp = result at houtcome
    rintro ⟨hok, rfl⟩
    cases houtcome with
    | applied s h => exact h
    | failed before after op s e hops hbefore hfail => cases hok
  · unfold LoggedGraph.applyPatch
    dsimp only
    rw [applyOpsInPlace_ok_iff.mpr happlied]
    exact ⟨rfl, rfl⟩

end Graph

end InfinityOS
