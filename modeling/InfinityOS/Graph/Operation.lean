import InfinityOS.Graph.Types

/-!
# Operations of the flow graph

The mutating methods of `FlowGraph`, the patch interpreter and the schema diff.
A method returns its answer and the graph after it; one that fails returns the
graph it was called on.
-/

namespace InfinityOS

namespace Graph

namespace FlowGraphSchema

/-- `links.retain` of the links that do not touch the node. -/
def detachLinks (s : FlowGraphSchema) (id : Uuid) : BTreeMap Uuid Link :=
  s.links.filter fun _ l => l.sourceNode ≠ id && l.targetNode ≠ id

def detachGroups (s : FlowGraphSchema) (id : Uuid) : BTreeMap Uuid Group :=
  s.groups.map fun _ g => { g with nodeIds := g.nodeIds.erase id }

/-- The common body of both ways to remove a node. -/
def dropNode (s : FlowGraphSchema) (id : Uuid) : FlowGraphSchema :=
  { s with nodes := s.nodes.erase id, links := s.detachLinks id, groups := s.detachGroups id }

def putNode (s : FlowGraphSchema) (node : GraphNode) : FlowGraphSchema :=
  { s with nodes := s.nodes.insert node.id node }

def putLink (s : FlowGraphSchema) (link : Link) : FlowGraphSchema :=
  { s with links := s.links.insert link.id link }

def dropLink (s : FlowGraphSchema) (id : Uuid) : FlowGraphSchema :=
  { s with links := s.links.erase id }

def putGroup (s : FlowGraphSchema) (group : Group) : FlowGraphSchema :=
  { s with groups := s.groups.insert group.id group }

def putSubgraph (s : FlowGraphSchema) (subgraph : Subgraph) : FlowGraphSchema :=
  { s with subgraphs := s.subgraphs.insert subgraph.id subgraph }

/-- The checks of `add_link`: both nodes, both ports and the types. -/
def checkLink (s : FlowGraphSchema) (link : Link) : Except FlowGraphError Unit :=
  match s.nodes[link.sourceNode]? with
  | none => .error (.nodeNotFound link.sourceNode)
  | some srcNode =>
      match srcNode.ports[link.sourcePort]? with
      | none => .error (.portNotFound link.sourceNode link.sourcePort)
      | some srcPort =>
          match s.nodes[link.targetNode]? with
          | none => .error (.nodeNotFound link.targetNode)
          | some tgtNode =>
              match tgtNode.ports[link.targetPort]? with
              | none => .error (.portNotFound link.targetNode link.targetPort)
              | some tgtPort =>
                  if srcPort.dataType.isCompatibleWith tgtPort.dataType then
                    .ok ()
                  else
                    .error (.typeMismatch link.id srcPort.dataType tgtPort.dataType)

end FlowGraphSchema

namespace FlowGraph

def addNode (g : FlowGraph) (node : GraphNode) : Uuid × FlowGraph :=
  (node.id,
    { schema := g.schema.putNode node
      executionStates := g.executionStates.insert node.id .idle })

def removeNode (g : FlowGraph) (id : Uuid) : Except FlowGraphError GraphNode × FlowGraph :=
  match g.schema.nodes[id]? with
  | none => (.error (.nodeNotFound id), g)
  | some node =>
      (.ok node,
        { schema := g.schema.dropNode id, executionStates := g.executionStates.erase id })

def addLink (g : FlowGraph) (link : Link) : Except FlowGraphError Uuid × FlowGraph :=
  match g.schema.checkLink link with
  | .error e => (.error e, g)
  | .ok () => (.ok link.id, { g with schema := g.schema.putLink link })

def removeLink (g : FlowGraph) (id : Uuid) : Except FlowGraphError Link × FlowGraph :=
  match g.schema.links[id]? with
  | none => (.error (.linkNotFound id), g)
  | some link => (.ok link, { g with schema := g.schema.dropLink id })

def addGroup (g : FlowGraph) (group : Group) : Uuid × FlowGraph :=
  (group.id, { g with schema := g.schema.putGroup group })

def addRelation (g : FlowGraph) (relation : NodeRelation) :
    Except FlowGraphError Uuid × FlowGraph :=
  if !g.schema.nodes.contains relation.fromNode then
    (.error (.nodeNotFound relation.fromNode), g)
  else if !g.schema.nodes.contains relation.toNode then
    (.error (.nodeNotFound relation.toNode), g)
  else
    (.ok relation.id,
      { g with schema :=
          { g.schema with relations := g.schema.relations.insert relation.id relation } })

def removeRelation (g : FlowGraph) (id : Uuid) :
    Except FlowGraphError NodeRelation × FlowGraph :=
  match g.schema.relations[id]? with
  | none => (.error (.relationNotFound id), g)
  | some relation =>
      (.ok relation,
        { g with schema := { g.schema with relations := g.schema.relations.erase id } })

end FlowGraph

/-! ## Patches -/

namespace FlowGraphSchema

/-- An update through `nodes.get_mut`. -/
def updateNode (s : FlowGraphSchema) (id : Uuid) (f : GraphNode → GraphNode) :
    Except FlowGraphError FlowGraphSchema :=
  match s.nodes[id]? with
  | none => .error (.nodeNotFound id)
  | some node => .ok { s with nodes := s.nodes.insert id (f node) }

/-- An update through `groups.get_mut`. -/
def updateGroup (s : FlowGraphSchema) (id : Uuid) (f : Group → Group) :
    Except FlowGraphError FlowGraphSchema :=
  match s.groups[id]? with
  | none => .error (.groupNotFound id)
  | some group => .ok { s with groups := s.groups.insert id (f group) }

def applyOpToSchema (s : FlowGraphSchema) :
    GraphPatchOp → Except FlowGraphError FlowGraphSchema
  | .addNode node =>
      if s.nodes.contains node.id then
        .error (.invalidPatch ("node " ++ node.id.display ++ " already exists"))
      else .ok (s.putNode node)
  | .removeNode id =>
      if s.nodes.contains id then .ok (s.dropNode id) else .error (.nodeNotFound id)
  | .updateNodeLabel id newLabel => s.updateNode id fun node => { node with label := newLabel }
  | .updateNodeParams id params =>
      s.updateNode id fun node =>
        { node with parameters := params.foldl (fun m k v => m.insert k v) node.parameters }
  | .moveNode id position => s.updateNode id fun node => { node with position }
  | .addLink link =>
      if s.links.contains link.id then
        .error (.invalidPatch ("link " ++ link.id.display ++ " already exists"))
      else .ok (s.putLink link)
  | .removeLink id =>
      if s.links.contains id then .ok (s.dropLink id) else .error (.linkNotFound id)
  | .addGroup group =>
      if s.groups.contains group.id then
        .error (.invalidPatch ("group " ++ group.id.display ++ " already exists"))
      else .ok (s.putGroup group)
  | .removeGroup id =>
      if s.groups.contains id then
        .ok { s with groups := s.groups.erase id }
      else .error (.groupNotFound id)
  | .addNodeToGroup nodeId groupId =>
      s.updateGroup groupId fun g => { g with nodeIds := g.nodeIds.insert nodeId }
  | .removeNodeFromGroup nodeId groupId =>
      s.updateGroup groupId fun g => { g with nodeIds := g.nodeIds.erase nodeId }
  | .addSubgraph subgraph =>
      if s.subgraphs.contains subgraph.id then
        .error (.invalidPatch ("subgraph " ++ subgraph.id.display ++ " already exists"))
      else .ok (s.putSubgraph subgraph)
  | .removeSubgraph id =>
      if s.subgraphs.contains id then
        .ok { s with subgraphs := s.subgraphs.erase id }
      else .error (.subgraphNotFound id)

/-- The operations of a patch on the working copy, up to the first that fails. -/
def applyOps (s : FlowGraphSchema) (ops : List GraphPatchOp) :
    Except FlowGraphError FlowGraphSchema :=
  ops.foldlM applyOpToSchema s

end FlowGraphSchema

namespace FlowGraph

def applyPatch (g : FlowGraph) (patch : GraphPatch) : Except FlowGraphError Unit × FlowGraph :=
  match g.schema.applyOps patch.ops with
  | .error e =>
      (.error (.invalidPatch
        ("patch " ++ patch.id.display ++ " op failed: " ++ e.display)), g)
  | .ok working => (.ok (), { g with schema := working })

end FlowGraph

/-- The entries of `b` under keys that `a` does not have. -/
def addedEntries {ν : Type} (a b : BTreeMap Uuid ν) : List (Uuid × ν) :=
  b.toList.filter fun p => !a.contains p.1

/-- The keys of `a` that `b` does not have. -/
def removedKeys {ν : Type} (a b : BTreeMap Uuid ν) : List Uuid :=
  a.keys.filter fun id => !b.contains id

/-- The operations of `compute_diff`, in the order of the source. -/
def diffOps (a b : FlowGraphSchema) : List GraphPatchOp :=
  (addedEntries a.nodes b.nodes).map (fun p => .addNode p.2) ++
  ((removedKeys a.nodes b.nodes).map .removeNode ++
  ((addedEntries a.links b.links).map (fun p => .addLink p.2) ++
  ((removedKeys a.links b.links).map .removeLink ++
  ((addedEntries a.groups b.groups).map (fun p => .addGroup p.2) ++
  ((removedKeys a.groups b.groups).map .removeGroup ++
  ((addedEntries a.subgraphs b.subgraphs).map (fun p => .addSubgraph p.2) ++
  (removedKeys a.subgraphs b.subgraphs).map .removeSubgraph))))))

/-- `FlowGraph::compute_diff` with the generated patch id and time. -/
def computeDiff (a b : FlowGraphSchema) (author : String) (id : Uuid) (nowMs : UInt64) :
    GraphPatch :=
  .new id author nowMs (diffOps a b)

/-! ## Calls -/

/-- A call of the graph's editing interface. -/
inductive Edit where
  | addNode (node : GraphNode)
  | removeNode (id : Uuid)
  | addLink (link : Link)
  | removeLink (id : Uuid)
  | addGroup (group : Group)
  | addRelation (relation : NodeRelation)
  | applyPatch (patch : GraphPatch)

/-- What a call returns. -/
inductive EditAnswer where
  | id (id : Uuid)
  | node (result : Except FlowGraphError GraphNode)
  | link (result : Except FlowGraphError Link)
  | inserted (result : Except FlowGraphError Uuid)
  | done (result : Except FlowGraphError Unit)

def FlowGraph.step (g : FlowGraph) : Edit → EditAnswer × FlowGraph
  | .addNode node => let r := g.addNode node; (.id r.1, r.2)
  | .removeNode id => let r := g.removeNode id; (.node r.1, r.2)
  | .addLink link => let r := g.addLink link; (.inserted r.1, r.2)
  | .removeLink id => let r := g.removeLink id; (.link r.1, r.2)
  | .addGroup group => let r := g.addGroup group; (.id r.1, r.2)
  | .addRelation relation => let r := g.addRelation relation; (.inserted r.1, r.2)
  | .applyPatch patch => let r := g.applyPatch patch; (.done r.1, r.2)

/-- The graph after a call: the graph before, or with the one change that the call makes. -/
inductive EditCase (g : FlowGraph) : Edit → FlowGraph → Prop where
  | addedNode (node : GraphNode) : EditCase g (.addNode node)
      { schema := g.schema.putNode node
        executionStates := g.executionStates.insert node.id .idle }
  | missingNode (id : Uuid) (h : g.schema.nodes[id]? = none) : EditCase g (.removeNode id) g
  | removedNode (id : Uuid) (node : GraphNode) (h : g.schema.nodes[id]? = some node) :
      EditCase g (.removeNode id)
        { schema := g.schema.dropNode id, executionStates := g.executionStates.erase id }
  | refusedLink (link : Link) : EditCase g (.addLink link) g
  | addedLink (link : Link) (h : g.schema.checkLink link = .ok ()) :
      EditCase g (.addLink link) { g with schema := g.schema.putLink link }
  | missingLink (id : Uuid) : EditCase g (.removeLink id) g
  | removedLink (id : Uuid) : EditCase g (.removeLink id) { g with schema := g.schema.dropLink id }
  | addedGroup (group : Group) :
      EditCase g (.addGroup group) { g with schema := g.schema.putGroup group }
  | refusedRelation (relation : NodeRelation) : EditCase g (.addRelation relation) g
  | addedRelation (relation : NodeRelation)
      (hfrom : g.schema.nodes.contains relation.fromNode = true)
      (hto : g.schema.nodes.contains relation.toNode = true) :
      EditCase g (.addRelation relation)
        { g with schema :=
            { g.schema with relations := g.schema.relations.insert relation.id relation } }
  | failedPatch (patch : GraphPatch) (h : (g.applyPatch patch).1 ≠ .ok ()) :
      EditCase g (.applyPatch patch) g
  | patched (patch : GraphPatch) (working : FlowGraphSchema)
      (h : (g.applyPatch patch).1 = .ok ()) (hok : g.schema.applyOps patch.ops = .ok working) :
      EditCase g (.applyPatch patch) { g with schema := working }

theorem FlowGraph.editCase (g : FlowGraph) (edit : Edit) : EditCase g edit (g.step edit).2 := by
  cases edit with
  | addNode node => exact .addedNode node
  | removeNode id =>
      change EditCase g _ (g.removeNode id).2
      unfold FlowGraph.removeNode
      cases hget : g.schema.nodes[id]? with
      | none => exact .missingNode id hget
      | some node => exact .removedNode id node hget
  | addLink link =>
      change EditCase g _ (g.addLink link).2
      unfold FlowGraph.addLink
      cases hcheck : g.schema.checkLink link with
      | error e => exact .refusedLink link
      | ok u => exact .addedLink link hcheck
  | removeLink id =>
      change EditCase g _ (g.removeLink id).2
      unfold FlowGraph.removeLink
      cases g.schema.links[id]? with
      | none => exact .missingLink id
      | some link => exact .removedLink id
  | addGroup group => exact .addedGroup group
  | addRelation relation =>
      change EditCase g _ (g.addRelation relation).2
      unfold FlowGraph.addRelation
      split_ifs with hfrom hto
      · exact .refusedRelation relation
      · exact .refusedRelation relation
      · simp only [Bool.not_eq_true', Bool.not_eq_false] at hfrom hto
        exact .addedRelation relation hfrom hto
  | applyPatch patch =>
      change EditCase g _ (g.applyPatch patch).2
      cases hok : g.schema.applyOps patch.ops with
      | error e =>
          have hfail : (g.applyPatch patch).1 ≠ .ok () := by
            rw [FlowGraph.applyPatch, hok]
            intro h
            cases h
          rw [FlowGraph.applyPatch, hok]
          exact .failedPatch patch hfail
      | ok working =>
          have hsuccess : (g.applyPatch patch).1 = .ok () := by
            rw [FlowGraph.applyPatch, hok]
          rw [FlowGraph.applyPatch, hok]
          exact .patched patch working hsuccess hok

end Graph

end InfinityOS
