import InfinityOS.Core.Maps
import InfinityOS.Core.Types
import InfinityOS.Transition.Run

/-!
# The node graph

The nodes of a canvas with the undo and redo stacks of `NodeGraph`, and its operations.
The action log, the task id and the fields of a template that the graph does not read are
left out. A new node id is drawn from outside, so it is an argument.
-/

namespace InfinityOS

namespace Editor

inductive NodeError where
  | notFound (id : Uuid)
  | missingRequiredParameter (nodeId : Uuid) (param : String)
  | nothingToUndo
  | nothingToRedo
  deriving DecidableEq

abbrev Parameters := HashMap String Json

structure NodeParameter where
  name : String
  default : Option Json
  required : Bool

structure NodeTemplate where
  id : Uuid
  parameters : List NodeParameter

/-- A pair of `f64`, by their bit patterns. -/
abbrev Position := UInt64 × UInt64

structure Node where
  id : Uuid
  dimensionId : DimensionId
  templateId : Uuid
  name : String
  parameters : Parameters
  position : Position

structure NodeMap where
  nodes : HashMap Uuid Node
  keyed : ∀ (id : Uuid) (node : Node), nodes[id]? = some node → node.id = id

namespace NodeMap

def empty : NodeMap where
  nodes := ∅
  keyed id node h := by simp at h

def get (m : NodeMap) (id : Uuid) : Option Node :=
  m.nodes[id]?

def insert (m : NodeMap) (node : Node) : NodeMap where
  nodes := m.nodes.insert node.id node
  keyed id other h := by
    rw [Maps.getElem?_insert_ite] at h
    split at h
    · next hid =>
        cases h
        exact hid.symm
    · exact m.keyed id other h

def erase (m : NodeMap) (id : Uuid) : NodeMap where
  nodes := m.nodes.erase id
  keyed i other h := by
    rw [Maps.getElem?_erase_ite] at h
    split at h
    · cases h
    · exact m.keyed i other h

theorem ext {m m' : NodeMap} (h : ∀ id, m.get id = m'.get id) : m = m' := by
  obtain ⟨nodes, keyed⟩ := m
  obtain ⟨nodes', keyed'⟩ := m'
  have hnodes : nodes = nodes' := Std.ExtTreeMap.ext_getElem? fun id => h id
  subst hnodes
  rfl

theorem get_insert (m : NodeMap) (node : Node) (id : Uuid) :
    (m.insert node).get id = if id = node.id then some node else m.get id :=
  Maps.getElem?_insert_ite m.nodes node.id node id

theorem get_erase (m : NodeMap) (i id : Uuid) :
    (m.erase i).get id = if id = i then none else m.get id :=
  Maps.getElem?_erase_ite m.nodes i id

theorem id_of_get {m : NodeMap} {id : Uuid} {node : Node} (h : m.get id = some node) :
    node.id = id :=
  m.keyed id node h

end NodeMap

inductive NodeCommand where
  | add (node : Node)
  | remove (node : Node)
  | update (nodeId : Uuid) (old new : Parameters)
  | move (nodeId : Uuid) (oldPos newPos : Position)

def NodeCommand.inverse : NodeCommand → NodeCommand
  | add node => remove node
  | remove node => add node
  | update nodeId old new => update nodeId new old
  | move nodeId oldPos newPos => move nodeId newPos oldPos

/-- The effect of `execute_command` on the map of the nodes. -/
def NodeCommand.execute (cmd : NodeCommand) (nodes : NodeMap) : NodeMap :=
  match cmd with
  | add node => nodes.insert node
  | remove node => nodes.erase node.id
  | update nodeId _ new =>
      match nodes.get nodeId with
      | some n => nodes.insert { n with parameters := new }
      | none => nodes
  | move nodeId _ newPos =>
      match nodes.get nodeId with
      | some n => nodes.insert { n with position := newPos }
      | none => nodes

def Parameters.extend (params updates : Parameters) : Parameters :=
  updates.toList.foldl (fun m p => m.insert p.1 p.2) params

/-- The parameters of a new node: the defaults of the template, then `params` over
them. -/
def finalParameters (template : NodeTemplate) (params : Parameters) : Parameters :=
  (template.parameters.foldl (fun (m : Parameters) p =>
    match p.default with
    | some value => m.insert p.name value
    | none => m) ∅).extend params

/-- The check of a new node: the first required parameter that is missing. -/
def missingParameter (template : NodeTemplate) (params : Parameters) : Option NodeParameter :=
  template.parameters.find? fun p => p.required && !params.contains p.name

/-- The stacks have their top at the head. -/
structure NodeGraph where
  nodes : NodeMap
  undoStack : List NodeCommand
  redoStack : List NodeCommand
  dimensionId : DimensionId

namespace NodeGraph

def new (dimensionId : DimensionId) : NodeGraph :=
  { nodes := NodeMap.empty, undoStack := [], redoStack := [], dimensionId }

def executeCommand (g : NodeGraph) (cmd : NodeCommand) : NodeGraph :=
  { g with nodes := cmd.execute g.nodes }

def applyCommand (g : NodeGraph) (cmd : NodeCommand) : NodeGraph :=
  let inverse := cmd.inverse
  let g := g.executeCommand cmd
  { g with undoStack := inverse :: g.undoStack, redoStack := [] }

def addNode (g : NodeGraph) (template : NodeTemplate) (name : String) (position : Position)
    (params : Parameters) (id : Uuid) : Except NodeError Uuid × NodeGraph :=
  let parameters := finalParameters template params
  match missingParameter template parameters with
  -- the node has no id yet, the error names the nil id
  | some p => (.error (.missingRequiredParameter 0 p.name), g)
  | none =>
      let node : Node :=
        { id, dimensionId := g.dimensionId, templateId := template.id, name, parameters
          position }
      (.ok id, g.applyCommand (.add node))

def removeNode (g : NodeGraph) (nodeId : Uuid) : Except NodeError Unit × NodeGraph :=
  match g.nodes.get nodeId with
  | none => (.error (.notFound nodeId), g)
  | some node => (.ok (), g.applyCommand (.remove node))

def updateNode (g : NodeGraph) (nodeId : Uuid) (updates : Parameters) :
    Except NodeError Unit × NodeGraph :=
  match g.nodes.get nodeId with
  | none => (.error (.notFound nodeId), g)
  | some node =>
      let old := node.parameters
      (.ok (), g.applyCommand (.update nodeId old (old.extend updates)))

def moveNode (g : NodeGraph) (nodeId : Uuid) (newPosition : Position) :
    Except NodeError Unit × NodeGraph :=
  match g.nodes.get nodeId with
  | none => (.error (.notFound nodeId), g)
  | some node => (.ok (), g.applyCommand (.move nodeId node.position newPosition))

def undo (g : NodeGraph) : Except NodeError Unit × NodeGraph :=
  match g.undoStack with
  | [] => (.error .nothingToUndo, g)
  | undoCmd :: undoStack =>
      let redoCmd := undoCmd.inverse
      let g := { g with undoStack }.executeCommand undoCmd
      (.ok (), { g with redoStack := redoCmd :: g.redoStack })

def redo (g : NodeGraph) : Except NodeError Unit × NodeGraph :=
  match g.redoStack with
  | [] => (.error .nothingToRedo, g)
  | cmd :: redoStack =>
      let undoCmd := cmd.inverse
      let g := { g with redoStack }.executeCommand cmd
      (.ok (), { g with undoStack := undoCmd :: g.undoStack })

end NodeGraph

/-- A call of the graph; `add_node` with the id that it draws. -/
inductive NodeOp where
  | addNode (template : NodeTemplate) (name : String) (position : Position)
      (params : Parameters) (id : Uuid)
  | removeNode (nodeId : Uuid)
  | updateNode (nodeId : Uuid) (updates : Parameters)
  | moveNode (nodeId : Uuid) (newPosition : Position)
  | undo
  | redo

inductive NodeAnswer where
  | added (result : Except NodeError Uuid)
  | done (result : Except NodeError Unit)

def NodeGraph.step (g : NodeGraph) : NodeOp → NodeAnswer × NodeGraph
  | .addNode template name position params id =>
      let r := g.addNode template name position params id; (.added r.1, r.2)
  | .removeNode nodeId => let r := g.removeNode nodeId; (.done r.1, r.2)
  | .updateNode nodeId updates => let r := g.updateNode nodeId updates; (.done r.1, r.2)
  | .moveNode nodeId newPosition => let r := g.moveNode nodeId newPosition; (.done r.1, r.2)
  | .undo => let r := g.undo; (.done r.1, r.2)
  | .redo => let r := g.redo; (.done r.1, r.2)

/-! ## Commands and their inverses -/

theorem NodeCommand.inverse_inverse (cmd : NodeCommand) : cmd.inverse.inverse = cmd := by
  cases cmd <;> rfl

theorem execute_inverse_add {nodes : NodeMap} {node : Node} (h : nodes.get node.id = none) :
    (NodeCommand.add node).inverse.execute ((NodeCommand.add node).execute nodes) = nodes := by
  apply NodeMap.ext
  intro id
  rw [NodeCommand.execute, NodeCommand.inverse, NodeCommand.execute, NodeMap.get_erase,
    NodeMap.get_insert]
  split
  · next hid => rw [hid, h]
  · rfl

theorem execute_inverse_remove {nodes : NodeMap} {id : Uuid} {node : Node}
    (h : nodes.get id = some node) :
    (NodeCommand.remove node).inverse.execute ((NodeCommand.remove node).execute nodes) =
      nodes := by
  apply NodeMap.ext
  intro i
  rw [NodeCommand.execute, NodeCommand.inverse, NodeCommand.execute, NodeMap.get_insert,
    NodeMap.get_erase, NodeMap.id_of_get h]
  split
  · next hid => rw [hid, h]
  · rfl

theorem NodeMap.insert_insert {nodes : NodeMap} {id : Uuid} {node other : Node}
    (h : nodes.get id = some node) (hid : other.id = id) :
    (nodes.insert other).get id = some other ∧ (nodes.insert other).insert node = nodes := by
  constructor
  · rw [get_insert, if_pos hid.symm]
  · apply NodeMap.ext
    intro i
    rw [get_insert, get_insert, id_of_get h, hid]
    split
    · next hi => rw [hi, h]
    · rfl

theorem execute_update {nodes : NodeMap} {id : Uuid} {node : Node}
    (h : nodes.get id = some node) (old new : Parameters) :
    (NodeCommand.update id old new).execute nodes =
      nodes.insert { node with parameters := new } := by
  simp only [NodeCommand.execute, h]

theorem execute_move {nodes : NodeMap} {id : Uuid} {node : Node}
    (h : nodes.get id = some node) (oldPos newPos : Position) :
    (NodeCommand.move id oldPos newPos).execute nodes =
      nodes.insert { node with position := newPos } := by
  simp only [NodeCommand.execute, h]

theorem execute_inverse_update {nodes : NodeMap} {id : Uuid} {node : Node}
    (h : nodes.get id = some node) (new : Parameters) :
    (NodeCommand.update id node.parameters new).inverse.execute
      ((NodeCommand.update id node.parameters new).execute nodes) = nodes := by
  have hid : node.id = id := NodeMap.id_of_get h
  obtain ⟨hget, hback⟩ := NodeMap.insert_insert h
    (show ({ node with parameters := new } : Node).id = id from hid)
  rw [execute_update h, NodeCommand.inverse, execute_update hget]
  exact hback

theorem execute_inverse_move {nodes : NodeMap} {id : Uuid} {node : Node}
    (h : nodes.get id = some node) (newPos : Position) :
    (NodeCommand.move id node.position newPos).inverse.execute
      ((NodeCommand.move id node.position newPos).execute nodes) = nodes := by
  have hid : node.id = id := NodeMap.id_of_get h
  obtain ⟨hget, hback⟩ := NodeMap.insert_insert h
    (show ({ node with position := newPos } : Node).id = id from hid)
  rw [execute_move h, NodeCommand.inverse, execute_move hget]
  exact hback

end Editor

end InfinityOS
