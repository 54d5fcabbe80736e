import InfinityOS.Core.Types

/-!
# Data of the flow graph

The wire format `FlowGraphSchema` and the runtime wrapper `FlowGraph`: ports,
nodes, links, groups, relations, subgraphs, execution states, patches and
errors. A 64-bit float (a canvas position, a progress percentage) is its bit
pattern. The inner schema of a subgraph is stored as the list of its entries by
increasing key; no modelled operation opens it. The action log, the task id and
the dimension id of the wrapper only appear in log entries and are left out.
-/

namespace InfinityOS

def Uuid.display (u : Uuid) : String :=
  let digits := (List.range 32).map fun i => Nat.digitChar (u.toNat / 16 ^ (31 - i) % 16)
  String.intercalate "-"
    [String.ofList (digits.take 8), String.ofList ((digits.drop 8).take 4),
      String.ofList ((digits.drop 12).take 4), String.ofList ((digits.drop 16).take 4),
      String.ofList (digits.drop 20)]

example : Uuid.display 0x0123456789abcdef0123456789abcdef =
    "01234567-89ab-cdef-0123-456789abcdef" := by decide

namespace Graph

inductive PortDirection where
  | input
  | output
  deriving DecidableEq

inductive PortDataType where
  | any
  | number
  | string
  | bool
  | json
  | array
  deriving DecidableEq

namespace PortDataType

def isCompatibleWith (a b : PortDataType) : Bool :=
  a = any || b = any || a = b

/-- The derived debug text. -/
def debug : PortDataType → String
  | any => "Any"
  | number => "Number"
  | string => "String"
  | bool => "Bool"
  | json => "Json"
  | array => "Array"

end PortDataType

structure PortDef where
  id : Uuid
  name : String
  direction : PortDirection
  dataType : PortDataType
  required : Bool
  description : String
  deriving DecidableEq

/-- `PortDef::new` with the generated id. -/
def PortDef.new (id : Uuid) (name : String) (direction : PortDirection)
    (dataType : PortDataType) : PortDef :=
  { id, name, direction, dataType, required := false, description := "" }

structure Link where
  id : Uuid
  sourceNode : Uuid
  sourcePort : Uuid
  targetNode : Uuid
  targetPort : Uuid
  label : Option String
  deriving DecidableEq

/-- `Link::new` with the generated id. -/
def Link.new (id sourceNode sourcePort targetNode targetPort : Uuid) : Link :=
  { id, sourceNode, sourcePort, targetNode, targetPort, label := none }

structure Group where
  id : Uuid
  name : String
  nodeIds : BTreeSet Uuid

inductive RelationKind where
  | dependsOn
  | triggers
  | observedBy
  | providesDataTo
  | custom (name : String)
  deriving DecidableEq

structure NodeRelation where
  id : Uuid
  fromNode : Uuid
  toNode : Uuid
  kind : RelationKind
  label : Option String
  metadata : BTreeMap String Json

structure NodeProvenance where
  createdBy : String
  createdAtMs : UInt64
  modifiedBy : Option String
  modifiedAtMs : Option UInt64
  reason : Option String
  taskId : Option String
  deriving DecidableEq

/-- `NodeProvenance::for_actor` at the time `nowMs`. -/
def NodeProvenance.forActor (actor : String) (nowMs : UInt64) : NodeProvenance :=
  { createdBy := actor, createdAtMs := nowMs, modifiedBy := none, modifiedAtMs := none,
    reason := none, taskId := none }

structure GraphNode where
  id : Uuid
  kind : String
  label : String
  ports : BTreeMap Uuid PortDef
  parameters : BTreeMap String Json
  position : UInt64 × UInt64
  subgraphRef : Option Uuid
  provenance : NodeProvenance

/-- `GraphNode::new` with the generated id and the time of creation. -/
def GraphNode.new (id : Uuid) (kind label : String) (nowMs : UInt64) : GraphNode :=
  { id, kind, label, ports := ∅, parameters := ∅, position := (0, 0), subgraphRef := none,
    provenance := .forActor "system" nowMs }

inductive NodeExecutionState where
  | idle
  | running (startedAtMs : UInt64)
  | progress (percent : UInt64) (message : String)
  | complete (finishedAtMs : UInt64) (output : Json)
  | failed (error : String) (failedAtMs : UInt64)
  | cancelled (cancelledAtMs : UInt64)

structure SubgraphOf (σ : Type) where
  id : Uuid
  version : UInt32
  name : String
  description : String
  exposedInputs : BTreeMap Uuid PortDef
  exposedOutputs : BTreeMap Uuid PortDef
  inner : σ

/-- The entries of a schema, each map listed by increasing key. -/
structure InnerSchema where
  schemaVersion : UInt32
  graphId : Uuid
  dimensionId : DimensionId
  nodes : List (Uuid × GraphNode)
  links : List (Uuid × Link)
  groups : List (Uuid × Group)
  subgraphs : List (Uuid × SubgraphOf InnerSchema)
  relations : List (Uuid × NodeRelation)

abbrev Subgraph := SubgraphOf InnerSchema

structure FlowGraphSchema where
  schemaVersion : UInt32
  graphId : Uuid
  dimensionId : DimensionId
  nodes : BTreeMap Uuid GraphNode
  links : BTreeMap Uuid Link
  groups : BTreeMap Uuid Group
  subgraphs : BTreeMap Uuid Subgraph
  relations : BTreeMap Uuid NodeRelation

def graphSchemaVersion : UInt32 := 1

/-- `FlowGraphSchema::new` with the generated graph id. -/
def FlowGraphSchema.new (graphId : Uuid) (dimensionId : DimensionId) : FlowGraphSchema :=
  { schemaVersion := graphSchemaVersion, graphId, dimensionId, nodes := ∅, links := ∅,
    groups := ∅, subgraphs := ∅, relations := ∅ }

structure FlowGraph where
  schema : FlowGraphSchema
  executionStates : HashMap Uuid NodeExecutionState

def FlowGraph.new (graphId : Uuid) (dimensionId : DimensionId) : FlowGraph :=
  { schema := .new graphId dimensionId, executionStates := ∅ }

inductive FlowGraphError where
  | nodeNotFound (id : Uuid)
  | linkNotFound (id : Uuid)
  | portNotFound (nodeId portId : Uuid)
  | groupNotFound (id : Uuid)
  | subgraphNotFound (id : Uuid)
  | relationNotFound (id : Uuid)
  | cycleDetected (nodes : List Uuid)
  | typeMismatch (linkId : Uuid) (sourceType targetType : PortDataType)
  | invalidPatch (message : String)
  deriving DecidableEq

def FlowGraphError.display : FlowGraphError → String
  | nodeNotFound id => "node " ++ id.display ++ " not found in graph"
  | linkNotFound id => "link " ++ id.display ++ " not found in graph"
  | portNotFound nodeId portId =>
      "port " ++ portId.display ++ " not found on node " ++ nodeId.display
  | groupNotFound id => "group " ++ id.display ++ " not found in graph"
  | subgraphNotFound id => "subgraph " ++ id.display ++ " not found in graph"
  | relationNotFound id => "relation " ++ id.display ++ " not found in graph"
  | cycleDetected nodes =>
      "graph contains a cycle through nodes: [" ++
        String.intercalate ", " (nodes.map Uuid.display) ++ "]"
  | typeMismatch linkId sourceType targetType =>
      "type mismatch on link " ++ linkId.display ++ ": source port has type " ++
        sourceType.debug ++ ", target port expects " ++ targetType.debug
  | invalidPatch message => "invalid patch operation: " ++ message

inductive GraphPatchOp where
  | addNode (node : GraphNode)
  | removeNode (id : Uuid)
  | updateNodeLabel (id : Uuid) (newLabel : String)
  | updateNodeParams (id : Uuid) (params : BTreeMap String Json)
  | moveNode (id : Uuid) (position : UInt64 × UInt64)
  | addLink (link : Link)
  | removeLink (id : Uuid)
  | addGroup (group : Group)
  | removeGroup (id : Uuid)
  | addNodeToGroup (nodeId groupId : Uuid)
  | removeNodeFromGroup (nodeId groupId : Uuid)
  | addSubgraph (subgraph : Subgraph)
  | removeSubgraph (id : Uuid)

structure GraphPatch where
  id : Uuid
  author : String
  createdAtMs : UInt64
  ops : List GraphPatchOp

/-- `GraphPatch::new` with the generated id and the time of creation. -/
def GraphPatch.new (id : Uuid) (author : String) (nowMs : UInt64)
    (ops : List GraphPatchOp) : GraphPatch :=
  { id, author, createdAtMs := nowMs, ops }

end Graph

end InfinityOS
