import InfinityOS.Core.Types

/-!
# The mesh canvas: data

Artifacts, node snapshots and patches with their provenance, the registry of artifact
schemas, the state kept for a node, garbage collection policies and the requests and
notifications of the store.
-/

namespace InfinityOS

abbrev ArtifactId := Uuid

namespace Mesh

inductive MeshError where
  | notFound (id : ArtifactId)
  | alreadyConsumed (id : ArtifactId)
  | invalidSchemaVersion (value : String)
  | schemaNotRegistered (contentType version : String)
  | schemaVersionMismatch (contentType expected actual : String)
  | concurrentEdit (nodeId : Uuid) (expected current : UInt64)
  | batchMismatch (field : String)
  | emptyBatch
  | alreadyExists (id : ArtifactId)
  deriving DecidableEq

/-! ## Schemas -/

structure SchemaVersion where
  major : UInt32
  minor : UInt32
  patch : UInt32
  deriving DecidableEq

/-- `str::parse::<u32>`: an optional plus sign and decimal digits. -/
def parseU32 (s : List Char) : Option UInt32 :=
  let digits : List Char := match s with
    | '+' :: rest => rest
    | s => s
  let value : ℕ := digits.foldl (fun n c => 10 * n + (c.toNat - 48)) 0
  if digits ≠ [] ∧ digits.all Char.isDigit = true ∧ value < 2 ^ 32 then
    some (UInt32.ofNat value)
  else
    none

namespace SchemaVersion

/-- The derived order: by major, minor and patch number. -/
instance : Ord SchemaVersion :=
  ⟨compareLex (compareOn major) (compareLex (compareOn minor) (compareOn patch))⟩

instance : Std.TransOrd SchemaVersion :=
  inferInstanceAs
    (Std.TransCmp (compareLex (compareOn major) (compareLex (compareOn minor) (compareOn patch))))

def parse (value : String) : Except MeshError SchemaVersion :=
  match value.toList.splitOn '.' with
  | [first, second, third] =>
      match parseU32 first with
      | none => .error (.invalidSchemaVersion value)
      | some major =>
          match parseU32 second with
          | none => .error (.invalidSchemaVersion value)
          | some minor =>
              match parseU32 third with
              | none => .error (.invalidSchemaVersion value)
              | some patch => .ok { major, minor, patch }
  | _ => .error (.invalidSchemaVersion value)

def display (v : SchemaVersion) : String :=
  v.major.toNat.repr ++ "." ++ v.minor.toNat.repr ++ "." ++ v.patch.toNat.repr

end SchemaVersion

structure SchemaDefinition where
  contentType : String
  version : SchemaVersion
  description : String
  registeredAtMs : UInt64

structure MeshSchemaRegistry where
  schemas : HashMap String (BTreeMap SchemaVersion SchemaDefinition)

namespace MeshSchemaRegistry

def registerSchema (now : UInt64) (contentType version description : String)
    (registry : MeshSchemaRegistry) : Except MeshError (SchemaDefinition × MeshSchemaRegistry) :=
  match SchemaVersion.parse version with
  | .error e => .error e
  | .ok version =>
      let definition := { contentType, version, description, registeredAtMs := now }
      let entry := registry.schemas[contentType]?.getD ∅
      .ok (definition,
        { schemas := registry.schemas.insert contentType (entry.insert version definition) })

def validate (registry : MeshSchemaRegistry) (contentType : String) (version : SchemaVersion) :
    Except MeshError Unit :=
  match registry.schemas[contentType]? with
  | none => .error (.schemaNotRegistered contentType version.display)
  | some versions =>
      if version ∈ versions then
        .ok ()
      else
        match versions.toList.reverse.find? fun p => p.1.major == version.major with
        | some (expected, _) =>
            .error (.schemaVersionMismatch contentType expected.display version.display)
        | none => .error (.schemaNotRegistered contentType version.display)

end MeshSchemaRegistry

/-! ## Records -/

structure ArtifactProvenance where
  producingTaskId : TaskId
  producingAgentId : Option String
  producingNodeId : Option Uuid
  controllerId : Option Uuid
  schemaVersion : String
  deriving DecidableEq

structure MeshArtifact where
  id : ArtifactId
  dimensionId : DimensionId
  taskId : TaskId
  nodeId : Option Uuid
  contentType : String
  tags : List String
  payload : Json
  provenance : ArtifactProvenance
  createdAtMs : UInt64
  immutabilityTier : UInt8
  consumed : Bool

structure NodeSnapshot where
  artifactId : ArtifactId
  dimensionId : DimensionId
  taskId : TaskId
  nodeId : Uuid
  state : Json
  provenance : ArtifactProvenance
  capturedAtMs : UInt64
  revision : UInt64

inductive PatchOp where
  | add (path : String) (value : Json)
  | remove (path : String)
  | replace (path : String) (old new : Json)

structure DiffPatch where
  artifactId : ArtifactId
  dimensionId : DimensionId
  taskId : TaskId
  nodeId : Uuid
  provenance : ArtifactProvenance
  createdAtMs : UInt64
  baseRevision : UInt64
  newRevision : UInt64
  conflict : Bool
  before : Json
  after : Json
  ops : List PatchOp

/-! ## Node states, requests and notifications -/

structure MeshNodeState where
  nodeId : Uuid
  revision : UInt64
  lastArtifactId : Option ArtifactId
  lastSnapshotId : Option ArtifactId
  lastPatchId : Option ArtifactId
  updatedAtMs : UInt64
  deriving DecidableEq

def MeshNodeState.new (nodeId : Uuid) (now : UInt64) : MeshNodeState :=
  { nodeId, revision := 0, lastArtifactId := none, lastSnapshotId := none, lastPatchId := none,
    updatedAtMs := now }

inductive ConflictStrategy where
  | reject
  | lastWriteWins
  deriving DecidableEq

structure PatchRequest where
  nodeId : Uuid
  before : Json
  after : Json
  ops : List PatchOp
  taskId : TaskId
  dimensionId : DimensionId
  expectedRevision : UInt64
  strategy : ConflictStrategy

structure PatchApplyResult where
  artifactId : ArtifactId
  newRevision : UInt64
  conflict : Bool
  deriving DecidableEq

inductive MeshNotificationKind where
  | produced
  | consumed
  | snapshot
  | patch
  | batchProduced
  | replicated
  deriving DecidableEq

/-- A notification, as far as replication reads it. -/
structure MeshNotification where
  ids : List ArtifactId
  kind : MeshNotificationKind

structure GarbageCollectionPolicy where
  activeDimensions : BTreeSet DimensionId
  removeConsumedEphemeral : Bool
  removeOrphanedNodes : Bool
  expireBeforeMs : Option UInt64

structure GarbageCollectionReport where
  artifactsRemoved : ℕ
  snapshotsRemoved : ℕ
  patchesRemoved : ℕ
  deriving DecidableEq

end Mesh

end InfinityOS
