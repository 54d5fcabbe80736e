import InfinityOS.Core.InvertedIndex
import InfinityOS.Mesh.Types

/-!
# The mesh artifact store

`MeshArtifactStore` and `MeshReplicator`, function by function. A call draws its record
id and its readings of the clock from outside. The broadcast channels and the action log
are left out: no operation reads them.
-/

namespace InfinityOS

/-- The readings of the clock after the first `n`. -/
def Clock.after (clock : Clock) (n : ℕ) : Clock :=
  fun k => clock (n + k)

namespace Mesh

open InvertedIndex

/-! ## The index -/

structure ArtifactIndex where
  byDimension : HashMap DimensionId (List ArtifactId)
  byTask : HashMap TaskId (List ArtifactId)
  byNode : HashMap Uuid (List ArtifactId)
  byAgent : HashMap String (List ArtifactId)
  byTag : HashMap String (List ArtifactId)

namespace ArtifactIndex

def insert (index : ArtifactIndex) (artifact : MeshArtifact) : ArtifactIndex where
  byDimension := post index.byDimension artifact.id artifact.dimensionId
  byTask := post index.byTask artifact.id artifact.taskId
  byNode := match artifact.nodeId with
    | some nodeId => post index.byNode artifact.id nodeId
    | none => index.byNode
  byAgent := match artifact.provenance.producingAgentId with
    | some agentId => post index.byAgent artifact.id agentId
    | none => index.byAgent
  byTag := artifact.tags.foldl (fun m tag => post m artifact.id tag) index.byTag

def remove (index : ArtifactIndex) (artifact : MeshArtifact) : ArtifactIndex where
  byDimension := retract index.byDimension artifact.id artifact.dimensionId
  byTask := retract index.byTask artifact.id artifact.taskId
  byNode := match artifact.nodeId with
    | some nodeId => retract index.byNode artifact.id nodeId
    | none => index.byNode
  byAgent := match artifact.provenance.producingAgentId with
    | some agentId => retract index.byAgent artifact.id agentId
    | none => index.byAgent
  byTag := artifact.tags.foldl (fun m tag => retract m artifact.id tag) index.byTag

end ArtifactIndex

/-! ## The store -/

structure MeshArtifactStore where
  artifacts : HashMap ArtifactId MeshArtifact
  snapshots : HashMap ArtifactId NodeSnapshot
  patches : HashMap ArtifactId DiffPatch
  index : ArtifactIndex
  schemaRegistry : MeshSchemaRegistry
  nodeStates : HashMap Uuid MeshNodeState

/-- A text of white space only, by the Unicode property `White_Space`. -/
def isBlank (s : String) : Bool :=
  s.toList.all fun c =>
    (0x9 ≤ c.toNat && c.toNat ≤ 0xD) || c.toNat == 0x20 || c.toNat == 0x85 || c.toNat == 0xA0 ||
    c.toNat == 0x1680 || (0x2000 ≤ c.toNat && c.toNat ≤ 0x200A) || c.toNat == 0x2028 ||
    c.toNat == 0x2029 || c.toNat == 0x202F || c.toNat == 0x205F || c.toNat == 0x3000

/-- `prepare_artifact`. -/
def MeshArtifact.prepare (now : UInt64) (artifact : MeshArtifact) : MeshArtifact :=
  { artifact with
    contentType := if isBlank artifact.contentType then "application/json"
      else artifact.contentType
    provenance := { artifact.provenance with
      schemaVersion := if isBlank artifact.provenance.schemaVersion then "1.0.0"
        else artifact.provenance.schemaVersion
      producingTaskId := artifact.taskId
      producingNodeId := artifact.provenance.producingNodeId.or artifact.nodeId }
    createdAtMs := if artifact.createdAtMs = 0 then now else artifact.createdAtMs
    -- sort, then drop the repetitions next to each other
    tags := (artifact.tags.insertionSort (· ≤ ·)).destutter (· ≠ ·) }

/-- The provenance of snapshots and patches. -/
def nodeProvenance (taskId : TaskId) (nodeId : Uuid) : ArtifactProvenance :=
  { producingTaskId := taskId, producingAgentId := none, producingNodeId := some nodeId,
    controllerId := none, schemaVersion := "1.0.0" }

namespace MeshArtifactStore

/-- `MeshArtifactStore::new`: the default schema is registered; a failure of that is only
logged. -/
def new (now : UInt64) : MeshArtifactStore where
  artifacts := ∅
  snapshots := ∅
  patches := ∅
  index := { byDimension := ∅, byTask := ∅, byNode := ∅, byAgent := ∅, byTag := ∅ }
  schemaRegistry :=
    match MeshSchemaRegistry.registerSchema now "application/json" "1.0.0" "Default JSON schema"
      { schemas := ∅ } with
    | .ok (_, registry) => registry
    | .error _ => { schemas := ∅ }
  nodeStates := ∅

def registerSchema (now : UInt64) (contentType version description : String)
    (s : MeshArtifactStore) : Except MeshError (SchemaDefinition × MeshArtifactStore) :=
  match s.schemaRegistry.registerSchema now contentType version description with
  | .error e => .error e
  | .ok (definition, registry) => .ok (definition, { s with schemaRegistry := registry })

def validateSchema (s : MeshArtifactStore) (contentType version : String) :
    Except MeshError Unit :=
  match SchemaVersion.parse version with
  | .error e => .error e
  | .ok parsed => s.schemaRegistry.validate contentType parsed

def getArtifact (s : MeshArtifactStore) (id : ArtifactId) : Except MeshError MeshArtifact :=
  match s.artifacts[id]? with
  | none => .error (.notFound id)
  | some artifact => .ok artifact

def getSnapshot (s : MeshArtifactStore) (id : ArtifactId) : Except MeshError NodeSnapshot :=
  match s.snapshots[id]? with
  | none => .error (.notFound id)
  | some snapshot => .ok snapshot

def getPatch (s : MeshArtifactStore) (id : ArtifactId) : Except MeshError DiffPatch :=
  match s.patches[id]? with
  | none => .error (.notFound id)
  | some patch => .ok patch

/-! ### Index queries -/

def artifactsForDimension (s : MeshArtifactStore) (dimensionId : DimensionId) : List ArtifactId :=
  lookup s.index.byDimension dimensionId

def artifactsForTask (s : MeshArtifactStore) (taskId : TaskId) : List ArtifactId :=
  lookup s.index.byTask taskId

def artifactsForNode (s : MeshArtifactStore) (nodeId : Uuid) : List ArtifactId :=
  lookup s.index.byNode nodeId

def artifactsForAgent (s : MeshArtifactStore) (agentId : String) : List ArtifactId :=
  lookup s.index.byAgent agentId

def artifactsWithTag (s : MeshArtifactStore) (tag : String) : List ArtifactId :=
  lookup s.index.byTag tag

/-! ### Node states -/

def stateOr (now : UInt64) (nodeId : Uuid) (s : MeshArtifactStore) : MeshNodeState :=
  s.nodeStates[nodeId]?.getD (.new nodeId now)

def currentRevision (s : MeshArtifactStore) (nodeId : Uuid) : UInt64 :=
  (s.nodeStates[nodeId]?.map MeshNodeState.revision).getD 0

def touchNodeState (clock : Clock) (nodeId : Uuid) (update : MeshNodeState → MeshNodeState)
    (s : MeshArtifactStore) : MeshArtifactStore :=
  let state := { update (s.stateOr (clock 0) nodeId) with updatedAtMs := clock 1 }
  { s with nodeStates := s.nodeStates.insert nodeId state }

/-- `advance_revision`. The state of the node is created before the conflict is looked
at, so it stays when the edit is rejected. -/
def advanceRevision (clock : Clock) (nodeId : Uuid) (expectedRevision : UInt64)
    (strategy : ConflictStrategy) (patchId : Option ArtifactId) (s : MeshArtifactStore) :
    Except MeshError (UInt64 × UInt64 × Bool) × MeshArtifactStore :=
  let state := s.stateOr (clock 0) nodeId
  let baseRevision := state.revision
  let conflict := baseRevision != expectedRevision
  if conflict = true ∧ strategy = .reject then
    (.error (.concurrentEdit nodeId expectedRevision baseRevision),
      { s with nodeStates := s.nodeStates.insert nodeId state })
  else
    let newRevision := saturatingAdd baseRevision 1
    let state := { state with
      revision := newRevision
      lastPatchId := patchId.or state.lastPatchId
      updatedAtMs := clock 1 }
    (.ok (baseRevision, newRevision, conflict),
      { s with nodeStates := s.nodeStates.insert nodeId state })

/-! ### Produce and consume -/

/-- The part of `produce` and `produce_batch` under the lock: a record with the id of a
stored one replaces it. -/
def commit (artifact : MeshArtifact) (s : MeshArtifactStore) : MeshArtifactStore :=
  let index := match s.artifacts[artifact.id]? with
    | some old => s.index.remove old
    | none => s.index
  { s with index := index.insert artifact, artifacts := s.artifacts.insert artifact.id artifact }

/-- The update of a node's state after its artifact `id`. -/
def touchArtifact (clock : Clock) (nodeId : Option Uuid) (id : ArtifactId)
    (s : MeshArtifactStore) : MeshArtifactStore :=
  match nodeId with
  | none => s
  | some nodeId => s.touchNodeState clock nodeId fun state =>
      { state with lastArtifactId := some id }

/-- The record that `produce` stores. -/
def produced (now : UInt64) (artifact : MeshArtifact) : MeshArtifact :=
  { artifact.prepare now with consumed := false }

def produce (clock : Clock) (artifact : MeshArtifact) (s : MeshArtifactStore) :
    ArtifactId × MeshArtifactStore :=
  let artifact := produced (clock 0) artifact
  (artifact.id,
    (s.commit artifact).touchArtifact (clock.after 1) artifact.nodeId artifact.id)

def produceValidated (clock : Clock) (artifact : MeshArtifact) (s : MeshArtifactStore) :
    Except MeshError ArtifactId × MeshArtifactStore :=
  let artifact := artifact.prepare (clock 0)
  match s.validateSchema artifact.contentType artifact.provenance.schemaVersion with
  | .error e => (.error e, s)
  | .ok () =>
      let (id, s) := s.produce (clock.after 1) artifact
      (.ok id, s)

/-- The first field in which an artifact of a batch differs from the first artifact. -/
def batchMismatch (base artifact : MeshArtifact) : Option String :=
  if artifact.dimensionId ≠ base.dimensionId then some "dimension_id"
  else if artifact.taskId ≠ base.taskId then some "task_id"
  else if artifact.nodeId ≠ base.nodeId then some "node_id"
  else if artifact.contentType ≠ base.contentType then some "content_type"
  else if artifact.tags ≠ base.tags then some "tags"
  else none

def produceBatch (clock : Clock) (artifacts : List MeshArtifact) (s : MeshArtifactStore) :
    Except MeshError (List ArtifactId) × MeshArtifactStore :=
  match artifacts.mapIdx fun k artifact => artifact.prepare (clock k) with
  | [] => (.error .emptyBatch, s)
  | base :: rest =>
      match (base :: rest).findSome? (batchMismatch base) with
      | some field => (.error (.batchMismatch field), s)
      | none =>
          let batch := (base :: rest).map fun artifact => { artifact with consumed := false }
          let ids := batch.map MeshArtifact.id
          let s := batch.foldl (fun s artifact => s.commit artifact) s
          (.ok ids, match ids.getLast? with
            | none => s
            | some lastId => s.touchArtifact (clock.after artifacts.length) base.nodeId lastId)

def consume (id : ArtifactId) (s : MeshArtifactStore) :
    Except MeshError MeshArtifact × MeshArtifactStore :=
  match s.artifacts[id]? with
  | none => (.error (.notFound id), s)
  | some artifact =>
      if artifact.consumed then
        (.error (.alreadyConsumed id), s)
      else
        let artifact := { artifact with consumed := true }
        (.ok artifact, { s with artifacts := s.artifacts.insert id artifact })

/-! ### Snapshots and patches -/

def snapshotNode (clock : Clock) (artifactId : ArtifactId) (nodeId : Uuid) (state : Json)
    (taskId : TaskId) (dimensionId : DimensionId) (s : MeshArtifactStore) :
    ArtifactId × MeshArtifactStore :=
  let snapshot : NodeSnapshot :=
    { artifactId, dimensionId, taskId, nodeId, state,
      provenance := nodeProvenance taskId nodeId,
      capturedAtMs := clock 0,
      revision := s.currentRevision nodeId }
  let s := { s with snapshots := s.snapshots.insert artifactId snapshot }
  (artifactId, s.touchNodeState (clock.after 1) nodeId fun state =>
    { state with lastSnapshotId := some artifactId })

def storePatch (patch : DiffPatch) (s : MeshArtifactStore) : MeshArtifactStore :=
  { s with patches := s.patches.insert patch.artifactId patch }

/-- `patch`. Its advance of the revision does not fail; the fallback of the source is
kept. -/
def patch (clock : Clock) (artifactId : ArtifactId) (nodeId : Uuid) (before after : Json)
    (ops : List PatchOp) (taskId : TaskId) (dimensionId : DimensionId) (s : MeshArtifactStore) :
    ArtifactId × MeshArtifactStore :=
  let (advanced, s) := s.advanceRevision clock nodeId (s.currentRevision nodeId) .lastWriteWins
    (some artifactId)
  let (baseRevision, newRevision, conflict) := match advanced with
    | .ok revisions => revisions
    | .error _ =>
        let current := s.currentRevision nodeId
        (current, saturatingAdd current 1, true)
  (artifactId, s.storePatch
    { artifactId, dimensionId, taskId, nodeId,
      provenance := nodeProvenance taskId nodeId,
      createdAtMs := clock 2,
      baseRevision, newRevision, conflict, before, after, ops })

def patchWithRevision (clock : Clock) (artifactId : ArtifactId) (request : PatchRequest)
    (s : MeshArtifactStore) : Except MeshError PatchApplyResult × MeshArtifactStore :=
  match s.advanceRevision clock request.nodeId request.expectedRevision request.strategy
    (some artifactId) with
  | (.error e, s) => (.error e, s)
  | (.ok (baseRevision, newRevision, conflict), s) =>
      (.ok { artifactId, newRevision, conflict }, s.storePatch
        { artifactId,
          dimensionId := request.dimensionId,
          taskId := request.taskId,
          nodeId := request.nodeId,
          provenance := nodeProvenance request.taskId request.nodeId,
          createdAtMs := clock 2,
          baseRevision, newRevision, conflict,
          before := request.before,
          after := request.after,
          ops := request.ops })

end MeshArtifactStore

namespace GarbageCollectionPolicy

variable (policy : GarbageCollectionPolicy)

def expires (createdAtMs : UInt64) : Bool :=
  (policy.expireBeforeMs.map fun cutoff => decide (createdAtMs < cutoff)).getD false

def inactive (dimensionId : DimensionId) : Bool :=
  !policy.activeDimensions.isEmpty && !policy.activeDimensions.contains dimensionId

def removesArtifact (artifact : MeshArtifact) : Bool :=
  policy.expires artifact.createdAtMs ||
    (policy.inactive artifact.dimensionId && artifact.immutabilityTier ≤ 1) ||
    (policy.removeConsumedEphemeral && artifact.immutabilityTier == 0 && artifact.consumed)

def removesSnapshot (knownNodes : HashMap Uuid MeshNodeState) (snapshot : NodeSnapshot) : Bool :=
  policy.expires snapshot.capturedAtMs || policy.inactive snapshot.dimensionId ||
    (policy.removeOrphanedNodes && !knownNodes.contains snapshot.nodeId)

def removesPatch (patch : DiffPatch) : Bool :=
  policy.expires patch.createdAtMs || policy.inactive patch.dimensionId

end GarbageCollectionPolicy

/-- A node state that points to a removed artifact of its node forgets it. -/
def forgetArtifact (states : HashMap Uuid MeshNodeState) (artifact : MeshArtifact) :
    HashMap Uuid MeshNodeState :=
  match artifact.nodeId with
  | none => states
  | some nodeId =>
      match states[nodeId]? with
      | none => states
      | some state =>
          if state.lastArtifactId = some artifact.id then
            states.insert nodeId { state with lastArtifactId := none }
          else
            states

namespace MeshArtifactStore

def collectGarbage (policy : GarbageCollectionPolicy) (s : MeshArtifactStore) :
    GarbageCollectionReport × MeshArtifactStore :=
  let removedArtifacts :=
    (s.artifacts.toList.filter fun p => policy.removesArtifact p.2).map Prod.snd
  let nodeStates := removedArtifacts.foldl forgetArtifact s.nodeStates
  let snapshots := s.snapshots.filter fun _ snapshot => !policy.removesSnapshot nodeStates snapshot
  let patches := s.patches.filter fun _ patch => !policy.removesPatch patch
  ({ artifactsRemoved := removedArtifacts.length
     snapshotsRemoved := (s.snapshots.toList.filter fun p =>
       policy.removesSnapshot nodeStates p.2).length
     patchesRemoved := (s.patches.toList.filter fun p => policy.removesPatch p.2).length },
   { s with
     artifacts := s.artifacts.filter fun _ artifact => !policy.removesArtifact artifact
     index := removedArtifacts.foldl ArtifactIndex.remove s.index
     nodeStates, snapshots, patches })

/-! ### Replication -/

def insertReplicatedArtifact (clock : Clock) (artifact : MeshArtifact) (s : MeshArtifactStore) :
    Except MeshError Unit × MeshArtifactStore :=
  if artifact.id ∈ s.artifacts then
    (.error (.alreadyExists artifact.id), s)
  else
    let s := { s with
      index := s.index.insert artifact
      artifacts := s.artifacts.insert artifact.id artifact }
    (.ok (), s.touchArtifact clock artifact.nodeId artifact.id)

def insertReplicatedSnapshot (clock : Clock) (snapshot : NodeSnapshot) (s : MeshArtifactStore) :
    Except MeshError Unit × MeshArtifactStore :=
  if snapshot.artifactId ∈ s.snapshots then
    (.error (.alreadyExists snapshot.artifactId), s)
  else
    let s := { s with snapshots := s.snapshots.insert snapshot.artifactId snapshot }
    (.ok (), s.touchNodeState clock snapshot.nodeId fun state =>
      if snapshot.revision ≥ state.revision then
        { state with lastSnapshotId := some snapshot.artifactId, revision := snapshot.revision }
      else
        state)

def insertReplicatedPatch (clock : Clock) (patch : DiffPatch) (s : MeshArtifactStore) :
    Except MeshError Unit × MeshArtifactStore :=
  if patch.artifactId ∈ s.patches then
    (.error (.alreadyExists patch.artifactId), s)
  else
    let s := { s with patches := s.patches.insert patch.artifactId patch }
    (.ok (), s.touchNodeState clock patch.nodeId fun state =>
      if patch.newRevision ≥ state.revision then
        { state with lastPatchId := some patch.artifactId, revision := patch.newRevision }
      else
        state)

end MeshArtifactStore

namespace MeshReplicator

/-- `replicate_artifact`, from `source` to `target`. -/
def replicateArtifact (clock : Clock) (source : MeshArtifactStore) (id : ArtifactId)
    (target : MeshArtifactStore) : Except MeshError Unit × MeshArtifactStore :=
  match source.getArtifact id with
  | .error e => (.error e, target)
  | .ok artifact => target.insertReplicatedArtifact clock artifact

def replicateSnapshot (clock : Clock) (source : MeshArtifactStore) (id : ArtifactId)
    (target : MeshArtifactStore) : Except MeshError Unit × MeshArtifactStore :=
  match source.getSnapshot id with
  | .error e => (.error e, target)
  | .ok snapshot => target.insertReplicatedSnapshot clock snapshot

def replicatePatch (clock : Clock) (source : MeshArtifactStore) (id : ArtifactId)
    (target : MeshArtifactStore) : Except MeshError Unit × MeshArtifactStore :=
  match source.getPatch id with
  | .error e => (.error e, target)
  | .ok patch => target.insertReplicatedPatch clock patch

/-- The step of `replicate_notification` for one id. -/
def replicateId (clock : Clock) (source : MeshArtifactStore) (kind : MeshNotificationKind)
    (id : ArtifactId) (target : MeshArtifactStore) : Except MeshError Unit × MeshArtifactStore :=
  match kind with
  | .snapshot => replicateSnapshot clock source id target
  | .patch => replicatePatch clock source id target
  | .replicated =>
      if id ∈ source.snapshots then replicateSnapshot clock source id target
      else if id ∈ source.patches then replicatePatch clock source id target
      else replicateArtifact clock source id target
  | _ => replicateArtifact clock source id target

/-- The loop of `replicate_notification`; an id draws two readings of the clock. -/
def replicateIds (source : MeshArtifactStore) (kind : MeshNotificationKind) :
    Clock → List ArtifactId → MeshArtifactStore → Except MeshError ℕ × MeshArtifactStore
  | _, [], target => (.ok 0, target)
  | clock, id :: ids, target =>
      match replicateId clock source kind id target with
      | (.error e, target) => (.error e, target)
      | (.ok (), target) =>
          let (replicated, target) := replicateIds source kind (clock.after 2) ids target
          (replicated.map (· + 1), target)

def replicateNotification (clock : Clock) (source : MeshArtifactStore)
    (notification : MeshNotification) (target : MeshArtifactStore) :
    Except MeshError ℕ × MeshArtifactStore :=
  replicateIds source notification.kind clock notification.ids target

end MeshReplicator

end Mesh

end InfinityOS
