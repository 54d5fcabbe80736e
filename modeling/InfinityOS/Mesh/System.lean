import InfinityOS.Mesh.Store

/-!
# Stores that replicate from each other

The calls on one store as data, and a system of stores joined by replicators. The stores
are named by any type `ι`; a replicator may join any two of them.
-/

namespace InfinityOS

namespace Mesh

/-- A call on a store, with the record id and the clock that it draws. -/
inductive Command where
  | registerSchema (now : UInt64) (contentType version description : String)
  | produce (clock : Clock) (artifact : MeshArtifact)
  | produceValidated (clock : Clock) (artifact : MeshArtifact)
  | produceBatch (clock : Clock) (artifacts : List MeshArtifact)
  | consume (id : ArtifactId)
  | snapshotNode (clock : Clock) (artifactId : ArtifactId) (nodeId : Uuid) (state : Json)
      (taskId : TaskId) (dimensionId : DimensionId)
  | patch (clock : Clock) (artifactId : ArtifactId) (nodeId : Uuid) (before after : Json)
      (ops : List PatchOp) (taskId : TaskId) (dimensionId : DimensionId)
  | patchWithRevision (clock : Clock) (artifactId : ArtifactId) (request : PatchRequest)
  | collectGarbage (policy : GarbageCollectionPolicy)

inductive Answer where
  | schema (definition : SchemaDefinition)
  | id (id : ArtifactId)
  | ids (ids : List ArtifactId)
  | artifact (artifact : MeshArtifact)
  | patched (result : PatchApplyResult)
  | report (report : GarbageCollectionReport)
  | replicated (count : ℕ)

namespace MeshArtifactStore

def run (s : MeshArtifactStore) : Command → Except MeshError Answer × MeshArtifactStore
  | .registerSchema now contentType version description =>
      match s.registerSchema now contentType version description with
      | .error e => (.error e, s)
      | .ok (definition, s) => (.ok (.schema definition), s)
  | .produce clock artifact =>
      let (id, s) := s.produce clock artifact
      (.ok (.id id), s)
  | .produceValidated clock artifact =>
      let (answer, s) := s.produceValidated clock artifact
      (answer.map .id, s)
  | .produceBatch clock artifacts =>
      let (answer, s) := s.produceBatch clock artifacts
      (answer.map .ids, s)
  | .consume id =>
      let (answer, s) := s.consume id
      (answer.map .artifact, s)
  | .snapshotNode clock artifactId nodeId state taskId dimensionId =>
      let (id, s) := s.snapshotNode clock artifactId nodeId state taskId dimensionId
      (.ok (.id id), s)
  | .patch clock artifactId nodeId before after ops taskId dimensionId =>
      let (id, s) := s.patch clock artifactId nodeId before after ops taskId dimensionId
      (.ok (.id id), s)
  | .patchWithRevision clock artifactId request =>
      let (answer, s) := s.patchWithRevision clock artifactId request
      (answer.map .patched, s)
  | .collectGarbage policy =>
      let (report, s) := s.collectGarbage policy
      (.ok (.report report), s)

end MeshArtifactStore

/-- A call in a system of stores. -/
inductive Call (ι : Type) where
  | on (store : ι) (command : Command)
  | replicateArtifact (clock : Clock) (source target : ι) (id : ArtifactId)
  | replicateSnapshot (clock : Clock) (source target : ι) (id : ArtifactId)
  | replicatePatch (clock : Clock) (source target : ι) (id : ArtifactId)
  | replicateNotification (clock : Clock) (source target : ι) (notification : MeshNotification)

abbrev Network (ι : Type) := ι → MeshArtifactStore

namespace Network

variable {ι : Type} [DecidableEq ι]

/-- Empty stores, each made at its own time. -/
def new (start : ι → UInt64) : Network ι :=
  fun i => .new (start i)

def step (net : Network ι) : Call ι → Except MeshError Answer × Network ι
  | .on i command =>
      let (answer, s) := (net i).run command
      (answer, Function.update net i s)
  | .replicateArtifact clock source target id =>
      let (answer, s) := MeshReplicator.replicateArtifact clock (net source) id (net target)
      (answer.map fun _ => .id id, Function.update net target s)
  | .replicateSnapshot clock source target id =>
      let (answer, s) := MeshReplicator.replicateSnapshot clock (net source) id (net target)
      (answer.map fun _ => .id id, Function.update net target s)
  | .replicatePatch clock source target id =>
      let (answer, s) := MeshReplicator.replicatePatch clock (net source) id (net target)
      (answer.map fun _ => .id id, Function.update net target s)
  | .replicateNotification clock source target notification =>
      let (answer, s) :=
        MeshReplicator.replicateNotification clock (net source) notification (net target)
      (answer.map .replicated, Function.update net target s)

end Network

end Mesh

end InfinityOS
