import InfinityOS.Mesh.System

/-!
# What a call does to the artifacts

The artifacts and their index change in four ways only: a record is committed, consumed,
collected or received from another store. `run_effect` and `step_effect` say which calls do
which, so that no proof about the artifacts looks into the calls again.
-/

namespace InfinityOS

namespace Mesh

open MeshArtifactStore

def SameTable (s t : MeshArtifactStore) : Prop :=
  t.artifacts = s.artifacts ∧ t.index = s.index

theorem SameTable.refl (s : MeshArtifactStore) : SameTable s s :=
  ⟨rfl, rfl⟩

theorem SameTable.trans {s t u : MeshArtifactStore} (hst : SameTable s t) (htu : SameTable t u) :
    SameTable s u :=
  ⟨htu.1.trans hst.1, htu.2.trans hst.2⟩

theorem sameTable_touchNodeState (clock : Clock) (nodeId : Uuid)
    (update : MeshNodeState → MeshNodeState) (s : MeshArtifactStore) :
    SameTable s (s.touchNodeState clock nodeId update) :=
  ⟨rfl, rfl⟩

theorem sameTable_touchArtifact (clock : Clock) (nodeId : Option Uuid) (id : ArtifactId)
    (s : MeshArtifactStore) : SameTable s (s.touchArtifact clock nodeId id) := by
  cases nodeId with
  | none => exact SameTable.refl s
  | some nodeId => exact sameTable_touchNodeState clock nodeId _ s

theorem sameTable_advanceRevision (clock : Clock) (nodeId : Uuid) (expected : UInt64)
    (strategy : ConflictStrategy) (patchId : Option ArtifactId) (s : MeshArtifactStore) :
    SameTable s (s.advanceRevision clock nodeId expected strategy patchId).2 := by
  simp only [advanceRevision]
  split
  · exact ⟨rfl, rfl⟩
  · exact ⟨rfl, rfl⟩

theorem sameTable_patchWithRevision (clock : Clock) (artifactId : ArtifactId)
    (request : PatchRequest) (s : MeshArtifactStore) :
    SameTable s (s.patchWithRevision clock artifactId request).2 := by
  have h := sameTable_advanceRevision clock request.nodeId request.expectedRevision
    request.strategy (some artifactId) s
  unfold patchWithRevision
  split
  · next heq => simpa only [heq] using h
  · next heq =>
      rw [heq] at h
      exact h

/-! ## Commands -/

/-- The records that a command commits, in order. -/
def Command.written (s : MeshArtifactStore) : Command → List MeshArtifact
  | .produce clock artifact => [produced (clock 0) artifact]
  | .produceValidated clock artifact =>
      let artifact := artifact.prepare (clock 0)
      match s.validateSchema artifact.contentType artifact.provenance.schemaVersion with
      | .error _ => []
      | .ok () => [produced (clock 1) artifact]
  | .produceBatch clock artifacts =>
      match artifacts.mapIdx fun k artifact => artifact.prepare (clock k) with
      | [] => []
      | base :: rest =>
          match (base :: rest).findSome? (batchMismatch base) with
          | some _ => []
          | none => (base :: rest).map fun artifact => { artifact with consumed := false }
  | _ => []

inductive TableEffect (s : MeshArtifactStore) : Command → MeshArtifactStore → Prop where
  | wrote {command : Command} {t : MeshArtifactStore}
      (h : SameTable ((command.written s).foldl (fun s artifact => s.commit artifact) s) t) :
      TableEffect s command t
  | consumed {id : ArtifactId} {artifact : MeshArtifact} (hget : s.artifacts[id]? = some artifact)
      (hnew : artifact.consumed = false) :
      TableEffect s (.consume id)
        { s with artifacts := s.artifacts.insert id { artifact with consumed := true } }
  | collected (policy : GarbageCollectionPolicy) :
      TableEffect s (.collectGarbage policy) (s.collectGarbage policy).2

theorem sameTable_produce (clock : Clock) (artifact : MeshArtifact) (s : MeshArtifactStore) :
    SameTable (s.commit (produced (clock 0) artifact)) (s.produce clock artifact).2 :=
  sameTable_touchArtifact _ _ _ _

theorem sameTable_produceValidated (clock : Clock) (artifact : MeshArtifact)
    (s : MeshArtifactStore) :
    SameTable (((Command.produceValidated clock artifact).written s).foldl
      (fun s artifact => s.commit artifact) s) (s.produceValidated clock artifact).2 := by
  simp only [produceValidated, Command.written]
  cases s.validateSchema (artifact.prepare (clock 0)).contentType
    (artifact.prepare (clock 0)).provenance.schemaVersion with
  | error e => exact SameTable.refl s
  | ok u => exact sameTable_produce (clock.after 1) (artifact.prepare (clock 0)) s

theorem sameTable_produceBatch (clock : Clock) (artifacts : List MeshArtifact)
    (s : MeshArtifactStore) :
    SameTable (((Command.produceBatch clock artifacts).written s).foldl
      (fun s artifact => s.commit artifact) s) (s.produceBatch clock artifacts).2 := by
  simp only [produceBatch, Command.written]
  cases artifacts.mapIdx fun k artifact => artifact.prepare (clock k) with
  | nil => exact SameTable.refl s
  | cons base rest =>
      simp only
      cases (base :: rest).findSome? (batchMismatch base) with
      | some field => exact SameTable.refl s
      | none =>
          simp only
          split
          · exact SameTable.refl _
          · exact sameTable_touchArtifact _ _ _ _

theorem run_effect (s : MeshArtifactStore) (command : Command) :
    TableEffect s command (s.run command).2 := by
  cases command with
  | registerSchema now contentType version description =>
      apply TableEffect.wrote
      simp only [run, registerSchema, Command.written, List.foldl_nil]
      cases s.schemaRegistry.registerSchema now contentType version description with
      | error e => exact SameTable.refl s
      | ok answer => exact ⟨rfl, rfl⟩
  | produce clock artifact => exact .wrote (sameTable_produce clock artifact s)
  | produceValidated clock artifact => exact .wrote (sameTable_produceValidated clock artifact s)
  | produceBatch clock artifacts => exact .wrote (sameTable_produceBatch clock artifacts s)
  | consume id =>
      simp only [run, consume]
      cases hget : s.artifacts[id]? with
      | none => exact .wrote (SameTable.refl s)
      | some artifact =>
          cases hnew : artifact.consumed with
          | true => exact .wrote (by simpa [hnew, Command.written] using SameTable.refl s)
          | false => simpa [hnew] using TableEffect.consumed hget hnew
  | snapshotNode clock artifactId nodeId state taskId dimensionId => exact .wrote ⟨rfl, rfl⟩
  | patch clock artifactId nodeId before after ops taskId dimensionId =>
      exact .wrote (sameTable_advanceRevision clock nodeId _ _ _ s)
  | patchWithRevision clock artifactId request =>
      exact .wrote (sameTable_patchWithRevision clock artifactId request s)
  | collectGarbage policy => exact .collected policy

/-! ## Replication -/

/-- One step of a replication out of `source`: a record whose id is new is inserted, or the
artifacts stay as they are. -/
inductive Receives (source s : MeshArtifactStore) : MeshArtifactStore → Prop where
  | same {t : MeshArtifactStore} (h : SameTable s t) : Receives source s t
  | artifact {id : ArtifactId} {artifact : MeshArtifact} {t : MeshArtifactStore}
      (hsource : source.artifacts[id]? = some artifact)
      (hnew : s.artifacts[artifact.id]? = none)
      (hartifacts : t.artifacts = s.artifacts.insert artifact.id artifact)
      (hindex : t.index = s.index.insert artifact) : Receives source s t

theorem receives_replicateArtifact (clock : Clock) (source s : MeshArtifactStore)
    (id : ArtifactId) : Receives source s (MeshReplicator.replicateArtifact clock source id s).2 := by
  unfold MeshReplicator.replicateArtifact getArtifact
  cases hget : source.artifacts[id]? with
  | none => exact .same (SameTable.refl s)
  | some artifact =>
      simp only [insertReplicatedArtifact]
      by_cases hmem : artifact.id ∈ s.artifacts
      · rw [if_pos hmem]
        exact .same (SameTable.refl s)
      · rw [if_neg hmem]
        have hsame := sameTable_touchArtifact clock artifact.nodeId artifact.id
          { s with
            index := s.index.insert artifact
            artifacts := s.artifacts.insert artifact.id artifact }
        exact .artifact hget (Std.ExtTreeMap.getElem?_eq_none hmem) hsame.1 hsame.2

theorem receives_replicateSnapshot (clock : Clock) (source s : MeshArtifactStore)
    (id : ArtifactId) : Receives source s (MeshReplicator.replicateSnapshot clock source id s).2 := by
  apply Receives.same
  unfold MeshReplicator.replicateSnapshot insertReplicatedSnapshot
  split
  · exact SameTable.refl s
  · split
    · exact SameTable.refl s
    · exact ⟨rfl, rfl⟩

theorem receives_replicatePatch (clock : Clock) (source s : MeshArtifactStore)
    (id : ArtifactId) : Receives source s (MeshReplicator.replicatePatch clock source id s).2 := by
  apply Receives.same
  unfold MeshReplicator.replicatePatch insertReplicatedPatch
  split
  · exact SameTable.refl s
  · split
    · exact SameTable.refl s
    · exact ⟨rfl, rfl⟩

theorem receives_replicateId (clock : Clock) (source s : MeshArtifactStore)
    (kind : MeshNotificationKind) (id : ArtifactId) :
    Receives source s (MeshReplicator.replicateId clock source kind id s).2 := by
  unfold MeshReplicator.replicateId
  cases kind with
  | snapshot => exact receives_replicateSnapshot clock source s id
  | patch => exact receives_replicatePatch clock source s id
  | replicated =>
      simp only
      split
      · exact receives_replicateSnapshot clock source s id
      · split
        · exact receives_replicatePatch clock source s id
        · exact receives_replicateArtifact clock source s id
  | produced => exact receives_replicateArtifact clock source s id
  | consumed => exact receives_replicateArtifact clock source s id
  | batchProduced => exact receives_replicateArtifact clock source s id

theorem receives_replicateIds (source : MeshArtifactStore) (kind : MeshNotificationKind)
    (clock : Clock) (ids : List ArtifactId) (s : MeshArtifactStore) :
    Relation.ReflTransGen (Receives source) s
      (MeshReplicator.replicateIds source kind clock ids s).2 := by
  induction ids generalizing clock s with
  | nil => exact .refl
  | cons id ids ih =>
      have hhead := receives_replicateId clock source s kind id
      unfold MeshReplicator.replicateIds
      cases hstep : MeshReplicator.replicateId clock source kind id s with
      | mk answer t =>
          rw [hstep] at hhead
          cases answer with
          | error e => exact .single hhead
          | ok u => exact .head hhead (ih (clock.after 2) t)

/-! ## A system of stores -/

variable {ι : Type} [DecidableEq ι]

theorem update_receives {net : Network ι} {source target : ι} {t : MeshArtifactStore}
    (h : Relation.ReflTransGen (Receives (net source)) (net target) t) (i : ι) :
    Function.update net target t i = net i ∨
      ∃ source, Relation.ReflTransGen (Receives (net source)) (net i)
        (Function.update net target t i) := by
  by_cases hi : i = target
  · subst hi
    right
    exact ⟨source, by simpa using h⟩
  · left
    simp [hi]

/-- A call changes one store: by a command, or by what it receives from another. -/
theorem step_effect (net : Network ι) (call : Call ι) (i : ι) :
    (Network.step net call).2 i = net i ∨
      (∃ command, call = .on i command ∧
        (Network.step net call).2 i = ((net i).run command).2) ∨
      ((∀ j command, call ≠ .on j command) ∧
        ∃ source, Relation.ReflTransGen (Receives (net source)) (net i)
          ((Network.step net call).2 i)) := by
  cases call with
  | on j command =>
      by_cases hij : i = j
      · subst hij
        exact .inr (.inl ⟨command, rfl, by simp [Network.step]⟩)
      · exact .inl (by simp [Network.step, hij])
  | replicateArtifact clock source target id =>
      have h := update_receives
        (.single (receives_replicateArtifact clock (net source) (net target) id)) i
      exact h.imp_right fun h => .inr ⟨by simp, h⟩
  | replicateSnapshot clock source target id =>
      have h := update_receives
        (.single (receives_replicateSnapshot clock (net source) (net target) id)) i
      exact h.imp_right fun h => .inr ⟨by simp, h⟩
  | replicatePatch clock source target id =>
      have h := update_receives
        (.single (receives_replicatePatch clock (net source) (net target) id)) i
      exact h.imp_right fun h => .inr ⟨by simp, h⟩
  | replicateNotification clock source target notification =>
      have h := update_receives
        (receives_replicateIds (net source) notification.kind clock notification.ids
          (net target)) i
      exact h.imp_right fun h => .inr ⟨by simp, h⟩

end Mesh

end InfinityOS
