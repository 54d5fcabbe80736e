import InfinityOS.Mesh.Index

/-!
# Garbage collection

What a policy selects, said apart from the order in which `collect_garbage` looks for it: the
collection removes that, counts it and has nothing to do a second time. Of the pointers of a
node, only the one to its last artifact is looked at, and only where the removed artifact
belongs to the node itself.
-/

namespace InfinityOS

namespace Mesh

open MeshArtifactStore

/-! ## What a policy selects -/

namespace GarbageCollectionPolicy

variable (policy : GarbageCollectionPolicy)

def Expired (createdAtMs : UInt64) : Prop :=
  ∃ cutoff, policy.expireBeforeMs = some cutoff ∧ createdAtMs < cutoff

def Inactive (dimensionId : DimensionId) : Prop :=
  (∃ d, d ∈ policy.activeDimensions) ∧ dimensionId ∉ policy.activeDimensions

def SelectsArtifact (artifact : MeshArtifact) : Prop :=
  policy.Expired artifact.createdAtMs ∨
    (policy.Inactive artifact.dimensionId ∧ artifact.immutabilityTier ≤ 1) ∨
    (policy.removeConsumedEphemeral = true ∧ artifact.immutabilityTier = 0 ∧
      artifact.consumed = true)

def SelectsSnapshot (s : MeshArtifactStore) (snapshot : NodeSnapshot) : Prop :=
  policy.Expired snapshot.capturedAtMs ∨ policy.Inactive snapshot.dimensionId ∨
    (policy.removeOrphanedNodes = true ∧ s.nodeStates[snapshot.nodeId]? = none)

def SelectsPatch (patch : DiffPatch) : Prop :=
  policy.Expired patch.createdAtMs ∨ policy.Inactive patch.dimensionId

variable {policy}

theorem expires_iff (createdAtMs : UInt64) :
    policy.expires createdAtMs = true ↔ policy.Expired createdAtMs := by
  unfold expires Expired
  cases policy.expireBeforeMs with
  | none => simp
  | some cutoff => simp

theorem inactive_iff (dimensionId : DimensionId) :
    policy.inactive dimensionId = true ↔ policy.Inactive dimensionId := by
  unfold inactive Inactive
  rw [Bool.and_eq_true, Bool.not_eq_true', Bool.not_eq_true', ← Std.ExtTreeSet.contains_iff_mem,
    Bool.not_eq_true, Std.ExtTreeSet.isEmpty_eq_false_iff,
    Std.ExtTreeSet.eq_empty_iff_forall_not_mem, not_forall_not]

theorem removesArtifact_iff (artifact : MeshArtifact) :
    policy.removesArtifact artifact = true ↔ policy.SelectsArtifact artifact := by
  unfold removesArtifact SelectsArtifact
  simp only [Bool.or_eq_true, Bool.and_eq_true, decide_eq_true_eq, beq_iff_eq, expires_iff,
    inactive_iff, or_assoc, and_assoc]

theorem removesPatch_iff (patch : DiffPatch) :
    policy.removesPatch patch = true ↔ policy.SelectsPatch patch := by
  unfold removesPatch SelectsPatch
  rw [Bool.or_eq_true, expires_iff, inactive_iff]

end GarbageCollectionPolicy

/-! ## The states of the nodes -/

def PointsTo (nodeId : Uuid) (state : MeshNodeState) (artifact : MeshArtifact) : Prop :=
  artifact.nodeId = some nodeId ∧ state.lastArtifactId = some artifact.id

instance (nodeId : Uuid) (state : MeshNodeState) (artifact : MeshArtifact) :
    Decidable (PointsTo nodeId state artifact) :=
  inferInstanceAs (Decidable (_ ∧ _))

/-- The state of the node without a pointer to one of its artifacts among `gone`. -/
def repaired (gone : List MeshArtifact) (nodeId : Uuid) (state : MeshNodeState) : MeshNodeState :=
  if ∃ artifact ∈ gone, PointsTo nodeId state artifact then
    { state with lastArtifactId := none }
  else
    state

theorem repaired_nil (nodeId : Uuid) (state : MeshNodeState) : repaired [] nodeId state = state :=
  if_neg (by simp)

theorem repaired_singleton (artifact : MeshArtifact) (nodeId : Uuid) (state : MeshNodeState) :
    repaired [artifact] nodeId state =
      if PointsTo nodeId state artifact then { state with lastArtifactId := none } else state := by
  simp [repaired]

theorem lastSnapshotId_repaired (gone : List MeshArtifact) (nodeId : Uuid)
    (state : MeshNodeState) :
    (repaired gone nodeId state).lastSnapshotId = state.lastSnapshotId := by
  unfold repaired
  split <;> rfl

theorem lastPatchId_repaired (gone : List MeshArtifact) (nodeId : Uuid) (state : MeshNodeState) :
    (repaired gone nodeId state).lastPatchId = state.lastPatchId := by
  unfold repaired
  split <;> rfl

theorem lastArtifactId_repaired_iff (gone : List MeshArtifact) (nodeId : Uuid)
    (state : MeshNodeState) (id : ArtifactId) :
    (repaired gone nodeId state).lastArtifactId = some id ↔
      state.lastArtifactId = some id ∧
        ¬ ∃ artifact ∈ gone, artifact.id = id ∧ artifact.nodeId = some nodeId := by
  unfold repaired
  split
  · next h =>
      obtain ⟨artifact, hmem, hnode, hlast⟩ := h
      refine iff_of_false (by simp) ?_
      rintro ⟨hid, hnone⟩
      rw [hlast, Option.some.injEq] at hid
      exact hnone ⟨artifact, hmem, hid, hnode⟩
  · next h =>
      refine ⟨fun hid => ⟨hid, ?_⟩, fun hid => hid.1⟩
      rintro ⟨artifact, hmem, rfl, hnode⟩
      exact h ⟨artifact, hmem, hnode, hid⟩

theorem repaired_repaired (artifact : MeshArtifact) (gone : List MeshArtifact) (nodeId : Uuid)
    (state : MeshNodeState) :
    repaired gone nodeId (repaired [artifact] nodeId state) =
      repaired (artifact :: gone) nodeId state := by
  rw [repaired_singleton]
  by_cases hhead : PointsTo nodeId state artifact
  · have hcons : ∃ other ∈ artifact :: gone, PointsTo nodeId state other :=
      ⟨artifact, List.mem_cons_self, hhead⟩
    rw [if_pos hhead, repaired, repaired, if_pos hcons, if_neg]
    -- the pointer is gone, so no other artifact is pointed to
    rintro ⟨other, -, -, hlast⟩
    cases hlast
  · rw [if_neg hhead, repaired, repaired]
    simp only [List.exists_mem_cons_iff, hhead, false_or]

theorem getElem?_forgetArtifact (states : HashMap Uuid MeshNodeState) (artifact : MeshArtifact)
    (nodeId : Uuid) :
    (forgetArtifact states artifact)[nodeId]? =
      states[nodeId]?.map (repaired [artifact] nodeId) := by
  have other (h : artifact.nodeId ≠ some nodeId) :
      states[nodeId]? = states[nodeId]?.map (repaired [artifact] nodeId) := by
    have hid : repaired [artifact] nodeId = fun state => state := by
      funext state
      rw [repaired_singleton, if_neg fun hpoints => h hpoints.1]
    rw [hid, Option.map_id']
  cases hnode : artifact.nodeId with
  | none =>
      rw [← other (by simp [hnode])]
      simp only [forgetArtifact, hnode]
  | some m =>
      simp only [forgetArtifact, hnode]
      by_cases hm : nodeId = m
      · subst hm
        split
        · next hstate => simp [hstate]
        · next state hstate =>
            by_cases hlast : state.lastArtifactId = some artifact.id
            · simp [hlast, hstate, repaired_singleton, PointsTo, hnode]
            · simp [hlast, hstate, repaired_singleton, PointsTo]
      · rw [← other (by simpa [hnode] using Ne.symm hm)]
        split
        · rfl
        · split
          · rw [Maps.getElem?_insert_ite, if_neg hm]
          · rfl

theorem getElem?_foldl_forgetArtifact (gone : List MeshArtifact)
    (states : HashMap Uuid MeshNodeState) (nodeId : Uuid) :
    (gone.foldl forgetArtifact states)[nodeId]? =
      states[nodeId]?.map (repaired gone nodeId) := by
  induction gone generalizing states with
  | nil =>
      rw [List.foldl_nil, funext (repaired_nil nodeId), Option.map_id']
  | cons artifact gone ih =>
      rw [List.foldl_cons, ih, getElem?_forgetArtifact, Option.map_map]
      congr 1
      funext state
      exact repaired_repaired artifact gone nodeId state

/-! ## What a collection removes -/

/-- The id of a record that was there before and is not there afterwards. -/
def Removed {β : Type} (idOf : β → ArtifactId) (before after : HashMap ArtifactId β)
    (id : ArtifactId) : Prop :=
  ∃ (k : ArtifactId) (r : β), before[k]? = some r ∧ after[k]? = none ∧ idOf r = id

/-- No pointer of a node refers to a record that `t` has lost. -/
def NoneDangling (s t : MeshArtifactStore) : Prop :=
  ∀ (nodeId : Uuid) (state : MeshNodeState) (id : ArtifactId), t.nodeStates[nodeId]? = some state →
    (state.lastArtifactId = some id → ¬ Removed MeshArtifact.id s.artifacts t.artifacts id) ∧
    (state.lastSnapshotId = some id →
      ¬ Removed NodeSnapshot.artifactId s.snapshots t.snapshots id) ∧
    (state.lastPatchId = some id → ¬ Removed DiffPatch.artifactId s.patches t.patches id)

/-- The collection removes what the policy selects and nothing else, counts it, has nothing to
do a second time and leaves no pointer to what it removed. -/
structure CollectsExactly (policy : GarbageCollectionPolicy) (s : MeshArtifactStore) : Prop where
  artifacts : ∀ (id : ArtifactId) (r : MeshArtifact),
    (s.collectGarbage policy).2.artifacts[id]? = some r ↔
      s.artifacts[id]? = some r ∧ ¬ policy.SelectsArtifact r
  snapshots : ∀ (id : ArtifactId) (r : NodeSnapshot),
    (s.collectGarbage policy).2.snapshots[id]? = some r ↔
      s.snapshots[id]? = some r ∧ ¬ policy.SelectsSnapshot s r
  patches : ∀ (id : ArtifactId) (r : DiffPatch),
    (s.collectGarbage policy).2.patches[id]? = some r ↔
      s.patches[id]? = some r ∧ ¬ policy.SelectsPatch r
  counted : (s.collectGarbage policy).1.artifactsRemoved +
      (s.collectGarbage policy).2.artifacts.size = s.artifacts.size ∧
    (s.collectGarbage policy).1.snapshotsRemoved +
      (s.collectGarbage policy).2.snapshots.size = s.snapshots.size ∧
    (s.collectGarbage policy).1.patchesRemoved +
      (s.collectGarbage policy).2.patches.size = s.patches.size
  again : (s.collectGarbage policy).2.collectGarbage policy =
    ({ artifactsRemoved := 0, snapshotsRemoved := 0, patchesRemoved := 0 },
      (s.collectGarbage policy).2)
  pointers : NoneDangling s (s.collectGarbage policy).2

/-- No node points to a snapshot or a patch that the policy selects, and to a selected artifact
only the node that it belongs to. -/
def PointersSpared (policy : GarbageCollectionPolicy) (s : MeshArtifactStore) : Prop :=
  ∀ (nodeId : Uuid) (state : MeshNodeState) (id : ArtifactId), s.nodeStates[nodeId]? = some state →
    (state.lastArtifactId = some id → ∀ (k : ArtifactId) (r : MeshArtifact),
      s.artifacts[k]? = some r → policy.SelectsArtifact r → r.id = id →
        ∃ (k' : ArtifactId) (r' : MeshArtifact), s.artifacts[k']? = some r' ∧
          policy.SelectsArtifact r' ∧ r'.id = id ∧ r'.nodeId = some nodeId) ∧
    (state.lastSnapshotId = some id → ∀ (k : ArtifactId) (r : NodeSnapshot),
      s.snapshots[k]? = some r → policy.SelectsSnapshot s r → r.artifactId ≠ id) ∧
    (state.lastPatchId = some id → ∀ (k : ArtifactId) (r : DiffPatch),
      s.patches[k]? = some r → policy.SelectsPatch r → r.artifactId ≠ id)

section Collection

variable {policy : GarbageCollectionPolicy} {s : MeshArtifactStore}

theorem getElem?_nodeStates_collectGarbage (nodeId : Uuid) :
    (s.collectGarbage policy).2.nodeStates[nodeId]? =
      s.nodeStates[nodeId]?.map (repaired (collected policy s) nodeId) :=
  getElem?_foldl_forgetArtifact _ _ _

theorem removesSnapshot_iff (snapshot : NodeSnapshot) :
    policy.removesSnapshot (s.collectGarbage policy).2.nodeStates snapshot = true ↔
      policy.SelectsSnapshot s snapshot := by
  have hknown : (s.collectGarbage policy).2.nodeStates.contains snapshot.nodeId = false ↔
      s.nodeStates[snapshot.nodeId]? = none := by
    rw [← Bool.not_eq_true, Std.ExtTreeMap.contains_iff_mem,
      ← Std.ExtTreeMap.isSome_getElem?_iff_mem, getElem?_nodeStates_collectGarbage,
      Option.isSome_map, Bool.not_eq_true, Option.isSome_eq_false_iff, Option.isNone_iff_eq_none]
  unfold GarbageCollectionPolicy.removesSnapshot GarbageCollectionPolicy.SelectsSnapshot
  rw [Bool.or_eq_true, Bool.or_eq_true, Bool.and_eq_true, Bool.not_eq_true', hknown,
    GarbageCollectionPolicy.expires_iff, GarbageCollectionPolicy.inactive_iff, or_assoc]

theorem collectGarbage_again :
    (s.collectGarbage policy).2.collectGarbage policy =
      ({ artifactsRemoved := 0, snapshotsRemoved := 0, patchesRemoved := 0 },
        (s.collectGarbage policy).2) := by
  simp only [collectGarbage, Maps.filter_toList_retain, Maps.retain_retain, List.map_nil,
    List.foldl_nil, List.length_nil]

theorem not_eq_true_iff {b : Bool} {p : Prop} (h : b = true ↔ p) : b = false ↔ ¬ p := by
  rw [← h, Bool.not_eq_true]

theorem removed_retain_iff {β : Type} (idOf : β → ArtifactId) (m : HashMap ArtifactId β)
    (p : β → Bool) (id : ArtifactId) :
    Removed idOf m (m.filter fun _ r => !p r) id ↔
      ∃ (k : ArtifactId) (r : β), m[k]? = some r ∧ p r = true ∧ idOf r = id := by
  apply exists₂_congr
  intro k r
  apply and_congr_right
  intro hr
  apply and_congr_left'
  rw [Std.ExtTreeMap.getElem?_filter', hr]
  cases hp : p r <;> simp [hp]

theorem removed_artifacts_iff (id : ArtifactId) :
    Removed MeshArtifact.id s.artifacts (s.collectGarbage policy).2.artifacts id ↔
      ∃ (k : ArtifactId) (r : MeshArtifact), s.artifacts[k]? = some r ∧
        policy.SelectsArtifact r ∧ r.id = id := by
  simp only [← GarbageCollectionPolicy.removesArtifact_iff]
  exact removed_retain_iff _ _ _ _

theorem removed_snapshots_iff (id : ArtifactId) :
    Removed NodeSnapshot.artifactId s.snapshots (s.collectGarbage policy).2.snapshots id ↔
      ∃ (k : ArtifactId) (r : NodeSnapshot), s.snapshots[k]? = some r ∧
        policy.SelectsSnapshot s r ∧ r.artifactId = id := by
  simp only [← removesSnapshot_iff]
  exact removed_retain_iff _ _ _ _

theorem removed_patches_iff (id : ArtifactId) :
    Removed DiffPatch.artifactId s.patches (s.collectGarbage policy).2.patches id ↔
      ∃ (k : ArtifactId) (r : DiffPatch), s.patches[k]? = some r ∧
        policy.SelectsPatch r ∧ r.artifactId = id := by
  simp only [← GarbageCollectionPolicy.removesPatch_iff]
  exact removed_retain_iff _ _ _ _

theorem mem_collected_iff (artifact : MeshArtifact) :
    artifact ∈ collected policy s ↔
      (∃ k : ArtifactId, s.artifacts[k]? = some artifact) ∧ policy.SelectsArtifact artifact := by
  unfold collected
  rw [← GarbageCollectionPolicy.removesArtifact_iff, List.mem_map]
  constructor
  · rintro ⟨⟨k, r⟩, hmem, rfl⟩
    rw [List.mem_filter, Maps.mem_toList] at hmem
    exact ⟨⟨k, hmem.1⟩, hmem.2⟩
  · rintro ⟨⟨k, hget⟩, hremoves⟩
    exact ⟨(k, artifact), List.mem_filter.mpr ⟨Maps.mem_toList.mpr hget, hremoves⟩, rfl⟩

theorem artifact_pointer_iff (nodeId : Uuid) (state : MeshNodeState) (id : ArtifactId) :
    ((repaired (collected policy s) nodeId state).lastArtifactId = some id →
        ¬ Removed MeshArtifact.id s.artifacts (s.collectGarbage policy).2.artifacts id) ↔
      (state.lastArtifactId = some id → ∀ (k : ArtifactId) (r : MeshArtifact),
        s.artifacts[k]? = some r → policy.SelectsArtifact r → r.id = id →
          ∃ (k' : ArtifactId) (r' : MeshArtifact), s.artifacts[k']? = some r' ∧
            policy.SelectsArtifact r' ∧ r'.id = id ∧ r'.nodeId = some nodeId) := by
  rw [lastArtifactId_repaired_iff, removed_artifacts_iff]
  constructor
  · intro h hlast k r hget hselects hid
    by_contra hnone
    apply h ⟨hlast, ?_⟩ ⟨k, r, hget, hselects, hid⟩
    rintro ⟨artifact, hmem, hid', hnode⟩
    obtain ⟨⟨k', hget'⟩, hselects'⟩ := (mem_collected_iff artifact).mp hmem
    exact hnone ⟨k', artifact, hget', hselects', hid', hnode⟩
  · rintro h ⟨hlast, hnone⟩ ⟨k, r, hget, hselects, hid⟩
    obtain ⟨k', r', hget', hselects', hid', hnode⟩ := h hlast k r hget hselects hid
    exact hnone ⟨r', (mem_collected_iff r').mpr ⟨⟨k', hget'⟩, hselects'⟩, hid', hnode⟩

/-- The pointers after a collection are in order exactly if those that no one repairs were not
to the records it removes. -/
theorem noneDangling_iff :
    NoneDangling s (s.collectGarbage policy).2 ↔ PointersSpared policy s := by
  have hsnapshot (id : ArtifactId) :
      ¬ Removed NodeSnapshot.artifactId s.snapshots (s.collectGarbage policy).2.snapshots id ↔
        ∀ (k : ArtifactId) (r : NodeSnapshot), s.snapshots[k]? = some r →
          policy.SelectsSnapshot s r → r.artifactId ≠ id := by
    rw [removed_snapshots_iff]
    simp only [not_exists, not_and, ne_eq]
  have hpatch (id : ArtifactId) :
      ¬ Removed DiffPatch.artifactId s.patches (s.collectGarbage policy).2.patches id ↔
        ∀ (k : ArtifactId) (r : DiffPatch), s.patches[k]? = some r →
          policy.SelectsPatch r → r.artifactId ≠ id := by
    rw [removed_patches_iff]
    simp only [not_exists, not_and, ne_eq]
  constructor
  · intro h nodeId state id hstate
    have hget : (s.collectGarbage policy).2.nodeStates[nodeId]? =
        some (repaired (collected policy s) nodeId state) := by
      rw [getElem?_nodeStates_collectGarbage, hstate, Option.map_some]
    obtain ⟨hartifacts, hsnapshots, hpatches⟩ := h nodeId _ id hget
    rw [lastSnapshotId_repaired, hsnapshot] at hsnapshots
    rw [lastPatchId_repaired, hpatch] at hpatches
    exact ⟨(artifact_pointer_iff nodeId state id).mp hartifacts, hsnapshots, hpatches⟩
  · intro h nodeId state' id hget
    rw [getElem?_nodeStates_collectGarbage] at hget
    obtain ⟨state, hstate, rfl⟩ := Option.map_eq_some_iff.mp hget
    obtain ⟨hartifacts, hsnapshots, hpatches⟩ := h nodeId state id hstate
    rw [lastSnapshotId_repaired, hsnapshot, lastPatchId_repaired, hpatch]
    exact ⟨(artifact_pointer_iff nodeId state id).mpr hartifacts, hsnapshots, hpatches⟩

/-- A collection is exact where the pointers that it does not repair are not to the records
that it removes. -/
theorem collects_exactly_iff (policy : GarbageCollectionPolicy) (s : MeshArtifactStore) :
    CollectsExactly policy s ↔ PointersSpared policy s := by
  constructor
  · intro h
    exact noneDangling_iff.mp h.pointers
  · intro h
    refine ⟨?_, ?_, ?_, ⟨?_, ?_, ?_⟩, collectGarbage_again, noneDangling_iff.mpr h⟩
    · intro id r
      rw [← not_eq_true_iff (GarbageCollectionPolicy.removesArtifact_iff r)]
      exact Maps.getElem?_retain_eq_some s.artifacts policy.removesArtifact
    · intro id r
      rw [← not_eq_true_iff (removesSnapshot_iff r)]
      exact Maps.getElem?_retain_eq_some s.snapshots _
    · intro id r
      rw [← not_eq_true_iff (GarbageCollectionPolicy.removesPatch_iff r)]
      exact Maps.getElem?_retain_eq_some s.patches policy.removesPatch
    · change (List.map Prod.snd _).length + _ = _
      rw [List.length_map]
      exact Maps.length_filter_add_size_retain s.artifacts policy.removesArtifact
    · exact Maps.length_filter_add_size_retain s.snapshots _
    · exact Maps.length_filter_add_size_retain s.patches policy.removesPatch

end Collection

def sampleSnapshots : MeshArtifactStore :=
  ((MeshArtifactStore.new 0).snapshotNode (fun _ => 10) 1 7 .null 3 2).2

def samplePolicy : GarbageCollectionPolicy :=
  { activeDimensions := (∅ : BTreeSet DimensionId).insert 5, removeConsumedEphemeral := true,
    removeOrphanedNodes := true, expireBeforeMs := none }

/-- The snapshot is removed, and the node still points to it. -/
theorem snapshot_pointer_dangles :
    ¬ ∀ (policy : GarbageCollectionPolicy) (s : MeshArtifactStore), CollectsExactly policy s := by
  intro h
  have hpointers := (h samplePolicy sampleSnapshots).pointers
  have hlast : ((sampleSnapshots.collectGarbage samplePolicy).2.nodeStates[(7 : Uuid)]?).map
      MeshNodeState.lastSnapshotId = some (some 1) := by
    decide
  have hbefore : (sampleSnapshots.snapshots[(1 : ArtifactId)]?).map NodeSnapshot.artifactId =
      some 1 := by
    decide
  have hafter :
      ((sampleSnapshots.collectGarbage samplePolicy).2.snapshots[(1 : ArtifactId)]?).isNone =
        true := by
    decide +kernel
  obtain ⟨state, hstate, hid⟩ := Option.map_eq_some_iff.mp hlast
  obtain ⟨r, hr, hrid⟩ := Option.map_eq_some_iff.mp hbefore
  exact (hpointers 7 state 1 hstate).2.1 hid
    ⟨1, r, hr, Option.isNone_iff_eq_none.mp hafter, hrid⟩

end Mesh

end InfinityOS
