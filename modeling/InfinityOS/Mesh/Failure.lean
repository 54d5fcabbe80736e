import InfinityOS.Mesh.Replication
import InfinityOS.Mesh.Revision

/-!
# Failed calls

`replicate_notification` looks its records up and inserts them one by one, so a failure
leaves what came before it in the target, where a retry then meets it. `patch_with_revision`
makes a state for the node before it looks at the conflict. For both, the calls whose failure
changes nothing are given exactly.
-/

namespace InfinityOS

namespace Mesh

open MeshArtifactStore

/-! ## Replication -/

/-- What the ids announce is at the source and new to the target, record by record. -/
def Deliverable (source : MeshArtifactStore) (kind : MeshNotificationKind)
    (target : MeshArtifactStore) (ids : List ArtifactId) : Prop :=
  ∃ rs : List Record, ids.map (resolve source kind) = rs.map some ∧
    (rs.map fun r => (r.kind, r.id)).Nodup ∧ ∀ r ∈ rs, target.stored r.kind r.id = none

section Notification

variable {source : MeshArtifactStore} {kind : MeshNotificationKind} {s : MeshArtifactStore}

theorem deliverable_nil : Deliverable source kind s [] :=
  ⟨[], rfl, List.nodup_nil, fun _ hr => absurd hr List.not_mem_nil⟩

theorem Deliverable.head {id : ArtifactId} {ids : List ArtifactId}
    (h : Deliverable source kind s (id :: ids)) :
    ∃ r, resolve source kind id = some r ∧ s.stored r.kind r.id = none := by
  obtain ⟨rs, hrs, -, hstores⟩ := h
  cases rs with
  | nil => cases hrs
  | cons r rs =>
      rw [List.map_cons, List.map_cons, List.cons.injEq] at hrs
      exact ⟨r, hrs.1, hstores r List.mem_cons_self⟩

theorem deliverable_cons_iff (clock : Clock) {id : ArtifactId} {ids : List ArtifactId} {r : Record}
    (hresolve : resolve source kind id = some r) (hnew : s.stored r.kind r.id = none) :
    Deliverable source kind s (id :: ids) ↔ Deliverable source kind (r.insert clock s).2 ids := by
  have hstored (r' : Record) : (r.insert clock s).2.stored r'.kind r'.id = none ↔
      (r'.kind, r'.id) ≠ (r.kind, r.id) ∧ s.stored r'.kind r'.id = none := by
    rw [stored_insert clock hnew]
    split
    · next h => simp [h]
    · next h => simpa using fun _ hkind hid => h ⟨hkind.symm, hid.symm⟩
  constructor
  · rintro ⟨rs, hrs, hnodup, hstores⟩
    cases rs with
    | nil => cases hrs
    | cons r' rs =>
        rw [List.map_cons, List.map_cons, hresolve, List.cons.injEq, Option.some.injEq] at hrs
        obtain ⟨rfl, hrs⟩ := hrs
        rw [List.map_cons, List.nodup_cons] at hnodup
        refine ⟨rs, hrs, hnodup.2, fun r' hr' => (hstored r').mpr ⟨?_, ?_⟩⟩
        · intro heq
          exact hnodup.1 (heq ▸ List.mem_map_of_mem hr')
        · exact hstores r' (List.mem_cons_of_mem r hr')
  · rintro ⟨rs, hrs, hnodup, hstores⟩
    refine ⟨r :: rs, by rw [List.map_cons, List.map_cons, hresolve, hrs], ?_, ?_⟩
    · rw [List.map_cons, List.nodup_cons]
      refine ⟨fun hmem => ?_, hnodup⟩
      obtain ⟨r', hr', heq⟩ := List.mem_map.mp hmem
      exact ((hstored r').mp (hstores r' hr')).1 heq
    · intro r' hr'
      rcases List.mem_cons.mp hr' with rfl | hr'
      · exact hnew
      · exact ((hstored r').mp (hstores r' hr')).2

theorem replicateId_cases (source : MeshArtifactStore) (kind : MeshNotificationKind)
    (id : ArtifactId) (clock : Clock) (s : MeshArtifactStore) :
    (∃ r, resolve source kind id = some r ∧ s.stored r.kind r.id = none ∧
        MeshReplicator.replicateId clock source kind id s = (.ok (), (r.insert clock s).2)) ∨
      ((∀ ids, ¬ Deliverable source kind s (id :: ids)) ∧
        ∃ e, MeshReplicator.replicateId clock source kind id s = (.error e, s)) := by
  cases hresolve : resolve source kind id with
  | none =>
      refine .inr ⟨fun ids h => ?_, _, replicateId_of_resolve_eq_none hresolve clock s⟩
      obtain ⟨r, hr, -⟩ := h.head
      rw [hresolve] at hr
      cases hr
  | some r =>
      rw [replicateId_of_resolve hresolve]
      cases hstored : s.stored r.kind r.id with
      | none =>
          refine .inl ⟨r, rfl, hstored, ?_⟩
          rw [r.insert_of_new clock hstored]
      | some r' =>
          refine .inr ⟨fun ids h => ?_, _, r.insert_of_known clock hstored⟩
          obtain ⟨u, hu, hnew⟩ := h.head
          rw [hresolve, Option.some.injEq] at hu
          rw [← hu, hstored] at hnew
          cases hnew

theorem deliverable_singleton_iff {id : ArtifactId} :
    Deliverable source kind s [id] ↔
      ∃ r, resolve source kind id = some r ∧ s.stored r.kind r.id = none := by
  constructor
  · exact Deliverable.head
  · rintro ⟨r, hr, hnew⟩
    exact (deliverable_cons_iff (fun _ => 0) hr hnew).mpr deliverable_nil

theorem replicateIds_ok_iff (clock : Clock) (ids : List ArtifactId) :
    (∃ count, (MeshReplicator.replicateIds source kind clock ids s).1 = .ok count) ↔
      Deliverable source kind s ids := by
  induction ids generalizing clock s with
  | nil => exact iff_of_true ⟨0, rfl⟩ deliverable_nil
  | cons id ids ih =>
      unfold MeshReplicator.replicateIds
      rcases replicateId_cases source kind id clock s with ⟨r, hr, hnew, hrun⟩ | ⟨hnot, e, hrun⟩
      · rw [hrun, deliverable_cons_iff clock hr hnew, ← ih (clock.after 2)]
        simp only
        cases (MeshReplicator.replicateIds source kind (clock.after 2) ids
          (r.insert clock s).2).1 with
        | error e => simp [Except.map]
        | ok count => simp [Except.map]
      · rw [hrun]
        exact iff_of_false (by simp) (hnot ids)

theorem stored_replicateIds (source : MeshArtifactStore) (kind : MeshNotificationKind)
    (clock : Clock) (ids : List ArtifactId) {k : RecordKind} {id : ArtifactId} {r : Record}
    (h : s.stored k id = some r) :
    (MeshReplicator.replicateIds source kind clock ids s).2.stored k id = some r := by
  induction ids generalizing clock s with
  | nil => exact h
  | cons id' ids ih =>
      unfold MeshReplicator.replicateIds
      rcases replicateId_cases source kind id' clock s with ⟨r', hr', hnew, hrun⟩ | ⟨-, e, hrun⟩
      · rw [hrun]
        apply ih
        rw [stored_insert clock hnew, if_neg, h]
        rintro ⟨rfl, rfl⟩
        rw [hnew] at h
        cases h
      · rw [hrun]
        exact h

theorem replicateIds_unchanged_iff (clock : Clock) (id : ArtifactId) (ids : List ArtifactId) :
    (MeshReplicator.replicateIds source kind clock (id :: ids) s).2 = s ↔
      ¬ Deliverable source kind s [id] := by
  unfold MeshReplicator.replicateIds
  rcases replicateId_cases source kind id clock s with ⟨r, hr, hnew, hrun⟩ | ⟨hnot, e, hrun⟩
  · rw [hrun]
    apply iff_of_false
    · intro hsame
      have hstored := stored_replicateIds source kind (clock.after 2) ids
        ((stored_insert clock hnew r.kind r.id).trans (if_pos ⟨rfl, rfl⟩))
      simp only at hsame
      rw [hsame, hnew] at hstored
      cases hstored
    · rw [deliverable_singleton_iff, not_not]
      exact ⟨r, hr, hnew⟩
  · rw [hrun]
    exact iff_of_true rfl (hnot [])

end Notification

/-- A failed replication leaves the target as it was exactly where nothing fails or the first
id does. -/
theorem replicateNotification_fails_cleanly_iff (clock : Clock) (source target : MeshArtifactStore)
    (notification : MeshNotification) :
    (∀ e t, MeshReplicator.replicateNotification clock source notification target = (.error e, t) →
        t = target) ↔
      Deliverable source notification.kind target notification.ids ∨
        ¬ Deliverable source notification.kind target (notification.ids.take 1) := by
  obtain ⟨ids, kind⟩ := notification
  unfold MeshReplicator.replicateNotification
  simp only
  rw [← replicateIds_ok_iff clock]
  cases hrun : MeshReplicator.replicateIds source kind clock ids target with
  | mk answer t =>
      cases answer with
      | ok count => exact iff_of_true (fun e t h => by cases h) (.inl ⟨count, rfl⟩)
      | error e =>
          cases ids with
          | nil => cases hrun
          | cons id ids =>
              rw [List.take_succ_cons, List.take_zero, ← replicateIds_unchanged_iff clock id ids,
                hrun]
              constructor
              · intro h
                exact .inr (h e t rfl)
              · rintro (⟨count, hcount⟩ | hsame) e' t' h
                · cases hcount
                · cases h
                  exact hsame

/-- A retry after a failure that changed the target meets its own first record there and fails,
whatever the source has got in the meantime. -/
theorem replicateNotification_retry_fails {clock clock' : Clock}
    {source source' target t : MeshArtifactStore} {notification : MeshNotification} {e : MeshError}
    (hfailed : MeshReplicator.replicateNotification clock source notification target =
      (.error e, t))
    (hchanged : t ≠ target)
    (hkept : ∀ id ∈ notification.ids, (resolve source notification.kind id).isSome →
      resolve source' notification.kind id = resolve source notification.kind id) :
    ∃ e', MeshReplicator.replicateNotification clock' source' notification t = (.error e', t) := by
  obtain ⟨ids, kind⟩ := notification
  unfold MeshReplicator.replicateNotification at hfailed ⊢
  simp only at hfailed hkept ⊢
  cases ids with
  | nil => cases hfailed
  | cons id ids =>
      have hunchanged :
          (MeshReplicator.replicateIds source kind clock (id :: ids) target).2 = target ↔
            ¬ Deliverable source kind target [id] :=
        replicateIds_unchanged_iff clock id ids
      rw [hfailed] at hunchanged
      obtain ⟨r, hr, hnew⟩ := deliverable_singleton_iff.mp (not_not.mp (hunchanged.not.mp hchanged))
      have hstored : t.stored r.kind r.id = some r := by
        have hrest := stored_replicateIds source kind (clock.after 2) ids
          ((stored_insert clock hnew r.kind r.id).trans (if_pos ⟨rfl, rfl⟩))
        rw [MeshReplicator.replicateIds, replicateId_of_resolve hr, r.insert_of_new clock hnew]
          at hfailed
        rw [r.insert_of_new clock hnew] at hrest
        simp only at hfailed
        exact (congrArg (fun p => p.2.stored r.kind r.id) hfailed).symm.trans hrest
      have hresolve : resolve source' kind id = some r :=
        (hkept id List.mem_cons_self (by rw [hr]; rfl)).trans hr
      unfold MeshReplicator.replicateIds
      rw [replicateId_of_resolve hresolve, r.insert_of_known clock' hstored]
      exact ⟨_, rfl⟩

def sampleAnnouncement : MeshNotification :=
  { ids := [1, 2], kind := .snapshot }

/-- The missing snapshot is noticed when the other one is in the target. -/
theorem failed_replication_inserts :
    ¬ ∀ (clock : Clock) (source target : MeshArtifactStore) (notification : MeshNotification)
      (e : MeshError) (t : MeshArtifactStore),
      MeshReplicator.replicateNotification clock source notification target = (.error e, t) →
        t = target := by
  intro h
  let source := ((MeshArtifactStore.new 0).snapshotNode (fun _ => 10) 1 7 .null 3 2).2
  let outcome := MeshReplicator.replicateNotification (fun _ => 20) source sampleAnnouncement
    (.new 0)
  have hfailed : outcome.1 = .error (.notFound 2) := by
    decide +kernel
  have hsize : outcome.2.snapshots.size = 1 := by
    decide +kernel
  have hsame : outcome.2 = .new 0 :=
    h _ source (.new 0) sampleAnnouncement (.notFound 2) _ (Prod.ext hfailed rfl)
  rw [hsame] at hsize
  cases hsize

/-! ## Patches -/

theorem patchWithRevision_rejected (clock : Clock) (artifactId : ArtifactId)
    {request : PatchRequest} {s : MeshArtifactStore}
    (hconflict : s.currentRevision request.nodeId ≠ request.expectedRevision)
    (hreject : request.strategy = .reject) :
    s.patchWithRevision clock artifactId request =
      (.error (.concurrentEdit request.nodeId request.expectedRevision
          (s.currentRevision request.nodeId)),
        { s with nodeStates :=
            s.nodeStates.insert request.nodeId (s.stateOr (clock 0) request.nodeId) }) := by
  have hcheck : (s.currentRevision request.nodeId != request.expectedRevision) = true ∧
      request.strategy = .reject := by
    simpa using ⟨hconflict, hreject⟩
  simp only [patchWithRevision, advanceRevision, revision_stateOr, if_pos hcheck]

theorem insert_stateOr_iff (now : UInt64) (nodeId : Uuid) (s : MeshArtifactStore) :
    { s with nodeStates := s.nodeStates.insert nodeId (s.stateOr now nodeId) } = s ↔
      s.nodeStates[nodeId]? ≠ none := by
  unfold stateOr
  cases hstate : s.nodeStates[nodeId]? with
  | none =>
      apply iff_of_false
      · intro hsame
        have hget := congrArg (fun t => t.nodeStates[nodeId]?) hsame
        simp only [Maps.getElem?_insert_ite, if_pos, hstate] at hget
        cases hget
      · exact not_not.mpr rfl
  | some state =>
      apply iff_of_true
      · rw [Option.getD_some, Maps.insert_eq_self hstate]
      · exact Option.some_ne_none state

/-- A rejected patch leaves the store as it was unless the node is new. -/
theorem patchWithRevision_fails_cleanly_iff (clock : Clock) (artifactId : ArtifactId)
    (request : PatchRequest) (s : MeshArtifactStore) :
    (∀ e t, s.patchWithRevision clock artifactId request = (.error e, t) → t = s) ↔
      ¬ (s.nodeStates[request.nodeId]? = none ∧ request.strategy = .reject ∧
        request.expectedRevision ≠ 0) := by
  have hzero (hstate : s.nodeStates[request.nodeId]? = none) :
      s.currentRevision request.nodeId = 0 := by
    rw [currentRevision, hstate]
    rfl
  by_cases hconflict : s.currentRevision request.nodeId ≠ request.expectedRevision ∧
      request.strategy = .reject
  · rw [patchWithRevision_rejected clock artifactId hconflict.1 hconflict.2]
    have hsame := insert_stateOr_iff (clock 0) request.nodeId s
    constructor
    · intro h hnew
      exact hsame.mp (h _ _ rfl) hnew.1
    · rintro h e t heq
      cases heq
      refine hsame.mpr fun hstate => h ⟨hstate, hconflict.2, fun hexpected => ?_⟩
      exact hconflict.1 ((hzero hstate).trans hexpected.symm)
  · apply iff_of_true
    · intro e t heq
      rcases advanceRevision_cases clock request.nodeId request.expectedRevision request.strategy
        (some artifactId) s with ⟨hreject, hne, -⟩ | ⟨-, u, hu, -⟩
      · exact absurd ⟨hne, hreject⟩ hconflict
      · simp [patchWithRevision, hu] at heq
    · rintro ⟨hstate, hreject, hexpected⟩
      exact hconflict ⟨fun heq => hexpected (heq.symm.trans (hzero hstate)), hreject⟩

/-- Node 7 has never been written. -/
def sampleStaleRequest : PatchRequest :=
  { nodeId := 7, before := .null, after := .null, ops := [], taskId := 3, dimensionId := 2,
    expectedRevision := 1, strategy := .reject }

/-- The rejected patch leaves a state of the node behind. -/
theorem rejected_patch_adds_state :
    ¬ ∀ (clock : Clock) (artifactId : ArtifactId) (request : PatchRequest) (s : MeshArtifactStore)
      (e : MeshError) (t : MeshArtifactStore),
      s.patchWithRevision clock artifactId request = (.error e, t) → t = s := by
  intro h
  let outcome := (MeshArtifactStore.new 0).patchWithRevision (fun _ => 10) 1 sampleStaleRequest
  have hfailed : outcome.1 = .error (.concurrentEdit 7 1 0) := by
    decide +kernel
  have hsize : outcome.2.nodeStates.size = 1 := by
    decide +kernel
  have hsame : outcome.2 = .new 0 :=
    h (fun _ => 10) 1 sampleStaleRequest (.new 0) (.concurrentEdit 7 1 0) _ (Prod.ext hfailed rfl)
  rw [hsame] at hsize
  cases hsize

end Mesh

end InfinityOS
