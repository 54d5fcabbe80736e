import InfinityOS.Core.Watermark
import InfinityOS.Mesh.Delivery

/-!
# Does the order of replication matter?

Notifications of one source are replicated to an empty store. The stored records and the
revisions of the nodes are the same in any order. The pointers of a node state are not: an
artifact is always pointed to, so the one delivered last stays, and a snapshot or a patch
only if its revision is not below that of the node, which both kinds share.
-/

namespace InfinityOS

namespace Mesh

open MeshArtifactStore

/-! ## From notifications to records -/

def resolve (source : MeshArtifactStore) (kind : MeshNotificationKind) (id : ArtifactId) :
    Option Record :=
  match kind with
  | .snapshot => source.stored .snapshot id
  | .patch => source.stored .patch id
  | .replicated =>
      (source.stored .snapshot id).or ((source.stored .patch id).or (source.stored .artifact id))
  | _ => source.stored .artifact id

theorem replicateArtifact_of_stored {source : MeshArtifactStore} {id : ArtifactId} {r : Record}
    (h : source.stored .artifact id = some r) (clock : Clock) (s : MeshArtifactStore) :
    MeshReplicator.replicateArtifact clock source id s = r.insert clock s := by
  obtain ⟨a, ha, rfl⟩ := Option.map_eq_some_iff.mp h
  simp only [MeshReplicator.replicateArtifact, getArtifact, ha]
  rfl

theorem replicateSnapshot_of_stored {source : MeshArtifactStore} {id : ArtifactId} {r : Record}
    (h : source.stored .snapshot id = some r) (clock : Clock) (s : MeshArtifactStore) :
    MeshReplicator.replicateSnapshot clock source id s = r.insert clock s := by
  obtain ⟨x, hx, rfl⟩ := Option.map_eq_some_iff.mp h
  simp only [MeshReplicator.replicateSnapshot, getSnapshot, hx]
  rfl

theorem replicatePatch_of_stored {source : MeshArtifactStore} {id : ArtifactId} {r : Record}
    (h : source.stored .patch id = some r) (clock : Clock) (s : MeshArtifactStore) :
    MeshReplicator.replicatePatch clock source id s = r.insert clock s := by
  obtain ⟨p, hp, rfl⟩ := Option.map_eq_some_iff.mp h
  simp only [MeshReplicator.replicatePatch, getPatch, hp]
  rfl

theorem isSome_stored_snapshot {source : MeshArtifactStore} {id : ArtifactId} :
    (source.stored .snapshot id).isSome ↔ id ∈ source.snapshots := by
  rw [← Std.ExtTreeMap.isSome_getElem?_iff_mem, stored, Option.isSome_map]

theorem isSome_stored_patch {source : MeshArtifactStore} {id : ArtifactId} :
    (source.stored .patch id).isSome ↔ id ∈ source.patches := by
  rw [← Std.ExtTreeMap.isSome_getElem?_iff_mem, stored, Option.isSome_map]

theorem replicateId_of_resolve {source : MeshArtifactStore} {kind : MeshNotificationKind}
    {id : ArtifactId} {r : Record} (h : resolve source kind id = some r) (clock : Clock)
    (s : MeshArtifactStore) :
    MeshReplicator.replicateId clock source kind id s = r.insert clock s := by
  cases kind with
  | snapshot => exact replicateSnapshot_of_stored h clock s
  | patch => exact replicatePatch_of_stored h clock s
  | replicated =>
      unfold MeshReplicator.replicateId
      simp only [← isSome_stored_snapshot, ← isSome_stored_patch]
      unfold resolve at h
      simp only at h
      cases hsnapshot : source.stored .snapshot id with
      | some x =>
          rw [hsnapshot, Option.some_or] at h
          rw [Option.isSome_some, if_pos rfl]
          exact replicateSnapshot_of_stored (hsnapshot.trans h) clock s
      | none =>
          rw [hsnapshot, Option.none_or] at h
          rw [Option.isSome_none, if_neg (by simp)]
          cases hpatch : source.stored .patch id with
          | some p =>
              rw [hpatch, Option.some_or] at h
              rw [Option.isSome_some, if_pos rfl]
              exact replicatePatch_of_stored (hpatch.trans h) clock s
          | none =>
              rw [hpatch, Option.none_or] at h
              rw [Option.isSome_none, if_neg (by simp)]
              exact replicateArtifact_of_stored h clock s
  | produced => exact replicateArtifact_of_stored h clock s
  | consumed => exact replicateArtifact_of_stored h clock s
  | batchProduced => exact replicateArtifact_of_stored h clock s

theorem replicateId_of_resolve_eq_none {source : MeshArtifactStore} {kind : MeshNotificationKind}
    {id : ArtifactId} (h : resolve source kind id = none) (clock : Clock) (s : MeshArtifactStore) :
    MeshReplicator.replicateId clock source kind id s = (.error (.notFound id), s) := by
  have artifact (h : source.stored .artifact id = none) :
      MeshReplicator.replicateArtifact clock source id s = (.error (.notFound id), s) := by
    simp only [MeshReplicator.replicateArtifact, getArtifact, Option.map_eq_none_iff.mp h]
  cases kind with
  | snapshot =>
      simp only [MeshReplicator.replicateId, MeshReplicator.replicateSnapshot, getSnapshot,
        Option.map_eq_none_iff.mp h]
  | patch =>
      simp only [MeshReplicator.replicateId, MeshReplicator.replicatePatch, getPatch,
        Option.map_eq_none_iff.mp h]
  | replicated =>
      simp only [resolve, Option.or_eq_none_iff] at h
      obtain ⟨hsnapshot, hpatch, hartifact⟩ := h
      unfold MeshReplicator.replicateId
      simp only [← isSome_stored_snapshot, ← isSome_stored_patch, hsnapshot, hpatch,
        Option.isSome_none]
      exact artifact hartifact
  | produced => exact artifact h
  | consumed => exact artifact h
  | batchProduced => exact artifact h

def records (source : MeshArtifactStore) (notification : MeshNotification) : List Record :=
  notification.ids.filterMap (resolve source notification.kind)

/-- The source holds everything that the notification announces. -/
def Held (source : MeshArtifactStore) (notification : MeshNotification) : Prop :=
  ∀ id ∈ notification.ids, (resolve source notification.kind id).isSome

def replicateAll (source : MeshArtifactStore) :
    List (Clock × MeshNotification) → MeshArtifactStore → MeshArtifactStore
  | [], s => s
  | (clock, notification) :: order, s =>
      replicateAll source order
        (MeshReplicator.replicateNotification clock source notification s).2

theorem replicateIds_deliver {source : MeshArtifactStore} {kind : MeshNotificationKind}
    {ids : List ArtifactId} (hheld : ∀ id ∈ ids, (resolve source kind id).isSome) (clock : Clock)
    {s : MeshArtifactStore} (hfresh : Fresh s (ids.filterMap (resolve source kind))) :
    ∃ ds : List (Clock × Record), ds.map Prod.snd = ids.filterMap (resolve source kind) ∧
      MeshReplicator.replicateIds source kind clock ids s = (.ok ids.length, deliver ds s) := by
  induction ids generalizing clock s with
  | nil => exact ⟨[], rfl, rfl⟩
  | cons id ids ih =>
      obtain ⟨r, hr⟩ := Option.isSome_iff_exists.mp (hheld id List.mem_cons_self)
      rw [List.filterMap_cons_some hr] at hfresh ⊢
      obtain ⟨ds, hds, hrun⟩ := ih (fun id' hid' => hheld id' (List.mem_cons_of_mem id hid'))
        (clock.after 2) (hfresh.tail clock)
      refine ⟨(clock, r) :: ds, by rw [List.map_cons, hds], ?_⟩
      have hnew := hfresh.2 r List.mem_cons_self
      unfold MeshReplicator.replicateIds
      rw [replicateId_of_resolve hr]
      have hok : r.insert clock s = (.ok (), (r.insert clock s).2) := by
        rw [r.insert_of_new clock hnew]
      rw [hok]
      simp only [hrun, deliver, Except.map, List.length_cons]

theorem replicateAll_deliver {source : MeshArtifactStore}
    {order : List (Clock × MeshNotification)} (hheld : ∀ p ∈ order, Held source p.2)
    {s : MeshArtifactStore}
    (hfresh : Fresh s ((order.map Prod.snd).flatMap (records source))) :
    ∃ ds : List (Clock × Record),
      ds.map Prod.snd = (order.map Prod.snd).flatMap (records source) ∧
        replicateAll source order s = deliver ds s := by
  induction order generalizing s with
  | nil => exact ⟨[], rfl, rfl⟩
  | cons p order ih =>
      rw [List.map_cons, List.flatMap_cons] at hfresh ⊢
      have hhead : Fresh s (records source p.2) :=
        ⟨(List.nodup_append.mp (List.map_append ▸ hfresh.1)).1,
          fun r hr => hfresh.2 r (List.mem_append_left _ hr)⟩
      obtain ⟨ds₁, hds₁, hrun₁⟩ := replicateIds_deliver (hheld p List.mem_cons_self) p.1 hhead
      have hrest : Fresh (deliver ds₁ s) ((order.map Prod.snd).flatMap (records source)) := by
        apply Fresh.append
        rw [hds₁]
        exact hfresh
      obtain ⟨ds₂, hds₂, hrun₂⟩ :=
        ih (fun q hq => hheld q (List.mem_cons_of_mem p hq)) hrest
      refine ⟨ds₁ ++ ds₂, by rw [List.map_append, hds₁, hds₂, records], ?_⟩
      unfold replicateAll MeshReplicator.replicateNotification
      rw [hrun₁, hrun₂, deliver_append]

/-! ## What is compared -/

/-- The records and the node states of a store, but for the timestamps of the states. -/
structure View where
  artifacts : HashMap ArtifactId MeshArtifact
  snapshots : HashMap ArtifactId NodeSnapshot
  patches : HashMap ArtifactId DiffPatch
  nodeStates : HashMap Uuid MeshNodeState

def MeshArtifactStore.view (s : MeshArtifactStore) : View where
  artifacts := s.artifacts
  snapshots := s.snapshots
  patches := s.patches
  nodeStates := s.nodeStates.map fun _ state => state.untimed

theorem view_eq_iff {s t : MeshArtifactStore} :
    s.view = t.view ↔
      (∀ kind id, s.stored kind id = t.stored kind id) ∧ ∀ n, s.nodeView n = t.nodeView n := by
  have hstates : ∀ (u : MeshArtifactStore) (n : Uuid), u.view.nodeStates[n]? = u.nodeView n :=
    fun u n => Std.ExtTreeMap.getElem?_map
  constructor
  · intro h
    constructor
    · intro kind id
      cases kind with
      | artifact => exact congrArg (fun v : View => v.artifacts[id]?.map Record.artifact) h
      | snapshot => exact congrArg (fun v : View => v.snapshots[id]?.map Record.snapshot) h
      | patch => exact congrArg (fun v : View => v.patches[id]?.map Record.patch) h
    · intro n
      rw [← hstates, ← hstates, h]
  · intro h
    have hartifacts : s.artifacts = t.artifacts := by
      apply Std.ExtTreeMap.ext_getElem?
      intro id
      exact Option.map_injective (fun _ _ => Record.artifact.inj) (h.1 .artifact id)
    have hsnapshots : s.snapshots = t.snapshots := by
      apply Std.ExtTreeMap.ext_getElem?
      intro id
      exact Option.map_injective (fun _ _ => Record.snapshot.inj) (h.1 .snapshot id)
    have hpatches : s.patches = t.patches := by
      apply Std.ExtTreeMap.ext_getElem?
      intro id
      exact Option.map_injective (fun _ _ => Record.patch.inj) (h.1 .patch id)
    have hnodes : s.view.nodeStates = t.view.nodeStates := by
      apply Std.ExtTreeMap.ext_getElem?
      intro n
      rw [hstates, hstates, h.2 n]
    unfold view at hnodes ⊢
    rw [hartifacts, hsnapshots, hpatches]
    exact congrArg _ hnodes

/-- Any two orders, at any times, have the same outcome on an empty store. -/
def Converges (source : MeshArtifactStore) (notifications : List MeshNotification) : Prop :=
  ∀ (order₁ order₂ : List (Clock × MeshNotification)) (start₁ start₂ : UInt64),
    (order₁.map Prod.snd).Perm notifications → (order₂.map Prod.snd).Perm notifications →
      (replicateAll source order₁ (.new start₁)).view =
        (replicateAll source order₂ (.new start₂)).view

def finalState (n : Uuid) (rs : List Record) : MeshNodeState :=
  stateAfter n (.new n 0) rs

theorem stored_new (start : UInt64) (kind : RecordKind) (id : ArtifactId) :
    (MeshArtifactStore.new start).stored kind id = none := by
  cases kind with
  | artifact => rfl
  | snapshot => rfl
  | patch => rfl

section Notifications

variable {source : MeshArtifactStore} {notifications : List MeshNotification}

theorem replicateAll_new (hheld : ∀ note ∈ notifications, Held source note)
    (hids : ((notifications.flatMap (records source)).map Record.id).Nodup)
    {order : List (Clock × MeshNotification)}
    (horder : (order.map Prod.snd).Perm notifications) (start : UInt64) :
    let rs := (order.map Prod.snd).flatMap (records source)
    (∀ kind id r, (replicateAll source order (.new start)).stored kind id = some r ↔
        r ∈ rs ∧ r.kind = kind ∧ r.id = id) ∧
      ∀ n, (replicateAll source order (.new start)).nodeView n =
        if ∃ r ∈ rs, r.node = some n then some (finalState n rs) else none := by
  intro rs
  have hperm : rs.Perm (notifications.flatMap (records source)) :=
    horder.flatMap_right (records source)
  have hfresh : Fresh (.new start) rs :=
    ⟨(hperm.map Record.id).nodup_iff.mpr hids, fun r _ => stored_new start r.kind r.id⟩
  have hheld' : ∀ p ∈ order, Held source p.2 := fun p hp =>
    hheld p.2 (horder.mem_iff.mp (List.mem_map_of_mem hp))
  obtain ⟨ds, hds, hrun⟩ := replicateAll_deliver hheld' hfresh
  have hfresh' : Fresh (.new start) (ds.map Prod.snd) := by
    rw [hds]
    exact hfresh
  constructor
  · intro kind id r
    rw [hrun, stored_deliver hfresh', stored_new, hds]
    simp [rs]
  · intro n
    rw [hrun, nodeView_deliver hfresh', hds]
    rfl

theorem converges_iff_finalState (hheld : ∀ note ∈ notifications, Held source note)
    (hids : ((notifications.flatMap (records source)).map Record.id).Nodup) :
    Converges source notifications ↔
      ∀ order₁ order₂ : List MeshNotification, order₁.Perm notifications →
        order₂.Perm notifications → ∀ n,
          finalState n (order₁.flatMap (records source)) =
            finalState n (order₂.flatMap (records source)) := by
  constructor
  · intro h order₁ order₂ h₁ h₂ n
    have htimed : ∀ order : List MeshNotification,
        ((order.map fun note => ((fun _ => 0 : Clock), note)).map Prod.snd) = order := by
      intro order
      simp
    have hview := view_eq_iff.mp (h (order₁.map fun note => (fun _ => 0, note))
      (order₂.map fun note => (fun _ => 0, note)) 0 0 (by rwa [htimed]) (by rwa [htimed]))
    have hn := hview.2 n
    rw [(replicateAll_new hheld hids (by rwa [htimed]) 0).2 n,
      (replicateAll_new hheld hids (by rwa [htimed]) 0).2 n, htimed, htimed] at hn
    have hmem : ∀ r, r ∈ order₁.flatMap (records source) ↔ r ∈ order₂.flatMap (records source) :=
      fun r => ((h₁.trans h₂.symm).flatMap_right _).mem_iff
    by_cases hsome : ∃ r ∈ order₁.flatMap (records source), r.node = some n
    · rw [if_pos hsome, if_pos (by simpa only [hmem] using hsome)] at hn
      exact Option.some.inj hn
    · have hnone : ∀ order : List MeshNotification, order.Perm order₁ →
          finalState n (order.flatMap (records source)) = .new n 0 := by
        intro order horder
        unfold finalState stateAfter
        rw [List.filter_eq_nil_iff.mpr, List.foldl_nil]
        intro r hr hnode
        exact hsome ⟨r, ((horder.flatMap_right _).mem_iff).mp hr, by simpa using hnode⟩
      rw [hnone order₁ (.refl _), hnone order₂ (h₂.trans h₁.symm)]
  · intro h order₁ order₂ start₁ start₂ h₁ h₂
    obtain ⟨hstored₁, hview₁⟩ := replicateAll_new hheld hids h₁ start₁
    obtain ⟨hstored₂, hview₂⟩ := replicateAll_new hheld hids h₂ start₂
    have hmem : ∀ r, r ∈ (order₁.map Prod.snd).flatMap (records source) ↔
        r ∈ (order₂.map Prod.snd).flatMap (records source) :=
      fun r => ((h₁.trans h₂.symm).flatMap_right _).mem_iff
    rw [view_eq_iff]
    constructor
    · intro kind id
      apply Option.ext
      intro r
      rw [hstored₁, hstored₂, hmem]
    · intro n
      rw [hview₁, hview₂, h _ _ h₁ h₂ n]
      simp only [hmem]

end Notifications

end Mesh

end InfinityOS
