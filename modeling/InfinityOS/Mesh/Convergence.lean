import InfinityOS.Mesh.Replication

/-!
# When replication converges

The pointer to an artifact is the last delivered one of the node. The pointer to a
snapshot, with the revision, is a register under a watermark whose events are the snapshots
and the patches of the node; so is the pointer to a patch. From this, the sets of
notifications whose order does not matter are exactly the settled ones.
-/

namespace InfinityOS

namespace Mesh

def MeshNodeState.pointer (kind : RecordKind) (state : MeshNodeState) : Option ArtifactId :=
  match kind with
  | .artifact => state.lastArtifactId
  | .snapshot => state.lastSnapshotId
  | .patch => state.lastPatchId

/-! ## The state of a node as registers -/

/-- The event of a record in the register of `kind`. -/
def versionedStep (kind : RecordKind) :
    ℕ × Option ArtifactId → Record → ℕ × Option ArtifactId :=
  Watermark.step (fun r => r.revision.toNat) (fun r => r.kind = kind) Record.id

theorem Record.apply_artifact {r : Record} (h : r.kind = .artifact) (state : MeshNodeState) :
    r.apply state = { state with lastArtifactId := some r.id } := by
  cases r with
  | artifact a => rfl
  | snapshot x => exact absurd h (by simp [kind])
  | patch p => exact absurd h (by simp [kind])

theorem Record.apply_versioned {r : Record} (h : r.kind ≠ .artifact) {k : RecordKind}
    (hk : k ≠ .artifact) (state : MeshNodeState) :
    (((r.apply state).revision.toNat, (r.apply state).pointer k) =
        versionedStep k (state.revision.toNat, state.pointer k) r) ∧
      (r.apply state).lastArtifactId = state.lastArtifactId := by
  have hle : ∀ a b : UInt64, a.toNat ≤ b.toNat ↔ b ≥ a := fun a b => UInt64.le_iff_toNat_le.symm
  cases r with
  | artifact a => exact absurd rfl h
  | snapshot x =>
      simp only [versionedStep, Watermark.step, apply, revision, Record.kind, id, hle]
      split
      · cases k with
        | artifact => exact absurd rfl hk
        | snapshot => exact ⟨rfl, rfl⟩
        | patch => exact ⟨rfl, rfl⟩
      · exact ⟨rfl, rfl⟩
  | patch p =>
      simp only [versionedStep, Watermark.step, apply, revision, Record.kind, id, hle]
      split
      · cases k with
        | artifact => exact absurd rfl hk
        | snapshot => exact ⟨rfl, rfl⟩
        | patch => exact ⟨rfl, rfl⟩
      · exact ⟨rfl, rfl⟩

/-- The snapshots and the patches of a node. -/
def versionsOf (n : Uuid) (rs : List Record) : List Record :=
  rs.filter fun r => r.node = some n ∧ r.kind ≠ .artifact

def artifactsOf (n : Uuid) (rs : List Record) : List Record :=
  rs.filter fun r => r.node = some n ∧ r.kind = .artifact

theorem stateAfter_cons (n : Uuid) (state : MeshNodeState) (r : Record) (rs : List Record) :
    stateAfter n state (r :: rs) =
      stateAfter n (if r.node = some n then r.apply state else state) rs := by
  unfold stateAfter
  by_cases h : r.node = some n
  · rw [if_pos h, List.filter_cons_of_pos (by simpa using h), List.foldl_cons]
  · rw [if_neg h, List.filter_cons_of_neg (by simpa using h)]

theorem stateAfter_versioned (n : Uuid) {k : RecordKind} (hk : k ≠ .artifact)
    (state : MeshNodeState) (rs : List Record) :
    ((stateAfter n state rs).revision.toNat, (stateAfter n state rs).pointer k) =
      (versionsOf n rs).foldl (versionedStep k) (state.revision.toNat, state.pointer k) := by
  induction rs generalizing state with
  | nil => rfl
  | cons r rs ih =>
      rw [stateAfter_cons, ih, versionsOf, versionsOf, List.filter_cons]
      by_cases hnode : r.node = some n
      · by_cases hkind : r.kind = .artifact
        · have hsame : (r.apply state).pointer k = state.pointer k := by
            rw [r.apply_artifact hkind]
            cases k with
            | artifact => exact absurd rfl hk
            | snapshot => rfl
            | patch => rfl
          have hrevision : (r.apply state).revision = state.revision := by
            rw [r.apply_artifact hkind]
          simp [hnode, hkind, hsame, hrevision]
        · have hstep := (r.apply_versioned hkind hk state).1
          simp [hnode, hkind, hstep]
      · simp [hnode]

theorem stateAfter_lastArtifactId (n : Uuid) (state : MeshNodeState) (rs : List Record) :
    (stateAfter n state rs).lastArtifactId =
      ((artifactsOf n rs).getLast?.map Record.id).or state.lastArtifactId := by
  induction rs using List.reverseRecOn with
  | nil => rfl
  | append_singleton rs r ih =>
      have happend : stateAfter n state (rs ++ [r]) =
          if r.node = some n then r.apply (stateAfter n state rs) else stateAfter n state rs := by
        unfold stateAfter
        by_cases h : r.node = some n
        · simp [h]
        · simp [h]
      rw [happend, artifactsOf, List.filter_append]
      by_cases hnode : r.node = some n
      · rw [if_pos hnode]
        by_cases hkind : r.kind = .artifact
        · simp [hnode, hkind, r.apply_artifact hkind]
        · have hsame := (r.apply_versioned hkind (k := .patch) (by simp) (stateAfter n state rs)).2
          simpa [artifactsOf, hnode, hkind, hsame] using ih
      · simpa [artifactsOf, hnode] using ih

theorem Record.apply_nodeId (r : Record) (state : MeshNodeState) :
    (r.apply state).nodeId = state.nodeId ∧
      (r.apply state).updatedAtMs = state.updatedAtMs := by
  cases r with
  | artifact a => exact ⟨rfl, rfl⟩
  | snapshot x =>
      simp only [apply]
      split
      · exact ⟨rfl, rfl⟩
      · exact ⟨rfl, rfl⟩
  | patch p =>
      simp only [apply]
      split
      · exact ⟨rfl, rfl⟩
      · exact ⟨rfl, rfl⟩

theorem stateAfter_nodeId (n : Uuid) (state : MeshNodeState) (rs : List Record) :
    (stateAfter n state rs).nodeId = state.nodeId ∧
      (stateAfter n state rs).updatedAtMs = state.updatedAtMs := by
  induction rs generalizing state with
  | nil => exact ⟨rfl, rfl⟩
  | cons r rs ih =>
      rw [stateAfter_cons]
      split
      · have happly := r.apply_nodeId state
        have hrest := ih (r.apply state)
        rwa [happly.1, happly.2] at hrest
      · exact ih state

theorem pointer_finalState (n : Uuid) {k : RecordKind} (hk : k ≠ .artifact) (rs : List Record) :
    (finalState n rs).pointer k =
      ((versionsOf n rs).foldl (versionedStep k) (0, none)).2 := by
  have h := congrArg Prod.snd (stateAfter_versioned n hk (.new n 0) rs)
  have hnone : (MeshNodeState.new n 0).pointer k = none := by
    cases k with
    | artifact => rfl
    | snapshot => rfl
    | patch => rfl
  rw [hnone] at h
  exact h

theorem lastArtifactId_finalState (n : Uuid) (rs : List Record) :
    (finalState n rs).lastArtifactId = (artifactsOf n rs).getLast?.map Record.id := by
  have h := stateAfter_lastArtifactId n (.new n 0) rs
  rwa [show (MeshNodeState.new n 0).lastArtifactId = none from rfl, Option.or_none] at h

/-- The revision is the same in every order, so only the pointers can differ. -/
theorem finalState_eq_iff {n : Uuid} {rs rs' : List Record} (h : rs.Perm rs') :
    finalState n rs = finalState n rs' ↔
      (finalState n rs).lastArtifactId = (finalState n rs').lastArtifactId ∧
        ∀ k ≠ RecordKind.artifact, (finalState n rs).pointer k = (finalState n rs').pointer k := by
  constructor
  · intro heq
    rw [heq]
    exact ⟨rfl, fun k _ => rfl⟩
  · rintro ⟨hartifact, hpointer⟩
    have hrevision : (finalState n rs).revision = (finalState n rs').revision := by
      have hfst := congrArg Prod.fst (stateAfter_versioned n (k := .patch) (by simp) (.new n 0) rs)
      have hfst' := congrArg Prod.fst
        (stateAfter_versioned n (k := .patch) (by simp) (.new n 0) rs')
      have hperm : (versionsOf n rs).Perm (versionsOf n rs') := h.filter _
      unfold versionedStep at hfst hfst'
      rw [Watermark.fst_foldl_perm hperm, ← hfst'] at hfst
      exact UInt64.toNat_inj.mp hfst
    have hnode := stateAfter_nodeId n (.new n 0) rs
    have hnode' := stateAfter_nodeId n (.new n 0) rs'
    have hsnapshot := hpointer .snapshot (by simp)
    have hpatch := hpointer .patch (by simp)
    have hid := hnode.1.trans hnode'.1.symm
    have htime := hnode.2.trans hnode'.2.symm
    change (finalState n rs).nodeId = (finalState n rs').nodeId at hid
    change (finalState n rs).updatedAtMs = (finalState n rs').updatedAtMs at htime
    change (finalState n rs).lastSnapshotId = (finalState n rs').lastSnapshotId at hsnapshot
    change (finalState n rs).lastPatchId = (finalState n rs').lastPatchId at hpatch
    generalize finalState n rs = state at *
    generalize finalState n rs' = state' at *
    cases state
    cases state'
    simp_all

/-! ## The condition -/

/-- The notifications that a store sends: of one record, or of a batch of artifacts. -/
def Built (note : MeshNotification) : Prop :=
  note.ids.length = 1 ∨ note.kind = .batchProduced

/-- There is no record of the kind for the node, or exactly one that no snapshot or patch
of the node outranks. -/
def OneOnTop (rs : List Record) (n : Uuid) (k : RecordKind) : Prop :=
  (∃ r ∈ rs, r.kind = k ∧ r.node = some n) →
    ∃ r ∈ rs, r.kind = k ∧ r.node = some n ∧
      (∀ r' ∈ rs, r'.node = some n → r'.revision ≤ r.revision) ∧
      ∀ r' ∈ rs, r'.kind = k → r'.node = some n → r'.revision = r.revision → r' = r

def AnnouncesArtifact (source : MeshArtifactStore) (n : Uuid) (note : MeshNotification) : Prop :=
  ∃ r ∈ records source note, r.kind = .artifact ∧ r.node = some n

structure Settled (source : MeshArtifactStore) (notifications : List MeshNotification) (n : Uuid) :
    Prop where
  artifact : ∀ note ∈ notifications, ∀ note' ∈ notifications,
    AnnouncesArtifact source n note → AnnouncesArtifact source n note' → note = note'
  version : ∀ k ≠ RecordKind.artifact, OneOnTop (notifications.flatMap (records source)) n k

/-! ## Settled nodes converge -/

section Pointers

variable {n : Uuid} {k : RecordKind} {rs rs' : List Record} {r : Record}

theorem mem_versionsOf : r ∈ versionsOf n rs ↔ r ∈ rs ∧ r.node = some n ∧ r.kind ≠ .artifact := by
  simp [versionsOf]

theorem pointer_of_top (hk : k ≠ .artifact) (hids : (rs.map Record.id).Nodup) (hr : r ∈ rs)
    (hkind : r.kind = k) (hnode : r.node = some n)
    (htop : ∀ r' ∈ rs, r'.node = some n → r'.revision ≤ r.revision)
    (honly : ∀ r' ∈ rs, r'.kind = k → r'.node = some n → r'.revision = r.revision → r' = r) :
    (finalState n rs).pointer k = some r.id := by
  have hmem : r ∈ versionsOf n rs := mem_versionsOf.mpr ⟨hr, hnode, by rwa [hkind]⟩
  have hnodup : (versionsOf n rs).Nodup := (List.Nodup.of_map Record.id hids).filter _
  obtain ⟨l₁, l₂, hsplit⟩ := List.append_of_mem hmem
  have hle : ∀ r' ∈ versionsOf n rs, r'.revision.toNat ≤ r.revision.toNat := by
    intro r' hr'
    have hr'' := mem_versionsOf.mp hr'
    exact UInt64.le_iff_toNat_le.mp (htop r' hr''.1 hr''.2.1)
  rw [pointer_finalState n hk, hsplit]
  unfold versionedStep
  refine Watermark.snd_foldl_eq_some (Nat.zero_le _) ?_ ?_ ?_
  · exact hkind
  · intro r' hr'
    exact hle r' (by simp [hsplit, hr'])
  · intro r' hr' hmine
    have hr'' : r' ∈ versionsOf n rs := by simp [hsplit, hr']
    apply lt_of_le_of_ne (hle r' hr'')
    intro heq
    have hsame := honly r' (mem_versionsOf.mp hr'').1 hmine (mem_versionsOf.mp hr'').2.1
      (UInt64.toNat_inj.mp heq)
    rw [hsplit] at hnodup
    have hnotMem := (List.nodup_cons.mp (List.nodup_append.mp hnodup).2.1).1
    rw [hsame] at hr'
    exact hnotMem hr'

theorem pointer_of_none (hk : k ≠ .artifact) (hnone : ∀ r ∈ rs, r.kind = k → r.node ≠ some n) :
    (finalState n rs).pointer k = none := by
  rw [pointer_finalState n hk]
  apply Watermark.snd_foldl_of_lt
  intro r hr hmine
  exact absurd (mem_versionsOf.mp hr).2.1 (hnone r (mem_versionsOf.mp hr).1 hmine)

theorem pointer_eq_of_oneOnTop (hk : k ≠ .artifact) (hids : (rs.map Record.id).Nodup)
    (hperm : rs.Perm rs') (h : OneOnTop rs n k) :
    (finalState n rs).pointer k = (finalState n rs').pointer k := by
  by_cases hsome : ∃ r ∈ rs, r.kind = k ∧ r.node = some n
  · obtain ⟨r, hr, hkind, hnode, htop, honly⟩ := h hsome
    simp only [hperm.mem_iff] at hr htop honly
    rw [pointer_of_top hk ((hperm.map Record.id).nodup_iff.mp hids) hr hkind hnode htop honly]
    simp only [← hperm.mem_iff] at hr htop honly
    exact pointer_of_top hk hids hr hkind hnode htop honly
  · have hnone : ∀ r ∈ rs, r.kind = k → r.node ≠ some n :=
      fun r hr hkind hnode => hsome ⟨r, hr, hkind, hnode⟩
    rw [pointer_of_none hk hnone, pointer_of_none hk]
    intro r hr
    exact hnone r (hperm.mem_iff.mpr hr)

/-! ## Orders that tell -/

theorem pointer_eq_none_of_head {p : Record} (hk : k ≠ .artifact) (hp : p.kind ≠ .artifact)
    (hpk : p.kind ≠ k) (hnode : p.node = some n)
    (hbelow : ∀ r ∈ rs, r.kind = k → r.node = some n → r.revision < p.revision) :
    (finalState n (p :: rs)).pointer k = none := by
  rw [pointer_finalState n hk, versionsOf, List.filter_cons_of_pos (by simp [hnode, hp]),
    List.foldl_cons]
  unfold versionedStep
  have hfirst : (Watermark.step (fun r : Record => r.revision.toNat) (fun r => r.kind = k)
      Record.id (0, none) p) = (p.revision.toNat, none) := by
    rw [Watermark.step, if_pos (Nat.zero_le _), if_neg hpk]
  rw [hfirst, Watermark.snd_foldl_of_lt]
  intro r hr hmine
  have hr' := mem_versionsOf.mp hr
  exact UInt64.lt_iff_toNat_lt.mp (hbelow r hr'.1 hmine hr'.2.1)

theorem isSome_pointer_of_head (rs : List Record) (hk : k ≠ .artifact) (hkind : r.kind = k)
    (hnode : r.node = some n) : ((finalState n (r :: rs)).pointer k).isSome := by
  have hversion : r.kind ≠ .artifact := by rwa [hkind]
  rw [pointer_finalState n hk, versionsOf, List.filter_cons_of_pos (by simp [hnode, hversion]),
    List.foldl_cons]
  apply Watermark.isSome_snd_foldl
  rw [versionedStep, Watermark.step, if_pos (Nat.zero_le _), if_pos hkind]
  rfl

theorem pointer_of_last (hk : k ≠ .artifact) (hkind : r.kind = k) (hnode : r.node = some n)
    (htop : ∀ r' ∈ rs, r'.node = some n → r'.revision ≤ r.revision) :
    (finalState n (rs ++ [r])).pointer k = some r.id := by
  have hversion : r.kind ≠ .artifact := by rwa [hkind]
  rw [pointer_finalState n hk, versionsOf, List.filter_append, List.filter_cons_of_pos
    (by simp [hnode, hversion]), List.filter_nil]
  unfold versionedStep
  refine Watermark.snd_foldl_eq_some (Nat.zero_le _) ?_ ?_ ?_
  · exact hkind
  · intro r' hr'
    have hr'' := mem_versionsOf.mp hr'
    exact UInt64.le_iff_toNat_le.mp (htop r' hr''.1 hr''.2.1)
  · simp

theorem lastArtifactId_of_last (front : List Record) {back : List Record}
    (h : ∃ r ∈ back, r.kind = .artifact ∧ r.node = some n) :
    ∃ r ∈ back, (finalState n (front ++ back)).lastArtifactId = some r.id := by
  rw [lastArtifactId_finalState, artifactsOf, List.filter_append, List.getLast?_append]
  obtain ⟨r, hr, hkind, hnode⟩ := h
  have hmem : r ∈ back.filter fun r => r.node = some n ∧ r.kind = .artifact := by
    simp [hr, hkind, hnode]
  rw [List.getLast?_eq_some_getLast (List.ne_nil_of_mem hmem), Option.some_or, Option.map_some]
  exact ⟨_, List.mem_of_mem_filter (List.getLast_mem _), rfl⟩

end Pointers

/-! ## Sets of notifications -/

section Notifications

variable {source : MeshArtifactStore} {notifications : List MeshNotification}
  {note note' : MeshNotification} {n : Uuid} {k : RecordKind} {r r' : Record}

theorem kind_of_stored {kind : RecordKind} {id : ArtifactId}
    (h : source.stored kind id = some r) : r.kind = kind := by
  cases kind with
  | artifact =>
      obtain ⟨a, -, rfl⟩ := Option.map_eq_some_iff.mp h
      rfl
  | snapshot =>
      obtain ⟨x, -, rfl⟩ := Option.map_eq_some_iff.mp h
      rfl
  | patch =>
      obtain ⟨p, -, rfl⟩ := Option.map_eq_some_iff.mp h
      rfl

theorem records_of_version (hbuilt : Built note) (hr : r ∈ records source note)
    (hkind : r.kind ≠ .artifact) : records source note = [r] := by
  rcases hbuilt with hone | hbatch
  · have hlength : (records source note).length ≤ 1 := by
      rw [← hone]
      exact List.length_filterMap_le _ _
    cases hrecords : records source note with
    | nil =>
        rw [hrecords] at hr
        exact absurd hr List.not_mem_nil
    | cons r₁ rs =>
        rw [hrecords, List.length_cons] at hlength
        have hnil : rs = [] := List.eq_nil_of_length_eq_zero (by omega)
        rw [hrecords, hnil] at hr
        rw [hnil, List.mem_singleton.mp hr]
  · obtain ⟨id, -, hid⟩ := List.mem_filterMap.mp hr
    rw [hbatch] at hid
    have hstored : source.stored .artifact id = some r := hid
    exact absurd (kind_of_stored hstored) hkind

theorem note_eq_of_id (hids : ((notifications.flatMap (records source)).map Record.id).Nodup)
    (hnote : note ∈ notifications) (hnote' : note' ∈ notifications)
    (hr : r ∈ records source note) (hr' : r' ∈ records source note') (hid : r.id = r'.id) :
    note = note' := by
  by_contra hne
  rw [List.map_flatMap, List.nodup_flatMap] at hids
  have hsymm : Std.Symm (Function.onFun List.Disjoint
      fun note => (records source note).map Record.id) := ⟨fun _ _ h => List.Disjoint.symm h⟩
  have hdisjoint := hids.2.forall hnote hnote' hne
  exact hdisjoint (List.mem_map_of_mem hr) (hid ▸ List.mem_map_of_mem hr')

theorem exists_perm_head (h : note ∈ notifications) :
    ∃ rest, (note :: rest).Perm notifications := by
  obtain ⟨l₁, l₂, rfl⟩ := List.append_of_mem h
  exact ⟨l₁ ++ l₂, List.perm_middle.symm⟩

theorem exists_perm_last (h : note ∈ notifications) :
    ∃ rest, (rest ++ [note]).Perm notifications := by
  obtain ⟨rest, hrest⟩ := exists_perm_head h
  exact ⟨rest, (List.perm_append_singleton note rest).trans hrest⟩

theorem OneOnTop.perm {rs rs' : List Record} (hperm : rs.Perm rs') (h : OneOnTop rs n k) :
    OneOnTop rs' n k := by
  unfold OneOnTop at h ⊢
  simpa only [hperm.mem_iff] using h

/-! ### Settled sets converge -/

theorem artifactsOf_eq_nil {notes : List MeshNotification}
    (h : ∀ note ∈ notes, ¬ AnnouncesArtifact source n note) :
    artifactsOf n (notes.flatMap (records source)) = [] := by
  apply List.filter_eq_nil_iff.mpr
  intro r hr hartifact
  obtain ⟨note, hnote, hr⟩ := List.mem_flatMap.mp hr
  simp only [decide_eq_true_eq] at hartifact
  exact h note hnote ⟨r, hr, hartifact.2, hartifact.1⟩

theorem artifactsOf_of_settled (h : Settled source notifications n)
    (hids : ((notifications.flatMap (records source)).map Record.id).Nodup)
    (hnote : note ∈ notifications) (hannounces : AnnouncesArtifact source n note) :
    artifactsOf n (notifications.flatMap (records source)) =
      artifactsOf n (records source note) := by
  obtain ⟨l₁, l₂, rfl⟩ := List.append_of_mem hnote
  obtain ⟨r, hr, -⟩ := id hannounces
  -- the others announce no artifact of the node: they would be `note`, which is there once
  have hothers : ∀ m ∈ l₁ ++ l₂, ¬ AnnouncesArtifact source n m := by
    intro m hm hm'
    have hmem : m ∈ l₁ ++ note :: l₂ := by
      rw [List.mem_append, List.mem_cons]
      exact (List.mem_append.mp hm).imp_right Or.inr
    have heq := h.artifact m hmem note hnote hm' hannounces
    rw [heq] at hm
    have hperm : (l₁ ++ note :: l₂).Perm (note :: (l₁ ++ l₂)) := List.perm_middle
    rw [((hperm.flatMap_right _).map _).nodup_iff, List.flatMap_cons, List.map_append,
      List.nodup_append] at hids
    exact hids.2.2 r.id (List.mem_map_of_mem hr) r.id
      (List.mem_map_of_mem (List.mem_flatMap.mpr ⟨note, hm, hr⟩)) rfl
  have hfront := artifactsOf_eq_nil fun m hm => hothers m (List.mem_append_left l₂ hm)
  have hback := artifactsOf_eq_nil fun m hm => hothers m (List.mem_append_right l₁ hm)
  unfold artifactsOf at hfront hback ⊢
  rw [List.flatMap_append, List.flatMap_cons, List.filter_append, List.filter_append, hfront,
    hback, List.nil_append, List.append_nil]

theorem Settled.perm {order : List MeshNotification} (hperm : order.Perm notifications)
    (h : Settled source notifications n) : Settled source order n where
  artifact := by
    simpa only [hperm.mem_iff] using h.artifact
  version := fun k hk => (h.version k hk).perm (hperm.symm.flatMap_right _)

theorem Settled.finalState_eq {order₁ order₂ : List MeshNotification}
    (hids : ((notifications.flatMap (records source)).map Record.id).Nodup)
    (h : Settled source notifications n) (h₁ : order₁.Perm notifications)
    (h₂ : order₂.Perm notifications) :
    finalState n (order₁.flatMap (records source)) =
      finalState n (order₂.flatMap (records source)) := by
  have hperm : (order₁.flatMap (records source)).Perm (order₂.flatMap (records source)) :=
    (h₁.trans h₂.symm).flatMap_right _
  have hids₁ := ((h₁.flatMap_right (records source)).map Record.id).nodup_iff.mpr hids
  have hids₂ := ((h₂.flatMap_right (records source)).map Record.id).nodup_iff.mpr hids
  rw [finalState_eq_iff hperm]
  constructor
  · rw [lastArtifactId_finalState, lastArtifactId_finalState]
    by_cases hsome : ∃ note ∈ notifications, AnnouncesArtifact source n note
    · obtain ⟨note, hnote, hannounces⟩ := hsome
      rw [artifactsOf_of_settled (h.perm h₁) hids₁ (h₁.mem_iff.mpr hnote) hannounces,
        artifactsOf_of_settled (h.perm h₂) hids₂ (h₂.mem_iff.mpr hnote) hannounces]
    · have hnone : ∀ note ∈ notifications, ¬ AnnouncesArtifact source n note :=
        fun note hnote hannounces => hsome ⟨note, hnote, hannounces⟩
      rw [artifactsOf_eq_nil fun note hnote => hnone note (h₁.mem_iff.mp hnote),
        artifactsOf_eq_nil fun note hnote => hnone note (h₂.mem_iff.mp hnote)]
  · intro k hk
    exact pointer_eq_of_oneOnTop hk hids₁ hperm ((h.perm h₁).version k hk)

/-! ### Converging sets are settled -/

theorem note_eq_of_converges
    (hids : ((notifications.flatMap (records source)).map Record.id).Nodup)
    (h : ∀ order₁ order₂ : List MeshNotification, order₁.Perm notifications →
      order₂.Perm notifications →
        (finalState n (order₁.flatMap (records source))).lastArtifactId =
          (finalState n (order₂.flatMap (records source))).lastArtifactId)
    (hnote : note ∈ notifications) (hnote' : note' ∈ notifications)
    (hannounces : AnnouncesArtifact source n note)
    (hannounces' : AnnouncesArtifact source n note') : note = note' := by
  obtain ⟨rest, hrest⟩ := exists_perm_last hnote
  obtain ⟨rest', hrest'⟩ := exists_perm_last hnote'
  have heq := h _ _ hrest hrest'
  simp only [List.flatMap_append, List.flatMap_singleton] at heq
  obtain ⟨r, hr, hlast⟩ := lastArtifactId_of_last (rest.flatMap (records source)) hannounces
  obtain ⟨r', hr', hlast'⟩ := lastArtifactId_of_last (rest'.flatMap (records source)) hannounces'
  rw [hlast, hlast'] at heq
  exact note_eq_of_id hids hnote hnote' hr hr' (Option.some.inj heq)

theorem exists_order_head (hbuilt : ∀ note ∈ notifications, Built note)
    (hr : r ∈ notifications.flatMap (records source)) (hversion : r.kind ≠ .artifact) :
    ∃ (order : List MeshNotification) (rest : List Record),
      order.Perm notifications ∧ order.flatMap (records source) = r :: rest := by
  obtain ⟨note, hnote, hrnote⟩ := List.mem_flatMap.mp hr
  obtain ⟨rest, hrest⟩ := exists_perm_head hnote
  refine ⟨note :: rest, rest.flatMap (records source), hrest, ?_⟩
  rw [List.flatMap_cons, records_of_version (hbuilt note hnote) hrnote hversion,
    List.singleton_append]

theorem exists_order_last (hbuilt : ∀ note ∈ notifications, Built note)
    (hr : r ∈ notifications.flatMap (records source)) (hversion : r.kind ≠ .artifact) :
    ∃ (order : List MeshNotification) (front : List Record),
      order.Perm notifications ∧ order.flatMap (records source) = front ++ [r] := by
  obtain ⟨note, hnote, hrnote⟩ := List.mem_flatMap.mp hr
  obtain ⟨front, hfront⟩ := exists_perm_last hnote
  refine ⟨front ++ [note], front.flatMap (records source), hfront, ?_⟩
  rw [List.flatMap_append, List.flatMap_singleton,
    records_of_version (hbuilt note hnote) hrnote hversion]

theorem exists_highest {rs : List Record} (h : ∃ r ∈ rs, r.kind = k ∧ r.node = some n) :
    ∃ r ∈ rs, r.kind = k ∧ r.node = some n ∧
      ∀ r' ∈ rs, r'.kind = k → r'.node = some n → r'.revision ≤ r.revision := by
  obtain ⟨r₀, hr₀, hkind₀, hnode₀⟩ := h
  obtain ⟨r, hr⟩ : ∃ r, (rs.filter fun r => r.kind = k ∧ r.node = some n).argmax
      (fun r => r.revision.toNat) = some r := by
    rw [← Option.ne_none_iff_exists', ne_eq, List.argmax_eq_none, List.filter_eq_nil_iff]
    intro hnone
    exact hnone r₀ hr₀ (by simp [hkind₀, hnode₀])
  have hmem := List.mem_filter.mp (List.argmax_mem hr)
  simp only [decide_eq_true_eq] at hmem
  refine ⟨r, hmem.1, hmem.2.1, hmem.2.2, ?_⟩
  intro r' hr' hkind' hnode'
  exact UInt64.le_iff_toNat_le.mpr (List.le_of_mem_argmax
    (f := fun r : Record => r.revision.toNat)
    (List.mem_filter.mpr ⟨hr', by simp [hkind', hnode']⟩) hr)

theorem kind_ne_artifact_of_lt (h : r.revision < r'.revision) : r'.kind ≠ .artifact := by
  cases r' with
  | artifact a => exact absurd UInt64.zero_le (UInt64.not_le.mpr h)
  | snapshot x => simp [Record.kind]
  | patch x => simp [Record.kind]

/-- Delivered first, a version above the whole kind would keep its pointer from being set,
and a record of the kind delivered first would set it. -/
theorem revision_le_of_converges (hk : k ≠ .artifact)
    (hbuilt : ∀ note ∈ notifications, Built note)
    (h : ∀ order₁ order₂ : List MeshNotification, order₁.Perm notifications →
      order₂.Perm notifications →
        (finalState n (order₁.flatMap (records source))).pointer k =
          (finalState n (order₂.flatMap (records source))).pointer k)
    (hr : r ∈ notifications.flatMap (records source)) (hkind : r.kind = k)
    (hnode : r.node = some n)
    (hmax : ∀ r' ∈ notifications.flatMap (records source), r'.kind = k → r'.node = some n →
      r'.revision ≤ r.revision)
    (hr' : r' ∈ notifications.flatMap (records source)) (hnode' : r'.node = some n) :
    r'.revision ≤ r.revision := by
  by_contra hle
  have hlt : r.revision < r'.revision := UInt64.not_le.mp hle
  have hversion := kind_ne_artifact_of_lt hlt
  obtain ⟨order, rest, hperm, horder⟩ := exists_order_head hbuilt hr (by rwa [hkind])
  obtain ⟨order', rest', hperm', horder'⟩ := exists_order_head hbuilt hr' hversion
  have hsome := isSome_pointer_of_head rest hk hkind hnode
  rw [← horder, h order order' hperm hperm', horder', pointer_eq_none_of_head hk hversion
    (fun hkind' => hle (hmax r' hr' hkind' hnode')) hnode'] at hsome
  · cases hsome
  · intro q hq hqkind hqnode
    have hmem : q ∈ notifications.flatMap (records source) := by
      apply (hperm'.flatMap_right (records source)).mem_iff.mp
      rw [horder']
      exact List.mem_cons_of_mem r' hq
    exact UInt64.lt_of_le_of_lt (hmax q hmem hqkind hqnode) hlt

theorem oneOnTop_of_converges (hk : k ≠ .artifact)
    (hbuilt : ∀ note ∈ notifications, Built note)
    (hids : ((notifications.flatMap (records source)).map Record.id).Nodup)
    (h : ∀ order₁ order₂ : List MeshNotification, order₁.Perm notifications →
      order₂.Perm notifications →
        (finalState n (order₁.flatMap (records source))).pointer k =
          (finalState n (order₂.flatMap (records source))).pointer k) :
    OneOnTop (notifications.flatMap (records source)) n k := by
  intro hsome
  obtain ⟨r, hr, hkind, hnode, hmax⟩ := exists_highest hsome
  have htop : ∀ r' ∈ notifications.flatMap (records source), r'.node = some n →
      r'.revision ≤ r.revision :=
    fun r' hr' hnode' => revision_le_of_converges hk hbuilt h hr hkind hnode hmax hr' hnode'
  refine ⟨r, hr, hkind, hnode, htop, ?_⟩
  intro r' hr' hkind' hnode' hrevision
  obtain ⟨order, front, hperm, horder⟩ := exists_order_last hbuilt hr (by rwa [hkind])
  obtain ⟨order', front', hperm', horder'⟩ := exists_order_last hbuilt hr' (by rwa [hkind'])
  have hlast := h order order' hperm hperm'
  rw [horder, horder', pointer_of_last hk hkind hnode, pointer_of_last hk hkind' hnode'] at hlast
  · exact List.inj_on_of_nodup_map hids hr' hr (Option.some.inj hlast).symm
  · intro q hq hqnode
    rw [hrevision]
    apply htop q _ hqnode
    apply (hperm'.flatMap_right (records source)).mem_iff.mp
    rw [horder']
    exact List.mem_append_left _ hq
  · intro q hq hqnode
    apply htop q _ hqnode
    apply (hperm.flatMap_right (records source)).mem_iff.mp
    rw [horder]
    exact List.mem_append_left _ hq

/-- Replication of a set of notifications to an empty store has one outcome for all orders
exactly when every node is settled. -/
theorem replication_converges_iff (hbuilt : ∀ note ∈ notifications, Built note)
    (hheld : ∀ note ∈ notifications, Held source note)
    (hids : ((notifications.flatMap (records source)).map Record.id).Nodup) :
    Converges source notifications ↔ ∀ n, Settled source notifications n := by
  rw [converges_iff_finalState hheld hids]
  constructor
  · intro h n
    have hiff : ∀ order₁ order₂ : List MeshNotification, order₁.Perm notifications →
        order₂.Perm notifications → _ := fun order₁ order₂ h₁ h₂ =>
      (finalState_eq_iff ((h₁.trans h₂.symm).flatMap_right _)).mp (h order₁ order₂ h₁ h₂ n)
    constructor
    · intro note hnote note' hnote' hannounces hannounces'
      exact note_eq_of_converges hids (fun o₁ o₂ h₁ h₂ => (hiff o₁ o₂ h₁ h₂).1) hnote hnote'
        hannounces hannounces'
    · intro k hk
      exact oneOnTop_of_converges hk hbuilt hids fun o₁ o₂ h₁ h₂ => (hiff o₁ o₂ h₁ h₂).2 k hk
  · intro h order₁ order₂ h₁ h₂ n
    exact (h n).finalState_eq hids h₁ h₂

end Notifications

/-! ## A snapshot and a later patch -/

/-- Node 7 with a snapshot, of revision 0, and a patch after it, to revision 1. -/
def sampleSource : MeshArtifactStore :=
  let s := ((MeshArtifactStore.new 0).snapshotNode (fun _ => 0) 1 7 .null 3 2).2
  (s.patch (fun _ => 0) 2 7 .null .null [] 3 2).2

def snapshotNote : MeshNotification := { ids := [1], kind := .snapshot }

def patchNote : MeshNotification := { ids := [2], kind := .patch }

theorem held_singleton {source : MeshArtifactStore} {id : ArtifactId}
    {kind : MeshNotificationKind} (h : (resolve source kind id).isSome) :
    Held source { ids := [id], kind := kind } := by
  intro id' hid'
  rwa [List.mem_singleton.mp hid']

/-- Then node 7 has another snapshot, of revision 1, and node 8 has one, of revision 0. -/
def settledSource : MeshArtifactStore :=
  let s := (sampleSource.snapshotNode (fun _ => 5) 3 7 .null 3 2).2
  (s.snapshotNode (fun _ => 6) 4 8 .null 3 2).2

def settledNotes : List MeshNotification :=
  [patchNote, { ids := [3], kind := .snapshot }, { ids := [4], kind := .snapshot }]

def firstPatch : DiffPatch :=
  { artifactId := 2, dimensionId := 2, taskId := 3, nodeId := 7, provenance := nodeProvenance 3 7,
    createdAtMs := 0, baseRevision := 0, newRevision := 1, conflict := false, before := .null,
    after := .null, ops := [] }

def laterSnapshot : NodeSnapshot :=
  { artifactId := 3, dimensionId := 2, taskId := 3, nodeId := 7, state := .null,
    provenance := nodeProvenance 3 7, capturedAtMs := 5, revision := 1 }

def otherSnapshot : NodeSnapshot :=
  { artifactId := 4, dimensionId := 2, taskId := 3, nodeId := 8, state := .null,
    provenance := nodeProvenance 3 8, capturedAtMs := 6, revision := 0 }

theorem records_settledNotes : settledNotes.flatMap (records settledSource) =
    [.patch firstPatch, .snapshot laterSnapshot, .snapshot otherSnapshot] := rfl

theorem settled_settledNotes (n : Uuid) : Settled settledSource settledNotes n := by
  constructor
  · intro note hnote _ _ hannounces _
    obtain ⟨r, hr, hkind, -⟩ := hannounces
    have hmem : r ∈ settledNotes.flatMap (records settledSource) :=
      List.mem_flatMap.mpr ⟨note, hnote, hr⟩
    rw [records_settledNotes] at hmem
    simp only [List.mem_cons, List.not_mem_nil, or_false] at hmem
    rcases hmem with rfl | rfl | rfl <;> cases hkind
  · intro k hk
    rw [records_settledNotes]
    rintro ⟨r, hr, hkind, hnode⟩
    refine ⟨r, hr, hkind, hnode, ?_⟩
    simp only [List.mem_cons, List.not_mem_nil, or_false] at hr
    rcases hr with rfl | rfl | rfl
    all_goals
      cases hkind
      cases hnode
      simp [Record.kind, Record.node, Record.revision, firstPatch, laterSnapshot, otherSnapshot]

/-- These converge, in whatever order they are delivered. -/
theorem replication_converges_iff_sample : Converges settledSource settledNotes :=
  (replication_converges_iff (by simp [Built])
    (List.forall_mem_cons.mpr ⟨held_singleton (by decide +kernel),
      List.forall_mem_cons.mpr ⟨held_singleton (by decide +kernel),
        List.forall_mem_singleton.mpr (held_singleton (by decide +kernel))⟩⟩)
    (by decide +kernel)).mpr settled_settledNotes

/-- The patch first, and the snapshot is not pointed to. -/
theorem replication_diverges : ¬ Converges sampleSource [snapshotNote, patchNote] := by
  intro h
  have hview := h [(fun _ => 0, snapshotNote), (fun _ => 0, patchNote)]
    [(fun _ => 0, patchNote), (fun _ => 0, snapshotNote)] 0 0 (.refl _) (.swap _ _ _)
  have hnode := congrArg (fun o : Option MeshNodeState => o.map MeshNodeState.lastSnapshotId)
    ((view_eq_iff.mp hview).2 7)
  revert hnode
  decide +kernel

end Mesh

end InfinityOS
