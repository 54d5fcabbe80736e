import InfinityOS.Mesh.Store

/-!
# Delivered records

Replication hands records to the target one by one. `Record` is any of the three kinds of
them, `insert` its insertion and `apply` its effect on the state of its node. What a store
holds after records with new ids is given record by record (`stored_deliver`) and node by
node (`nodeView_deliver`); timestamps of the local clock are left out of the latter.
-/

namespace InfinityOS

namespace Mesh

inductive RecordKind where
  | artifact
  | snapshot
  | patch
  deriving DecidableEq

inductive Record where
  | artifact (artifact : MeshArtifact)
  | snapshot (snapshot : NodeSnapshot)
  | patch (patch : DiffPatch)

namespace Record

def kind : Record → RecordKind
  | artifact _ => .artifact
  | snapshot _ => .snapshot
  | patch _ => .patch

def id : Record → ArtifactId
  | artifact a => a.id
  | snapshot x => x.artifactId
  | patch p => p.artifactId

def node : Record → Option Uuid
  | artifact a => a.nodeId
  | snapshot x => some x.nodeId
  | patch p => some p.nodeId

def revision : Record → UInt64
  | artifact _ => 0
  | snapshot x => x.revision
  | patch p => p.newRevision

/-- The update that the insertion makes to the state of the node. -/
def apply : Record → MeshNodeState → MeshNodeState
  | artifact a, state => { state with lastArtifactId := some a.id }
  | snapshot x, state =>
      if x.revision ≥ state.revision then
        { state with lastSnapshotId := some x.artifactId, revision := x.revision }
      else
        state
  | patch p, state =>
      if p.newRevision ≥ state.revision then
        { state with lastPatchId := some p.artifactId, revision := p.newRevision }
      else
        state

def insert (clock : Clock) : Record → MeshArtifactStore → Except MeshError Unit × MeshArtifactStore
  | artifact a => MeshArtifactStore.insertReplicatedArtifact clock a
  | snapshot x => MeshArtifactStore.insertReplicatedSnapshot clock x
  | patch p => MeshArtifactStore.insertReplicatedPatch clock p

end Record

/-- The record in its table, before the state of its node is looked at. -/
def Record.put : Record → MeshArtifactStore → MeshArtifactStore
  | artifact a, s =>
      { s with index := s.index.insert a, artifacts := s.artifacts.insert a.id a }
  | snapshot x, s => { s with snapshots := s.snapshots.insert x.artifactId x }
  | patch p, s => { s with patches := s.patches.insert p.artifactId p }

def MeshArtifactStore.stored (s : MeshArtifactStore) (kind : RecordKind) (id : ArtifactId) :
    Option Record :=
  match kind with
  | .artifact => s.artifacts[id]?.map .artifact
  | .snapshot => s.snapshots[id]?.map .snapshot
  | .patch => s.patches[id]?.map .patch

def MeshNodeState.untimed (state : MeshNodeState) : MeshNodeState :=
  { state with updatedAtMs := 0 }

def MeshArtifactStore.nodeView (s : MeshArtifactStore) (n : Uuid) : Option MeshNodeState :=
  s.nodeStates[n]?.map MeshNodeState.untimed

theorem Record.apply_untimed (r : Record) (state : MeshNodeState) :
    (r.apply state).untimed = r.apply state.untimed := by
  cases r with
  | artifact a => rfl
  | snapshot x => exact apply_ite MeshNodeState.untimed _ _ _
  | patch p => exact apply_ite MeshNodeState.untimed _ _ _

/-! ## One record -/

section Table

variable {ν : Type} {m : HashMap ArtifactId ν} {f : ν → Record} {id : ArtifactId}

theorem notMem_of_map_eq_none (h : m[id]?.map f = none) : id ∉ m := by
  rw [← Std.ExtTreeMap.isSome_getElem?_iff_mem, Option.map_eq_none_iff.mp h]
  exact Bool.false_ne_true

theorem map_getElem?_insert (m : HashMap ArtifactId ν) (f : ν → Record) (a id : ArtifactId)
    (v : ν) : (m.insert a v)[id]?.map f = if a = id then some (f v) else m[id]?.map f := by
  rw [Maps.getElem?_insert_ite]
  by_cases h : id = a
  · rw [if_pos h, if_pos h.symm, Option.map_some]
  · rw [if_neg h, if_neg (Ne.symm h)]

end Table

theorem Record.insert_of_new (clock : Clock) {r : Record} {s : MeshArtifactStore}
    (hnew : s.stored r.kind r.id = none) :
    r.insert clock s =
      (.ok (), match r.node with
        | none => r.put s
        | some n => (r.put s).touchNodeState clock n r.apply) := by
  cases r with
  | artifact a =>
      have hmem : a.id ∉ s.artifacts := notMem_of_map_eq_none hnew
      simp only [insert, MeshArtifactStore.insertReplicatedArtifact, if_neg hmem, node, put]
      cases hnode : a.nodeId with
      | none => rfl
      | some n => rfl
  | snapshot x =>
      have hmem : x.artifactId ∉ s.snapshots := notMem_of_map_eq_none hnew
      simp only [insert, MeshArtifactStore.insertReplicatedSnapshot, if_neg hmem, node, put]
      rfl
  | patch p =>
      have hmem : p.artifactId ∉ s.patches := notMem_of_map_eq_none hnew
      simp only [insert, MeshArtifactStore.insertReplicatedPatch, if_neg hmem, node, put]
      rfl

theorem Record.insert_of_known (clock : Clock) {r r' : Record} {s : MeshArtifactStore}
    (hstored : s.stored r.kind r.id = some r') :
    r.insert clock s = (.error (.alreadyExists r.id), s) := by
  have hknown : (s.stored r.kind r.id).isSome := by
    rw [hstored]
    rfl
  unfold MeshArtifactStore.stored at hknown
  cases r with
  | artifact a =>
      have hmem : a.id ∈ s.artifacts := by
        rw [← Std.ExtTreeMap.isSome_getElem?_iff_mem, ← Option.isSome_map]
        exact hknown
      simp only [insert, MeshArtifactStore.insertReplicatedArtifact, if_pos hmem, id]
  | snapshot x =>
      have hmem : x.artifactId ∈ s.snapshots := by
        rw [← Std.ExtTreeMap.isSome_getElem?_iff_mem, ← Option.isSome_map]
        exact hknown
      simp only [insert, MeshArtifactStore.insertReplicatedSnapshot, if_pos hmem, id]
  | patch p =>
      have hmem : p.artifactId ∈ s.patches := by
        rw [← Std.ExtTreeMap.isSome_getElem?_iff_mem, ← Option.isSome_map]
        exact hknown
      simp only [insert, MeshArtifactStore.insertReplicatedPatch, if_pos hmem, id]

theorem stored_put (r : Record) (s : MeshArtifactStore) (kind : RecordKind) (id : ArtifactId) :
    (r.put s).stored kind id =
      if r.kind = kind ∧ r.id = id then some r else s.stored kind id := by
  by_cases hkind : r.kind = kind
  · subst hkind
    simp only [true_and]
    cases r with
    | artifact a => exact map_getElem?_insert s.artifacts Record.artifact a.id id a
    | snapshot x => exact map_getElem?_insert s.snapshots Record.snapshot x.artifactId id x
    | patch p => exact map_getElem?_insert s.patches Record.patch p.artifactId id p
  · rw [if_neg fun h => hkind h.1]
    cases r with
    | artifact a =>
        cases kind with
        | artifact => exact absurd rfl hkind
        | snapshot => rfl
        | patch => rfl
    | snapshot x =>
        cases kind with
        | artifact => rfl
        | snapshot => exact absurd rfl hkind
        | patch => rfl
    | patch p =>
        cases kind with
        | artifact => rfl
        | snapshot => rfl
        | patch => exact absurd rfl hkind

theorem stored_touchNodeState (clock : Clock) (nodeId : Uuid)
    (update : MeshNodeState → MeshNodeState) (s : MeshArtifactStore) (kind : RecordKind)
    (id : ArtifactId) :
    (s.touchNodeState clock nodeId update).stored kind id = s.stored kind id := by
  cases kind with
  | artifact => rfl
  | snapshot => rfl
  | patch => rfl

theorem stored_insert (clock : Clock) {r : Record} {s : MeshArtifactStore}
    (hnew : s.stored r.kind r.id = none) (kind : RecordKind) (id : ArtifactId) :
    (r.insert clock s).2.stored kind id =
      if r.kind = kind ∧ r.id = id then some r else s.stored kind id := by
  rw [r.insert_of_new clock hnew, ← stored_put]
  cases r.node with
  | none => rfl
  | some n => exact stored_touchNodeState clock n r.apply (r.put s) kind id

theorem nodeView_put (r : Record) (s : MeshArtifactStore) (n : Uuid) :
    (r.put s).nodeView n = s.nodeView n := by
  cases r with
  | artifact a => rfl
  | snapshot x => rfl
  | patch p => rfl

theorem untimed_stateOr (now : UInt64) (s : MeshArtifactStore) (n : Uuid) :
    (s.stateOr now n).untimed = (s.nodeView n).getD (.new n 0) := by
  unfold MeshArtifactStore.stateOr MeshArtifactStore.nodeView
  cases s.nodeStates[n]? with
  | none => rfl
  | some state => rfl

theorem nodeView_insert (clock : Clock) {r : Record} {s : MeshArtifactStore}
    (hnew : s.stored r.kind r.id = none) (n : Uuid) :
    (r.insert clock s).2.nodeView n =
      if r.node = some n then some (r.apply ((s.nodeView n).getD (.new n 0)))
      else s.nodeView n := by
  rw [r.insert_of_new clock hnew]
  cases hnode : r.node with
  | none => simpa using nodeView_put r s n
  | some n' =>
      simp only [MeshArtifactStore.nodeView, MeshArtifactStore.touchNodeState,
        Maps.getElem?_insert_ite, Option.some.injEq]
      by_cases hn : n = n'
      · subst hn
        rw [if_pos rfl, if_pos rfl, Option.map_some]
        have hstate := untimed_stateOr (clock 0) (r.put s) n
        rw [nodeView_put] at hstate
        have happly := r.apply_untimed ((r.put s).stateOr (clock 0) n)
        rw [hstate] at happly
        exact congrArg some happly
      · rw [if_neg hn, if_neg (Ne.symm hn)]
        exact nodeView_put r s n

/-! ## Several records -/

def deliver : List (Clock × Record) → MeshArtifactStore → MeshArtifactStore
  | [], s => s
  | (clock, r) :: ds, s => deliver ds (r.insert clock s).2

theorem deliver_append (ds ds' : List (Clock × Record)) (s : MeshArtifactStore) :
    deliver (ds ++ ds') s = deliver ds' (deliver ds s) := by
  induction ds generalizing s with
  | nil => rfl
  | cons d ds ih => exact ih (d.2.insert d.1 s).2

/-- Records with ids that are distinct and not in the store. -/
def Fresh (s : MeshArtifactStore) (rs : List Record) : Prop :=
  (rs.map Record.id).Nodup ∧ ∀ r ∈ rs, s.stored r.kind r.id = none

theorem Fresh.tail {s : MeshArtifactStore} {r : Record} {rs : List Record} (clock : Clock)
    (h : Fresh s (r :: rs)) : Fresh (r.insert clock s).2 rs := by
  have hnodup := List.nodup_cons.mp h.1
  refine ⟨hnodup.2, fun r' hr' => ?_⟩
  rw [stored_insert clock (h.2 r List.mem_cons_self), if_neg, h.2 r' (List.mem_cons_of_mem r hr')]
  rintro ⟨-, hid⟩
  exact hnodup.1 (List.mem_map.mpr ⟨r', hr', hid.symm⟩)

theorem Fresh.append {s : MeshArtifactStore} {ds : List (Clock × Record)} {rs : List Record}
    (h : Fresh s (ds.map Prod.snd ++ rs)) : Fresh (deliver ds s) rs := by
  induction ds generalizing s with
  | nil => exact h
  | cons d ds ih => exact ih (h.tail d.1)

theorem stored_deliver {s : MeshArtifactStore} {ds : List (Clock × Record)}
    (h : Fresh s (ds.map Prod.snd)) (kind : RecordKind) (id : ArtifactId) (r : Record) :
    (deliver ds s).stored kind id = some r ↔
      (r ∈ ds.map Prod.snd ∧ r.kind = kind ∧ r.id = id) ∨ s.stored kind id = some r := by
  induction ds generalizing s with
  | nil => simp [deliver]
  | cons d ds ih =>
      have hnew := h.2 d.2 List.mem_cons_self
      rw [deliver, ih (h.tail d.1), stored_insert d.1 hnew, List.map_cons, List.mem_cons]
      by_cases hd : d.2.kind = kind ∧ d.2.id = id
      · rw [if_pos hd]
        have hnone : s.stored kind id = none := by
          rw [← hd.1, ← hd.2]
          exact hnew
        rw [hnone, Option.some.injEq]
        constructor
        · rintro (hr | rfl)
          · exact .inl ⟨.inr hr.1, hr.2⟩
          · exact .inl ⟨.inl rfl, hd⟩
        · rintro (⟨rfl | hr, hkey⟩ | hr)
          · exact .inr rfl
          · exact .inl ⟨hr, hkey⟩
          · exact absurd hr (by simp)
      · rw [if_neg hd]
        constructor
        · rintro (hr | hr)
          · exact .inl ⟨.inr hr.1, hr.2⟩
          · exact .inr hr
        · rintro (⟨rfl | hr, hkey⟩ | hr)
          · exact absurd hkey hd
          · exact .inl ⟨hr, hkey⟩
          · exact .inr hr

/-- The state of a node after the records of the node, applied in order. -/
def stateAfter (n : Uuid) (state : MeshNodeState) (rs : List Record) : MeshNodeState :=
  (rs.filter fun r => r.node = some n).foldl (fun state r => r.apply state) state

theorem nodeView_deliver {s : MeshArtifactStore} {ds : List (Clock × Record)}
    (h : Fresh s (ds.map Prod.snd)) (n : Uuid) :
    (deliver ds s).nodeView n =
      if ∃ r ∈ ds.map Prod.snd, r.node = some n then
        some (stateAfter n ((s.nodeView n).getD (.new n 0)) (ds.map Prod.snd))
      else
        s.nodeView n := by
  induction ds generalizing s with
  | nil => simp [deliver]
  | cons d ds ih =>
      have hnew := h.2 d.2 List.mem_cons_self
      rw [deliver, ih (h.tail d.1), nodeView_insert d.1 hnew]
      by_cases hd : d.2.node = some n
      · rw [if_pos hd, List.map_cons]
        simp only [List.exists_mem_cons_iff, hd, true_or, if_true]
        rw [stateAfter, stateAfter, List.filter_cons_of_pos (by simpa using hd), List.foldl_cons,
          Option.getD_some]
        split
        · rfl
        · next hnone =>
            rw [List.filter_eq_nil_iff.mpr (by simpa using hnone), List.foldl_nil]
      · rw [if_neg hd, List.map_cons]
        simp only [List.exists_mem_cons_iff, hd, false_or]
        rw [stateAfter, stateAfter, List.filter_cons_of_neg (by simpa using hd)]

end Mesh

end InfinityOS
