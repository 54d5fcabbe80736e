import InfinityOS.Mesh.Garbage
import InfinityOS.Mesh.Replication
import InfinityOS.Mesh.Revision
import InfinityOS.Mesh.System

/-!
# Revisions only grow

A patch raises the revision of its node by one, and a replicated snapshot or patch raises it
to its own revision where that is higher; no call lowers it. A store that is only replicated
to has, for each node, the highest revision among the snapshots and the patches it holds,
in whatever order they came and however often.
-/

namespace InfinityOS

namespace Mesh

open MeshArtifactStore Transition

theorem le_saturatingAdd_one (a : UInt64) : a ≤ saturatingAdd a 1 := by
  rw [UInt64.le_iff_toNat_le]
  by_cases h : a.toNat + 1 < 2 ^ 64
  · rw [toNat_saturatingAdd_one h]
    exact Nat.le_succ _
  · have hmax : (saturatingAdd a 1).toNat = 2 ^ 64 - 1 := by
      have hone : (1 : UInt64).toNat = 1 := rfl
      rw [saturatingAdd, hone, if_neg h]
      rfl
    have ha := a.toNat_lt
    omega

/-! ## Calls on one store -/

/-- No node has a lower revision in `t`. -/
def Grows (s t : MeshArtifactStore) : Prop :=
  ∀ n : Uuid, s.currentRevision n ≤ t.currentRevision n

theorem Grows.refl (s : MeshArtifactStore) : Grows s s :=
  fun _ => UInt64.le_refl _

theorem Grows.trans {s t u : MeshArtifactStore} (hst : Grows s t) (htu : Grows t u) : Grows s u :=
  fun n => UInt64.le_trans (hst n) (htu n)

theorem grows_of_eq {s t : MeshArtifactStore}
    (h : ∀ n : Uuid, t.currentRevision n = s.currentRevision n) : Grows s t := by
  intro n
  rw [h]
  exact UInt64.le_refl _

theorem grows_of_nodeStates_eq {s t : MeshArtifactStore} (h : t.nodeStates = s.nodeStates) :
    Grows s t := by
  apply grows_of_eq
  intro n
  rw [currentRevision, currentRevision, h]

theorem currentRevision_touchNodeState (clock : Clock) (n : Uuid)
    (update : MeshNodeState → MeshNodeState)
    (hupdate : ∀ state, (update state).revision = state.revision) (s : MeshArtifactStore)
    (m : Uuid) : (s.touchNodeState clock n update).currentRevision m = s.currentRevision m := by
  rw [touchNodeState, currentRevision_insert]
  split
  · next hm =>
      rw [hm]
      exact (hupdate _).trans (revision_stateOr (clock 0) n s)
  · rfl

theorem grows_touchArtifact (clock : Clock) (nodeId : Option Uuid) (id : ArtifactId)
    (s : MeshArtifactStore) : Grows s (s.touchArtifact clock nodeId id) := by
  cases nodeId with
  | none => exact .refl s
  | some n =>
      exact grows_of_eq (currentRevision_touchNodeState clock n
        (fun state => { state with lastArtifactId := some id }) (fun _ => rfl) s)

theorem grows_commits (batch : List MeshArtifact) (s : MeshArtifactStore) :
    Grows s (batch.foldl (fun s artifact => s.commit artifact) s) := by
  induction batch generalizing s with
  | nil => exact .refl s
  | cons artifact batch ih =>
      have hcommit : Grows s (s.commit artifact) := grows_of_nodeStates_eq rfl
      exact hcommit.trans (ih (s.commit artifact))

theorem grows_produce (clock : Clock) (artifact : MeshArtifact) (s : MeshArtifactStore) :
    Grows s (s.produce clock artifact).2 :=
  (grows_commits [produced (clock 0) artifact] s).trans (grows_touchArtifact _ _ _ _)

theorem grows_produceBatch (clock : Clock) (artifacts : List MeshArtifact)
    (s : MeshArtifactStore) : Grows s (s.produceBatch clock artifacts).2 := by
  unfold produceBatch
  split
  · exact .refl s
  · split
    · exact .refl s
    · apply (grows_commits _ s).trans
      simp only
      split
      · exact .refl _
      · exact grows_touchArtifact _ _ _ _

theorem grows_snapshotNode (clock : Clock) (artifactId : ArtifactId) (nodeId : Uuid)
    (state : Json) (taskId : TaskId) (dimensionId : DimensionId) (s : MeshArtifactStore) :
    Grows s (s.snapshotNode clock artifactId nodeId state taskId dimensionId).2 := by
  apply grows_of_eq
  intro m
  simp only [snapshotNode]
  rw [currentRevision_touchNodeState]
  · rfl
  · intro old
    rfl

theorem grows_advanceRevision (clock : Clock) (n : Uuid) (expected : UInt64)
    (strategy : ConflictStrategy) (patchId : Option ArtifactId) (s : MeshArtifactStore) :
    Grows s (s.advanceRevision clock n expected strategy patchId).2 := by
  intro m
  rcases advanceRevision_cases clock n expected strategy patchId s with
    ⟨-, -, t, ht, -, hrevision⟩ | ⟨-, t, ht, -, hrevision⟩
  · rw [ht, hrevision]
    exact UInt64.le_refl _
  · rw [ht, hrevision]
    split
    · next hm =>
        rw [hm]
        exact le_saturatingAdd_one _
    · exact UInt64.le_refl _

theorem grows_patchWithRevision (clock : Clock) (artifactId : ArtifactId) (request : PatchRequest)
    (s : MeshArtifactStore) : Grows s (s.patchWithRevision clock artifactId request).2 := by
  have hadvance := grows_advanceRevision clock request.nodeId request.expectedRevision
    request.strategy (some artifactId) s
  unfold patchWithRevision
  split
  · next heq =>
      rw [heq] at hadvance
      exact hadvance
  · next heq =>
      rw [heq] at hadvance
      exact hadvance.trans (grows_of_nodeStates_eq rfl)

theorem revision_repaired (gone : List MeshArtifact) (nodeId : Uuid) (state : MeshNodeState) :
    (repaired gone nodeId state).revision = state.revision := by
  unfold repaired
  split <;> rfl

theorem grows_collectGarbage (policy : GarbageCollectionPolicy) (s : MeshArtifactStore) :
    Grows s (s.collectGarbage policy).2 := by
  apply grows_of_eq
  intro n
  unfold currentRevision
  rw [getElem?_nodeStates_collectGarbage, Option.map_map]
  congr 2
  funext state
  exact revision_repaired _ n state

theorem grows_run (s : MeshArtifactStore) (command : Command) : Grows s (s.run command).2 := by
  cases command with
  | registerSchema now contentType version description =>
      simp only [run, MeshArtifactStore.registerSchema]
      split
      · exact .refl s
      · next heq =>
          split at heq
          · cases heq
          · cases heq
            exact grows_of_nodeStates_eq rfl
  | produce clock artifact => exact grows_produce clock artifact s
  | produceValidated clock artifact =>
      simp only [run, MeshArtifactStore.produceValidated]
      split
      · exact .refl s
      · exact grows_produce _ _ s
  | produceBatch clock artifacts => exact grows_produceBatch clock artifacts s
  | consume id =>
      simp only [run, MeshArtifactStore.consume]
      split
      · exact .refl s
      · split
        · exact .refl s
        · exact grows_of_nodeStates_eq rfl
  | snapshotNode clock artifactId nodeId state taskId dimensionId =>
      exact grows_snapshotNode clock artifactId nodeId state taskId dimensionId s
  | patch clock artifactId nodeId before after ops taskId dimensionId =>
      have hadvance := grows_advanceRevision clock nodeId (s.currentRevision nodeId)
        .lastWriteWins (some artifactId) s
      exact hadvance.trans (grows_of_nodeStates_eq rfl)
  | patchWithRevision clock artifactId request =>
      exact grows_patchWithRevision clock artifactId request s
  | collectGarbage policy => exact grows_collectGarbage policy s

/-! ## Replicated records -/

theorem currentRevision_insert_of_new (clock : Clock) {r : Record} {s : MeshArtifactStore}
    (hnew : s.stored r.kind r.id = none) (n : Uuid) :
    (r.insert clock s).2.currentRevision n =
      if (r.node = some n ∧ r.kind ≠ .artifact) ∧ s.currentRevision n ≤ r.revision then r.revision
      else s.currentRevision n := by
  have hview (t : MeshArtifactStore) :
      t.currentRevision n = ((t.nodeView n).getD (.new n 0)).revision := by
    unfold currentRevision nodeView
    cases t.nodeStates[n]? with
    | none => rfl
    | some state => rfl
  rw [hview, nodeView_insert clock hnew, hview s]
  by_cases hnode : r.node = some n
  · rw [if_pos hnode, Option.getD_some]
    simp only [hnode, true_and]
    generalize (s.nodeView n).getD (.new n 0) = state
    cases r with
    | artifact a => simp [Record.apply, Record.kind]
    | snapshot x =>
        simp only [Record.apply, Record.kind, Record.revision, ne_eq, reduceCtorEq,
          not_false_eq_true, true_and]
        exact apply_ite MeshNodeState.revision _ _ _
    | patch p =>
        simp only [Record.apply, Record.kind, Record.revision, ne_eq, reduceCtorEq,
          not_false_eq_true, true_and]
        exact apply_ite MeshNodeState.revision _ _ _
  · simp [hnode]

theorem grows_insert (clock : Clock) (r : Record) (s : MeshArtifactStore) :
    Grows s (r.insert clock s).2 := by
  intro n
  cases hstored : s.stored r.kind r.id with
  | some r' =>
      rw [r.insert_of_known clock hstored]
      exact UInt64.le_refl _
  | none =>
      rw [currentRevision_insert_of_new clock hstored]
      split
      · next h => exact h.2
      · exact UInt64.le_refl _

theorem Network.step_keeps {ι : Type} [DecidableEq ι] {P : MeshArtifactStore → Prop}
    {call : Call ι} {i : ι}
    (hrun : ∀ s command, call = .on i command → P s → P (s.run command).2)
    (hinsert : ∀ clock (r : Record) s, P s → P (r.insert clock s).2) {net : Network ι}
    (h : P (net i)) : P ((Network.step net call).2 i) := by
  have hid (clock : Clock) (source : MeshArtifactStore) (kind : MeshNotificationKind)
      (id : ArtifactId) (s : MeshArtifactStore) (hs : P s) :
      P (MeshReplicator.replicateId clock source kind id s).2 := by
    cases hresolve : resolve source kind id with
    | none =>
        rw [replicateId_of_resolve_eq_none hresolve]
        exact hs
    | some r =>
        rw [replicateId_of_resolve hresolve]
        exact hinsert clock r s hs
  have hids (source : MeshArtifactStore) (kind : MeshNotificationKind) (ids : List ArtifactId)
      (clock : Clock) (s : MeshArtifactStore) (hs : P s) :
      P (MeshReplicator.replicateIds source kind clock ids s).2 := by
    induction ids generalizing clock s with
    | nil => exact hs
    | cons id ids ih =>
        have hhead := hid clock source kind id s hs
        unfold MeshReplicator.replicateIds
        split
        · next heq =>
            rw [heq] at hhead
            exact hhead
        · next heq =>
            rw [heq] at hhead
            exact ih (clock.after 2) _ hhead
  have hupdate (j : ι) (t : MeshArtifactStore) (ht : j = i → P t) :
      P (Function.update net j t i) := by
    by_cases hj : j = i
    · subst hj
      rw [Function.update_self]
      exact ht rfl
    · rw [Function.update_of_ne (Ne.symm hj)]
      exact h
  cases call with
  | on j command =>
      apply hupdate
      rintro rfl
      exact hrun (net j) command rfl h
  | replicateArtifact clock source target id =>
      apply hupdate
      rintro rfl
      exact hid clock (net source) .produced id (net target) h
  | replicateSnapshot clock source target id =>
      apply hupdate
      rintro rfl
      exact hid clock (net source) .snapshot id (net target) h
  | replicatePatch clock source target id =>
      apply hupdate
      rintro rfl
      exact hid clock (net source) .patch id (net target) h
  | replicateNotification clock source target notification =>
      apply hupdate
      rintro rfl
      exact hids (net source) notification.kind notification.ids clock (net target) h

/-! ## The highest revision -/

/-- The store has the record under some id. -/
def MeshArtifactStore.Holds (s : MeshArtifactStore) (r : Record) : Prop :=
  ∃ id : ArtifactId, s.stored r.kind id = some r

def revisionsOf (n : Uuid) (P : Record → Prop) : Set UInt64 :=
  {v | ∃ r, P r ∧ (r.node = some n ∧ r.kind ≠ .artifact) ∧ r.revision = v}

/-- The highest of these revisions; 0 if there is none. -/
def HighestOf (n : Uuid) (P : Record → Prop) (v : UInt64) : Prop :=
  IsGreatest (insert 0 (revisionsOf n P)) v

theorem holds_insert (clock : Clock) {r : Record} {s : MeshArtifactStore}
    (hnew : s.stored r.kind r.id = none) (r' : Record) :
    (r.insert clock s).2.Holds r' ↔ r' = r ∨ s.Holds r' := by
  unfold Holds
  simp only [stored_insert clock hnew]
  constructor
  · rintro ⟨id, hid⟩
    split at hid
    · exact .inl (Option.some.inj hid).symm
    · exact .inr ⟨id, hid⟩
  · rintro (rfl | ⟨id, hid⟩)
    · exact ⟨r'.id, if_pos ⟨rfl, rfl⟩⟩
    · refine ⟨id, ?_⟩
      rw [if_neg, hid]
      rintro ⟨hkind, rfl⟩
      rw [← hkind, hnew] at hid
      cases hid

theorem highestOf_congr {P Q : Record → Prop} (h : ∀ r, P r ↔ Q r) {n : Uuid} {v : UInt64} :
    HighestOf n P v ↔ HighestOf n Q v := by
  rw [funext fun r => propext (h r)]

theorem HighestOf.add {P : Record → Prop} {n : Uuid} {v : UInt64} (h : HighestOf n P v)
    (r : Record) :
    HighestOf n (fun r' => r' = r ∨ P r')
      (if (r.node = some n ∧ r.kind ≠ .artifact) ∧ v ≤ r.revision then r.revision else v) := by
  obtain ⟨hmem, hbound⟩ := h
  have hold : v ∈ insert 0 (revisionsOf n fun r' => r' = r ∨ P r') := by
    rcases hmem with rfl | ⟨r', hr', hversion, hv⟩
    · exact .inl rfl
    · exact .inr ⟨r', .inr hr', hversion, hv⟩
  have hzero (a : UInt64) : 0 ≤ a := by
    rw [UInt64.le_iff_toNat_le]
    exact Nat.zero_le _
  split
  · next hr =>
      refine ⟨.inr ⟨r, .inl rfl, hr.1, rfl⟩, ?_⟩
      rintro w (rfl | ⟨r', rfl | hr', hversion, rfl⟩)
      · exact hzero _
      · exact UInt64.le_refl _
      · exact UInt64.le_trans (hbound (.inr ⟨r', hr', hversion, rfl⟩)) hr.2
  · next hr =>
      refine ⟨hold, ?_⟩
      rintro w (rfl | ⟨r', rfl | hr', hversion, rfl⟩)
      · exact hzero _
      · exact (UInt64.le_total _ _).resolve_right fun hle => hr ⟨hversion, hle⟩
      · exact hbound (.inr ⟨r', hr', hversion, rfl⟩)

theorem highestOf_new (start : UInt64) (n : Uuid) :
    HighestOf n (MeshArtifactStore.new start).Holds
      ((MeshArtifactStore.new start).currentRevision n) := by
  refine ⟨.inl rfl, ?_⟩
  rintro w (rfl | ⟨r, ⟨id, hid⟩, -⟩)
  · exact UInt64.le_refl _
  · rw [stored_new] at hid
    cases hid

theorem highestOf_insert (clock : Clock) (r : Record) {s : MeshArtifactStore} {n : Uuid}
    (h : HighestOf n s.Holds (s.currentRevision n)) :
    HighestOf n (r.insert clock s).2.Holds ((r.insert clock s).2.currentRevision n) := by
  cases hstored : s.stored r.kind r.id with
  | some r' =>
      rw [r.insert_of_known clock hstored]
      exact h
  | none =>
      rw [highestOf_congr (holds_insert clock hstored), currentRevision_insert_of_new clock hstored]
      exact h.add r

theorem stored_deliver_eq_find (ds : List (Clock × Record)) (s : MeshArtifactStore)
    (kind : RecordKind) (id : ArtifactId) :
    (deliver ds s).stored kind id =
      (s.stored kind id).or ((ds.map Prod.snd).find? fun r => r.kind = kind ∧ r.id = id) := by
  induction ds generalizing s with
  | nil => simp [deliver]
  | cons d ds ih =>
      obtain ⟨clock, r⟩ := d
      rw [deliver, ih, List.map_cons, List.find?_cons]
      cases hstored : s.stored r.kind r.id with
      | some r' =>
          rw [r.insert_of_known clock hstored]
          split
          · next hr =>
              obtain ⟨rfl, rfl⟩ := of_decide_eq_true hr
              simp [hstored]
          · rfl
      | none =>
          rw [stored_insert clock hstored]
          split
          · next hr =>
              obtain ⟨rfl, rfl⟩ := hr
              simp [hstored]
          · next hr => simp [hr]

/-- Two records of a kind with one id are the same. -/
def Identified (rs : List Record) : Prop :=
  ∀ r ∈ rs, ∀ r' ∈ rs, r.kind = r'.kind → r.id = r'.id → r = r'

theorem holds_deliver {ds : List (Clock × Record)} (hids : Identified (ds.map Prod.snd))
    (start : UInt64) (r : Record) :
    (deliver ds (.new start)).Holds r ↔ r ∈ ds.map Prod.snd := by
  unfold Holds
  simp only [stored_deliver_eq_find, stored_new, Option.none_or]
  constructor
  · rintro ⟨id, hid⟩
    exact List.mem_of_find?_eq_some hid
  · intro hr
    refine ⟨r.id, ?_⟩
    cases hfind : (ds.map Prod.snd).find? fun r' => r'.kind = r.kind ∧ r'.id = r.id with
    | none =>
        have hnot := List.find?_eq_none.mp hfind r hr
        exact absurd (decide_eq_true ⟨rfl, rfl⟩) hnot
    | some r' =>
        have hmatch := List.find?_some hfind
        obtain ⟨hkind, hid⟩ := of_decide_eq_true hmatch
        rw [hids r' (List.mem_of_find?_eq_some hfind) r hr hkind hid]

theorem highestOf_deliver (ds : List (Clock × Record)) {s : MeshArtifactStore} {n : Uuid}
    (h : HighestOf n s.Holds (s.currentRevision n)) :
    HighestOf n (deliver ds s).Holds ((deliver ds s).currentRevision n) := by
  induction ds generalizing s with
  | nil => exact h
  | cons d ds ih => exact ih (highestOf_insert d.1 d.2 h)

/-! ## Runs -/

/-- In every run no revision of a node decreases. A store that is only replicated to has the
highest revision of the snapshots and patches it holds, and records delivered to an empty
store, again or late, leave it at the highest among them. -/
theorem revisions_grow_to_highest {ι : Type} [DecidableEq ι] :
    (∀ (net : Network ι) (calls : List (Call ι)) (i : ι) (n : Uuid),
      (net i).currentRevision n ≤ (final Network.step net calls i).currentRevision n) ∧
    (∀ (start : ι → UInt64) (calls : List (Call ι)) (i : ι), (∀ command, .on i command ∉ calls) →
      ∀ n : Uuid, HighestOf n (final Network.step (.new start) calls i).Holds
        ((final Network.step (.new start) calls i).currentRevision n)) ∧
    (∀ (start : UInt64) (ds : List (Clock × Record)), Identified (ds.map Prod.snd) →
      ∀ n : Uuid, HighestOf n (fun r => r ∈ ds.map Prod.snd)
        ((deliver ds (.new start)).currentRevision n)) := by
  refine ⟨?_, ?_, ?_⟩
  · intro net calls i n
    let v := (net i).currentRevision n
    apply invariant_final_of_forall (fun net : Network ι => v ≤ (net i).currentRevision n)
    · intro net call h
      apply Network.step_keeps (P := fun s => v ≤ s.currentRevision n) _ _ h
      · intro s command _ hs
        exact UInt64.le_trans hs (grows_run s command n)
      · intro clock r s hs
        exact UInt64.le_trans hs (grows_insert clock r s n)
    · exact UInt64.le_refl _
  · intro start calls i hspared n
    have halong : Along (fun _ call => ∀ command, call ≠ .on i command) Network.step (.new start)
        calls := by
      apply along_of_forall
      rintro call hcall net command rfl
      exact hspared command hcall
    have hnew : HighestOf n (Network.new start i).Holds ((Network.new start i).currentRevision n) :=
      highestOf_new (start i) n
    refine invariant_final
      (fun net : Network ι => HighestOf n (net i).Holds ((net i).currentRevision n)) ?_ hnew halong
    intro net call h hcall
    apply Network.step_keeps (P := fun s => HighestOf n s.Holds (s.currentRevision n)) _ _ h
    · intro s command heq
      exact absurd heq (hcall command)
    · intro clock r s hs
      exact highestOf_insert clock r hs
  · intro start ds hids n
    rw [← highestOf_congr (holds_deliver hids start)]
    exact highestOf_deliver ds (highestOf_new start n)

/-- Node 7 is patched twice in one store; the other gets the second patch, then the first, then
the second again. -/
def sampleReplication : List (Call Bool) :=
  let clock : Clock := fun _ => 0
  [.on true (.patch clock 1 7 .null .null [] 3 2), .on true (.patch clock 2 7 .null .null [] 3 2),
    .replicatePatch clock true false 2, .replicatePatch clock true false 1,
    .replicatePatch clock true false 2]

def samplePatch (artifactId : ArtifactId) (newRevision : UInt64) : DiffPatch :=
  { artifactId, dimensionId := 2, taskId := 3, nodeId := 7, provenance := nodeProvenance 3 7,
    createdAtMs := 0, baseRevision := 0, newRevision, conflict := false, before := .null,
    after := .null, ops := [] }

def samplePatches : List (Clock × Record) :=
  [(fun _ => 0, .patch (samplePatch 2 2)), (fun _ => 0, .patch (samplePatch 1 1)),
    (fun _ => 0, .patch (samplePatch 2 2))]

theorem revisions_grow_to_highest_late :
    (HighestOf 7 (final Network.step (.new fun _ => 0) sampleReplication false).Holds
        ((final Network.step (.new fun _ => 0) sampleReplication false).currentRevision 7) ∧
      (final Network.step (.new fun _ => 0) sampleReplication false).currentRevision 7 = 2) ∧
    HighestOf 7 (fun r => r ∈ samplePatches.map Prod.snd)
        ((deliver samplePatches (.new 0)).currentRevision 7) ∧
      (deliver samplePatches (.new 0)).currentRevision 7 = 2 := by
  have hspared : ∀ command, Call.on false command ∉ sampleReplication := by
    intro command
    simp [sampleReplication]
  have hids : Identified (samplePatches.map Prod.snd) := by
    intro r hr r' hr' _ hid
    simp only [samplePatches, List.map_cons, List.map_nil, List.mem_cons, List.not_mem_nil,
      or_false] at hr hr'
    rcases hr with rfl | rfl | rfl <;> rcases hr' with rfl | rfl | rfl <;>
      first | rfl | exact absurd hid (by decide)
  refine ⟨⟨revisions_grow_to_highest.2.1 _ sampleReplication false hspared 7, ?_⟩,
    (@revisions_grow_to_highest Bool _).2.2 0 samplePatches hids 7, ?_⟩
  · decide +kernel
  · decide +kernel

end Mesh

end InfinityOS
