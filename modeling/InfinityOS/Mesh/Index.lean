import InfinityOS.Mesh.Table
import InfinityOS.Transition.Run

/-!
# The indexes list the stored artifacts

Five inverted indexes over one table of artifacts. Committing a record replaces the one
with its id, so its old keys are given up first; the ids that a collection removes are
taken out of all keys of their records. Both rest on each record being stored under its
own id, and filing a record once under each tag on its tags being distinct.
-/

namespace InfinityOS

namespace Mesh

open InvertedIndex MeshArtifactStore

/-- An artifact without its flag. -/
def MeshArtifact.unconsumed (a : MeshArtifact) : MeshArtifact :=
  { a with consumed := false }

/-! ## The five indexes as one -/

/-- Every index lists the ids of the artifacts of the table that have the key. -/
structure ArtifactIndex.Tracks (index : ArtifactIndex)
    (artifacts : HashMap ArtifactId MeshArtifact) : Prop where
  dimension : Indexes (fun a => [a.dimensionId]) index.byDimension artifacts
  task : Indexes (fun a => [a.taskId]) index.byTask artifacts
  node : Indexes (fun a => a.nodeId.toList) index.byNode artifacts
  agent : Indexes (fun a => a.provenance.producingAgentId.toList) index.byAgent artifacts
  tag : Indexes MeshArtifact.tags index.byTag artifacts

namespace ArtifactIndex

theorem insert_byNode (index : ArtifactIndex) (a : MeshArtifact) :
    (index.insert a).byNode =
      a.nodeId.toList.foldl (fun m k => post m a.id k) index.byNode := by
  simp only [insert]
  cases a.nodeId with
  | none => rfl
  | some nodeId => rfl

theorem insert_byAgent (index : ArtifactIndex) (a : MeshArtifact) :
    (index.insert a).byAgent =
      a.provenance.producingAgentId.toList.foldl (fun m k => post m a.id k) index.byAgent := by
  simp only [insert]
  cases a.provenance.producingAgentId with
  | none => rfl
  | some agentId => rfl

theorem remove_byNode (index : ArtifactIndex) (a : MeshArtifact) :
    (index.remove a).byNode =
      a.nodeId.toList.foldl (fun m k => retract m a.id k) index.byNode := by
  simp only [remove]
  cases a.nodeId with
  | none => rfl
  | some nodeId => rfl

theorem remove_byAgent (index : ArtifactIndex) (a : MeshArtifact) :
    (index.remove a).byAgent =
      a.provenance.producingAgentId.toList.foldl (fun m k => retract m a.id k) index.byAgent := by
  simp only [remove]
  cases a.provenance.producingAgentId with
  | none => rfl
  | some agentId => rfl

namespace Tracks

variable {index : ArtifactIndex} {artifacts : HashMap ArtifactId MeshArtifact}

theorem empty : ArtifactIndex.Tracks
    { byDimension := ∅, byTask := ∅, byNode := ∅, byAgent := ∅, byTag := ∅ } ∅ where
  dimension := indexes_empty
  task := indexes_empty
  node := indexes_empty
  agent := indexes_empty
  tag := indexes_empty

theorem insert_new (h : index.Tracks artifacts) {a : MeshArtifact}
    (hnew : artifacts[a.id]? = none) (htags : a.tags.Nodup) :
    (index.insert a).Tracks (artifacts.insert a.id a) where
  dimension := h.dimension.insert_new hnew a (List.nodup_singleton _)
  task := h.task.insert_new hnew a (List.nodup_singleton _)
  node := by
    rw [insert_byNode]
    exact h.node.insert_new hnew a (nodup_option_toList _)
  agent := by
    rw [insert_byAgent]
    exact h.agent.insert_new hnew a (nodup_option_toList _)
  tag := h.tag.insert_new hnew a htags

theorem remove (h : index.Tracks artifacts) {a : MeshArtifact}
    (hid : ∀ a', artifacts[a.id]? = some a' → a' = a) :
    (index.remove a).Tracks (artifacts.erase a.id) where
  dimension := h.dimension.erase hid
  task := h.task.erase hid
  node := by
    rw [remove_byNode]
    exact h.node.erase hid
  agent := by
    rw [remove_byAgent]
    exact h.agent.erase hid
  tag := h.tag.erase hid

theorem replace (h : index.Tracks artifacts) {a old : MeshArtifact} (hid : old.id = a.id)
    (hold : artifacts[a.id]? = some old) (htags : a.tags.Nodup) :
    ((index.remove old).insert a).Tracks (artifacts.insert a.id a) := by
  have hgone : (index.remove old).Tracks (artifacts.erase a.id) := by
    rw [← hid] at hold ⊢
    apply h.remove
    simp [hold]
  have hnone : (artifacts.erase a.id)[a.id]? = none := by
    rw [Maps.getElem?_erase_ite, if_pos rfl]
  have hinsert : (artifacts.erase a.id).insert a.id a = artifacts.insert a.id a := by
    ext id r
    simp only [Maps.getElem?_insert_ite, Maps.getElem?_erase_ite]
    split
    · simp
    · simp
  rw [← hinsert]
  exact hgone.insert_new hnone htags

theorem congr {artifacts' : HashMap ArtifactId MeshArtifact} (h : index.Tracks artifacts)
    (hsame : ∀ id : ArtifactId,
      (artifacts'[id]?).map MeshArtifact.unconsumed = (artifacts[id]?).map MeshArtifact.unconsumed) :
    index.Tracks artifacts' := by
  have hkeys : ∀ {κ : Type} (keys : MeshArtifact → List κ),
      (∀ a : MeshArtifact, keys a.unconsumed = keys a) → ∀ id : ArtifactId,
        (artifacts'[id]?).map keys = (artifacts[id]?).map keys := by
    intro κ keys hkeys id
    have hcomp : keys = keys ∘ MeshArtifact.unconsumed := by
      funext a
      exact (hkeys a).symm
    rw [hcomp, ← Option.map_map, ← Option.map_map, hsame]
  exact {
    dimension := h.dimension.congr (hkeys _ fun a => rfl)
    task := h.task.congr (hkeys _ fun a => rfl)
    node := h.node.congr (hkeys _ fun a => rfl)
    agent := h.agent.congr (hkeys _ fun a => rfl)
    tag := h.tag.congr (hkeys _ fun a => rfl) }

theorem remove_all (h : index.Tracks artifacts) (gone : List MeshArtifact)
    (hgone : ∀ a ∈ gone, ∀ a', artifacts[a.id]? = some a' → a' = a) :
    (gone.foldl ArtifactIndex.remove index).Tracks
      (gone.foldl (fun t (a : MeshArtifact) => t.erase a.id) artifacts) := by
  induction gone generalizing index artifacts with
  | nil => exact h
  | cons a gone ih =>
      apply ih (h.remove (hgone a List.mem_cons_self))
      intro b hb b' hb'
      rw [Maps.getElem?_erase_ite] at hb'
      split at hb'
      · exact absurd hb' (by simp)
      · exact hgone b (List.mem_cons_of_mem a hb) b' hb'

end Tracks

end ArtifactIndex

/-! ## The invariant of a store -/

structure Indexed (s : MeshArtifactStore) : Prop where
  keyed : ∀ (id : ArtifactId) (a : MeshArtifact), s.artifacts[id]? = some a → a.id = id
  tags : ∀ (id : ArtifactId) (a : MeshArtifact), s.artifacts[id]? = some a → a.tags.Nodup
  tracks : s.index.Tracks s.artifacts

theorem indexed_new (now : UInt64) : Indexed (.new now) where
  keyed := by simp [MeshArtifactStore.new]
  tags := by simp [MeshArtifactStore.new]
  tracks := ArtifactIndex.Tracks.empty

theorem Indexed.of_sameTable {s t : MeshArtifactStore} (h : Indexed s) (hst : SameTable s t) :
    Indexed t where
  keyed := by
    rw [hst.1]
    exact h.keyed
  tags := by
    rw [hst.1]
    exact h.tags
  tracks := by
    rw [hst.1, hst.2]
    exact h.tracks

theorem Indexed.insert {s t : MeshArtifactStore} (h : Indexed s) (a : MeshArtifact)
    (htags : a.tags.Nodup) (hartifacts : t.artifacts = s.artifacts.insert a.id a)
    (htracks : t.index.Tracks (s.artifacts.insert a.id a)) : Indexed t where
  keyed := by
    intro id b hb
    rw [hartifacts, Maps.getElem?_insert_ite] at hb
    split at hb
    · next hid =>
        cases hb
        exact hid.symm
    · exact h.keyed id b hb
  tags := by
    intro id b hb
    rw [hartifacts, Maps.getElem?_insert_ite] at hb
    split at hb
    · cases hb
      exact htags
    · exact h.tags id b hb
  tracks := by
    rw [hartifacts]
    exact htracks

theorem Indexed.commit {s : MeshArtifactStore} (h : Indexed s) (a : MeshArtifact)
    (htags : a.tags.Nodup) : Indexed (s.commit a) := by
  apply h.insert a htags rfl
  unfold MeshArtifactStore.commit
  cases hold : s.artifacts[a.id]? with
  | none => exact h.tracks.insert_new hold htags
  | some old => exact h.tracks.replace (h.keyed a.id old hold) hold htags

theorem Indexed.commit_all {s : MeshArtifactStore} (h : Indexed s) (batch : List MeshArtifact)
    (htags : ∀ a ∈ batch, a.tags.Nodup) :
    Indexed (batch.foldl (fun s a => s.commit a) s) := by
  induction batch generalizing s with
  | nil => exact h
  | cons a batch ih =>
      have hhead := h.commit a (htags a List.mem_cons_self)
      exact ih hhead fun b hb => htags b (List.mem_cons_of_mem a hb)

/-! ### Prepared tags -/

theorem nodup_of_sorted {α : Type*} [PartialOrder α] {l : List α} (hsorted : l.Pairwise (· ≤ ·))
    (hne : l.IsChain (· ≠ ·)) : l.Nodup := by
  induction l with
  | nil => exact List.nodup_nil
  | cons a l ih =>
      rw [List.pairwise_cons] at hsorted
      rw [List.isChain_cons] at hne
      rw [List.nodup_cons]
      constructor
      · intro ha
        cases l with
        | nil => simp at ha
        | cons b l =>
            have hab : a ≠ b := hne.1 b rfl
            rcases List.mem_cons.mp ha with hab' | ha'
            · exact hab hab'
            · have hba := (List.pairwise_cons.mp hsorted.2).1 a ha'
              exact hab (le_antisymm (hsorted.1 b List.mem_cons_self) hba)
      · exact ih hsorted.2 hne.2

theorem nodup_tags_prepare (now : UInt64) (a : MeshArtifact) : (a.prepare now).tags.Nodup := by
  apply nodup_of_sorted
  · exact (List.pairwise_insertionSort (· ≤ ·) a.tags).sublist (List.destutter_sublist _ _)
  · exact List.isChain_destutter _ _

theorem nodup_tags_written {s : MeshArtifactStore} {command : Command} {a : MeshArtifact}
    (ha : a ∈ command.written s) : a.tags.Nodup := by
  cases command with
  | produce clock artifact =>
      cases List.mem_singleton.mp ha
      exact nodup_tags_prepare (clock 0) artifact
  | produceValidated clock artifact =>
      simp only [Command.written] at ha
      split at ha
      · exact absurd ha List.not_mem_nil
      · cases List.mem_singleton.mp ha
        exact nodup_tags_prepare (clock 1) (artifact.prepare (clock 0))
  | produceBatch clock artifacts =>
      simp only [Command.written] at ha
      split at ha
      · exact absurd ha List.not_mem_nil
      · next base rest hprepared =>
          split at ha
          · exact absurd ha List.not_mem_nil
          · rw [← hprepared, List.mem_map] at ha
            obtain ⟨b, hb, rfl⟩ := ha
            obtain ⟨k, hk, rfl⟩ := List.mem_mapIdx.mp hb
            exact nodup_tags_prepare (clock k) artifacts[k]
  | _ => exact absurd ha List.not_mem_nil

/-! ### Garbage collection -/

theorem getElem?_foldl_erase (gone : List MeshArtifact)
    (artifacts : HashMap ArtifactId MeshArtifact) (id : ArtifactId) :
    (gone.foldl (fun t (a : MeshArtifact) => t.erase a.id) artifacts)[id]? =
      if ∃ a ∈ gone, a.id = id then none else artifacts[id]? := by
  induction gone generalizing artifacts with
  | nil => simp
  | cons a gone ih =>
      rw [List.foldl_cons, ih, Maps.getElem?_erase_ite]
      by_cases hid : id = a.id
      · simp [hid]
      · simp [hid, Ne.symm hid]

/-- The artifacts that a collection removes, as `collectGarbage` lists them. -/
def collected (policy : GarbageCollectionPolicy) (s : MeshArtifactStore) : List MeshArtifact :=
  (s.artifacts.toList.filter fun p => policy.removesArtifact p.2).map Prod.snd

theorem Indexed.mem_collected {s : MeshArtifactStore} (h : Indexed s)
    {policy : GarbageCollectionPolicy} {a : MeshArtifact} :
    a ∈ collected policy s ↔
      s.artifacts[a.id]? = some a ∧ policy.removesArtifact a = true := by
  unfold collected
  constructor
  · intro ha
    obtain ⟨⟨id, b⟩, hb, rfl⟩ := List.mem_map.mp ha
    rw [List.mem_filter, Maps.mem_toList] at hb
    rw [h.keyed id b hb.1]
    exact hb
  · intro ha
    exact List.mem_map.mpr
      ⟨(a.id, a), List.mem_filter.mpr ⟨Maps.mem_toList.mpr ha.1, ha.2⟩, rfl⟩

theorem Indexed.collect_artifacts {s : MeshArtifactStore} (h : Indexed s)
    (policy : GarbageCollectionPolicy) :
    (s.artifacts.filter fun _ a => !policy.removesArtifact a) =
      (collected policy s).foldl (fun t (a : MeshArtifact) => t.erase a.id) s.artifacts := by
  apply Std.ExtTreeMap.ext_getElem?
  intro id
  rw [getElem?_foldl_erase, Std.ExtTreeMap.getElem?_filter']
  cases hget : s.artifacts[id]? with
  | none => simp
  | some a =>
      have hid := h.keyed id a hget
      subst hid
      cases hremove : policy.removesArtifact a with
      | true =>
          rw [if_pos ⟨a, h.mem_collected.mpr ⟨hget, hremove⟩, rfl⟩]
          simp [hremove]
      | false =>
          rw [if_neg, Option.filter_some_pos (by simp [hremove])]
          rintro ⟨b, hb, hid⟩
          rw [h.mem_collected, hid, hget] at hb
          cases hb.1
          simp [hremove] at hb

theorem Indexed.collectGarbage {s : MeshArtifactStore} (h : Indexed s)
    (policy : GarbageCollectionPolicy) : Indexed (s.collectGarbage policy).2 where
  keyed := by
    intro id a ha
    simp only [MeshArtifactStore.collectGarbage, Std.ExtTreeMap.getElem?_filter'] at ha
    exact h.keyed id a (Option.eq_some_of_filter_eq_some ha)
  tags := by
    intro id a ha
    simp only [MeshArtifactStore.collectGarbage, Std.ExtTreeMap.getElem?_filter'] at ha
    exact h.tags id a (Option.eq_some_of_filter_eq_some ha)
  tracks := by
    have htracks := h.tracks.remove_all (collected policy s) (by
      intro a ha a' ha'
      have hget := (h.mem_collected.mp ha).1
      rw [hget] at ha'
      exact (Option.some.inj ha').symm)
    rw [← h.collect_artifacts] at htracks
    exact htracks

theorem Indexed.consumed {s : MeshArtifactStore} (h : Indexed s) {id : ArtifactId}
    {a : MeshArtifact} (hget : s.artifacts[id]? = some a) :
    Indexed { s with artifacts := s.artifacts.insert id { a with consumed := true } } where
  keyed := by
    intro id' b hb
    rw [Maps.getElem?_insert_ite] at hb
    split at hb
    · next hid =>
        cases hb
        rw [hid]
        exact h.keyed id a hget
    · exact h.keyed id' b hb
  tags := by
    intro id' b hb
    rw [Maps.getElem?_insert_ite] at hb
    split at hb
    · cases hb
      exact h.tags id a hget
    · exact h.tags id' b hb
  tracks := by
    apply h.tracks.congr
    intro id'
    rw [Maps.getElem?_insert_ite]
    split
    · next hid =>
        rw [hid, hget]
        rfl
    · rfl

/-! ### Every call -/

theorem Indexed.run {s : MeshArtifactStore} (h : Indexed s) (command : Command) :
    Indexed (s.run command).2 := by
  have heffect := run_effect s command
  generalize (s.run command).2 = t at heffect ⊢
  cases heffect with
  | wrote hsame =>
      exact (h.commit_all _ fun a ha => nodup_tags_written ha).of_sameTable hsame
  | consumed hget hnew => exact h.consumed hget
  | collected policy => exact h.collectGarbage policy

theorem Indexed.receives {source s t : MeshArtifactStore} (hsource : Indexed source)
    (h : Indexed s) (hreceives : Relation.ReflTransGen (Receives source) s t) : Indexed t := by
  induction hreceives with
  | refl => exact h
  | tail _ hstep ih =>
      cases hstep with
      | same hsame => exact ih.of_sameTable hsame
      | @artifact id a _ hget hnew hartifacts hindex =>
          have htags := hsource.tags id a hget
          apply ih.insert a htags hartifacts
          rw [hindex]
          exact ih.tracks.insert_new hnew htags

variable {ι : Type} [DecidableEq ι]

theorem indexed_step (net : Network ι) (call : Call ι) (h : ∀ i, Indexed (net i)) (i : ι) :
    Indexed ((Network.step net call).2 i) := by
  rcases step_effect net call i with hsame | ⟨command, -, hrun⟩ | ⟨-, source, hreceives⟩
  · rw [hsame]
    exact h i
  · rw [hrun]
    exact (h i).run command
  · exact (h source).receives (h i) hreceives

theorem indexed_final (start : ι → UInt64) (calls : List (Call ι)) (i : ι) :
    Indexed (Transition.final Network.step (Network.new start) calls i) := by
  have hinv : ∀ i, Indexed (Transition.final Network.step (Network.new start) calls i) :=
    Transition.invariant_final_of_forall (fun net : Network ι => ∀ i, Indexed (net i))
      (fun net call h => indexed_step net call h) calls fun i => indexed_new (start i)
  exact hinv i

/-! ## What the queries answer -/

/-- `ids` are the ids of the stored artifacts with the property `has`, each once. -/
def ListsExactly (s : MeshArtifactStore) (ids : List ArtifactId) (has : MeshArtifact → Prop) :
    Prop :=
  ids.Nodup ∧ ∀ id, id ∈ ids ↔ ∃ a, s.getArtifact id = .ok a ∧ a.id = id ∧ has a

theorem getArtifact_eq_ok {s : MeshArtifactStore} {id : ArtifactId} {a : MeshArtifact} :
    s.getArtifact id = .ok a ↔ s.artifacts[id]? = some a := by
  unfold MeshArtifactStore.getArtifact
  cases s.artifacts[id]? with
  | none => simp
  | some b => simp

theorem Indexed.listsExactly {s : MeshArtifactStore} (h : Indexed s) {κ : Type} [Ord κ]
    [Std.TransOrd κ] {m : HashMap κ (List ArtifactId)} {keys : MeshArtifact → List κ}
    (hm : Indexes keys m s.artifacts) (k : κ) :
    ListsExactly s (lookup m k) fun a => k ∈ keys a := by
  refine ⟨(hm k).1, fun id => ?_⟩
  rw [(hm k).2]
  constructor
  · rintro ⟨a, hget, hk⟩
    exact ⟨a, getArtifact_eq_ok.mpr hget, h.keyed id a hget, hk⟩
  · rintro ⟨a, hget, -, hk⟩
    exact ⟨a, getArtifact_eq_ok.mp hget, hk⟩

theorem ListsExactly.congr {s : MeshArtifactStore} {ids : List ArtifactId}
    {has has' : MeshArtifact → Prop} (h : ListsExactly s ids has) (hiff : ∀ a, has a ↔ has' a) :
    ListsExactly s ids has' := by
  rwa [show has' = has from funext fun a => propext (hiff a).symm]

/-- In every state of every system of stores, each query answers the ids of the stored
artifacts that have the key, each once, and no other ids. -/
theorem queries_exact (start : ι → UInt64) (calls : List (Call ι)) (i : ι) :
    let s := Transition.final Network.step (Network.new start) calls i
    (∀ d, ListsExactly s (s.artifactsForDimension d) fun a => a.dimensionId = d) ∧
      (∀ t, ListsExactly s (s.artifactsForTask t) fun a => a.taskId = t) ∧
      (∀ n, ListsExactly s (s.artifactsForNode n) fun a => a.nodeId = some n) ∧
      (∀ g, ListsExactly s (s.artifactsForAgent g) fun a =>
        a.provenance.producingAgentId = some g) ∧
      ∀ tag, ListsExactly s (s.artifactsWithTag tag) fun a => tag ∈ a.tags := by
  intro s
  have h : Indexed s := indexed_final start calls i
  constructor
  · intro d
    exact (h.listsExactly h.tracks.dimension d).congr fun a =>
      List.mem_singleton.trans eq_comm
  constructor
  · intro t
    exact (h.listsExactly h.tracks.task t).congr fun a =>
      List.mem_singleton.trans eq_comm
  constructor
  · intro n
    exact (h.listsExactly h.tracks.node n).congr fun a =>
      Option.mem_toList.trans Option.mem_def
  constructor
  · intro g
    exact (h.listsExactly h.tracks.agent g).congr fun a =>
      Option.mem_toList.trans Option.mem_def
  · intro tag
    exact h.listsExactly h.tracks.tag tag

end Mesh

end InfinityOS
