import InfinityOS.Mesh.Table
import InfinityOS.Transition.Run

/-!
# Artifacts while they are stored

Consuming sets the flag of a record, collecting removes it, and a replicated record is
refused where its id is stored. Producing is not: a record produced under a stored id
takes the place of the stored one. In runs without such calls a record keeps its content
for as long as it is stored, and is consumed at most once.
-/

namespace InfinityOS

namespace Mesh

open MeshArtifactStore

/-- `r'` is `r`, up to its flag having been set. -/
def Aged (r r' : MeshArtifact) : Prop :=
  r' = r ∨ (r.consumed = false ∧ r' = { r with consumed := true })

theorem Aged.refl (r : MeshArtifact) : Aged r r :=
  .inl rfl

theorem Aged.trans {r r' r'' : MeshArtifact} (h : Aged r r') (h' : Aged r' r'') : Aged r r'' := by
  rcases h with rfl | ⟨hr, rfl⟩
  · exact h'
  · rcases h' with rfl | ⟨hr', -⟩
    · exact .inr ⟨hr, rfl⟩
    · exact absurd hr' (by simp)

/-! ## The condition -/

/-- The last record with the id `id` that a command commits. -/
def Command.lastWritten (s : MeshArtifactStore) (command : Command) (id : ArtifactId) :
    Option MeshArtifact :=
  (command.written s).reverse.find? fun a => a.id = id

/-- What the command commits under the id of a stored record is that very record. -/
def Command.Respects (s : MeshArtifactStore) (command : Command) : Prop :=
  ∀ (id : ArtifactId) (r : MeshArtifact), s.artifacts[id]? = some r →
    ∀ a, command.lastWritten s id = some a → a = r

theorem getElem?_commit_all (batch : List MeshArtifact) (s : MeshArtifactStore) (id : ArtifactId) :
    (batch.foldl (fun s artifact => s.commit artifact) s).artifacts[id]? =
      (batch.reverse.find? fun a => a.id = id).or s.artifacts[id]? := by
  induction batch using List.reverseRecOn with
  | nil => simp
  | append_singleton batch a ih =>
      have hcommit : ∀ t : MeshArtifactStore,
          (t.commit a).artifacts[id]? = if id = a.id then some a else t.artifacts[id]? := by
        intro t
        exact Maps.getElem?_insert_ite t.artifacts a.id a id
      rw [List.foldl_append, List.foldl_cons, List.foldl_nil, hcommit, ih, List.reverse_append,
        List.reverse_singleton, List.singleton_append, List.find?_cons]
      by_cases hid : id = a.id
      · simp [hid]
      · simp [hid, Ne.symm hid]

theorem Command.respects_iff (s : MeshArtifactStore) (command : Command) :
    command.Respects s ↔
      ∀ (id : ArtifactId) (r : MeshArtifact), s.artifacts[id]? = some r →
        ((command.written s).foldl (fun s artifact => s.commit artifact) s).artifacts[id]? =
          some r := by
  unfold Respects lastWritten
  simp only [getElem?_commit_all]
  constructor
  · intro h id r hr
    cases hlast : (command.written s).reverse.find? fun a => a.id = id with
    | none => simpa using hr
    | some a => simpa using h id r hr a hlast
  · intro h id r hr a hlast
    simpa [hlast] using h id r hr

theorem Command.respects_of_fresh {s : MeshArtifactStore} {command : Command}
    (h : ∀ a ∈ command.written s, a.id ∉ s.artifacts) : command.Respects s := by
  intro id r hr a ha
  have hmem := List.mem_reverse.mp (List.mem_of_find?_eq_some ha)
  have hid : a.id = id := by simpa using List.find?_some ha
  have hnone := Std.ExtTreeMap.getElem?_eq_none (h a hmem)
  rw [hid, hr] at hnone
  exact absurd hnone (by simp)

/-! ## One call -/

theorem run_aged {s : MeshArtifactStore} {command : Command} (hrespects : command.Respects s)
    {id : ArtifactId} {r : MeshArtifact} (hr : s.artifacts[id]? = some r)
    (hkept : id ∈ (s.run command).2.artifacts) :
    ∃ r', (s.run command).2.artifacts[id]? = some r' ∧ Aged r r' := by
  have heffect := run_effect s command
  generalize (s.run command).2 = t at heffect hkept ⊢
  cases heffect with
  | wrote hsame =>
      rw [hsame.1]
      exact ⟨r, (command.respects_iff s).mp hrespects id r hr, .refl r⟩
  | @consumed id' a hget hnew =>
      simp only [Maps.getElem?_insert_ite]
      by_cases hid : id = id'
      · subst hid
        rw [hr] at hget
        cases hget
        exact ⟨_, if_pos rfl, .inr ⟨hnew, rfl⟩⟩
      · exact ⟨r, by rw [if_neg hid, hr], .refl r⟩
  | collected policy =>
      have hget : (s.collectGarbage policy).2.artifacts[id]? =
          Option.filter (fun a => !policy.removesArtifact a) s.artifacts[id]? :=
        Std.ExtTreeMap.getElem?_filter'
      have hsome := Std.ExtTreeMap.isSome_getElem?_iff_mem.mpr hkept
      rw [hget, hr] at hsome
      rw [hget, hr]
      exact ⟨r, Option.filter_eq_some_iff.mpr ⟨rfl, by simpa using hsome⟩, .refl r⟩

theorem receives_kept {source s t : MeshArtifactStore}
    (h : Relation.ReflTransGen (Receives source) s t) {id : ArtifactId} {r : MeshArtifact}
    (hr : s.artifacts[id]? = some r) : t.artifacts[id]? = some r := by
  induction h with
  | refl => exact hr
  | tail _ hstep ih =>
      cases hstep with
      | same hsame => rw [hsame.1, ih]
      | @artifact id' a _ hget hnew hartifacts hindex =>
          rw [hartifacts, Maps.getElem?_insert_ite, if_neg, ih]
          rintro rfl
          simp [ih] at hnew

theorem consume_ok {s : MeshArtifactStore} {id : ArtifactId} {a : MeshArtifact}
    (h : (s.consume id).1 = .ok a) :
    ∃ r, s.artifacts[id]? = some r ∧ r.consumed = false ∧
      (s.consume id).2.artifacts[id]? = some { r with consumed := true } := by
  unfold consume at h ⊢
  cases hget : s.artifacts[id]? with
  | none => simp [hget] at h
  | some r =>
      cases hflag : r.consumed with
      | true => simp [hget, hflag] at h
      | false => exact ⟨r, rfl, hflag, by simp [hflag]⟩

section System

variable {ι : Type} [DecidableEq ι]

/-- The calls of a system that change no record by producing. -/
def Respectful (net : Network ι) : Call ι → Prop
  | .on i command => command.Respects (net i)
  | _ => True

/-- After the call, the store `i` still holds a record with the id `id`. -/
def Keeps (i : ι) (id : ArtifactId) (net : Network ι) (call : Call ι) : Prop :=
  id ∈ ((Network.step net call).2 i).artifacts

instance (i : ι) (id : ArtifactId) (net : Network ι) (call : Call ι) :
    Decidable (Keeps i id net call) :=
  inferInstanceAs (Decidable (_ ∈ _))

theorem step_aged {net : Network ι} {call : Call ι} (hrespectful : Respectful net call) {i : ι}
    {id : ArtifactId} {r : MeshArtifact} (hr : (net i).artifacts[id]? = some r)
    (hkept : Keeps i id net call) :
    ∃ r', ((Network.step net call).2 i).artifacts[id]? = some r' ∧ Aged r r' := by
  rcases step_effect net call i with hsame | ⟨command, rfl, hrun⟩ | ⟨-, source, hreceives⟩
  · rw [hsame]
    exact ⟨r, hr, .refl r⟩
  · unfold Keeps at hkept
    rw [hrun] at hkept ⊢
    exact run_aged hrespectful hr hkept
  · exact ⟨r, receives_kept hreceives hr, .refl r⟩

/-- The call consumes the record `id` of the store `i`. -/
def consumes (i : ι) (id : ArtifactId) (_ : Network ι) :
    Call ι → Except MeshError Answer → Network ι → Bool
  | .on j (.consume id'), .ok _, _ => decide (j = i ∧ id' = id)
  | _, _, _ => false

theorem step_consumes {net : Network ι} {call : Call ι} {i : ι} {id : ArtifactId}
    (h : consumes i id net call (Network.step net call).1 (Network.step net call).2 = true) :
    ∃ r, (net i).artifacts[id]? = some r ∧ r.consumed = false ∧
      ((Network.step net call).2 i).artifacts[id]? = some { r with consumed := true } := by
  cases call with
  | on j command =>
      cases command with
      | consume id' =>
          simp only [Network.step, run] at h ⊢
          cases hanswer : ((net j).consume id').1 with
          | error e => simp [hanswer, consumes, Except.map] at h
          | ok a =>
              simp only [hanswer, consumes, Except.map, decide_eq_true_eq] at h
              obtain ⟨rfl, rfl⟩ := h
              simpa using consume_ok hanswer
      | _ => simp [consumes] at h
  | _ => simp [consumes] at h

/-! ## Runs -/

/-- While a record is stored it keeps its content, its flag is set at most once, and it is
consumed at most once, never when its flag is already set. -/
theorem run_immutable {i : ι} {id : ArtifactId} {r : MeshArtifact} (net : Network ι)
    (calls : List (Call ι)) (hrespectful : Transition.Along Respectful Network.step net calls)
    (hkept : Transition.Along (Keeps i id) Network.step net calls)
    (hr : (net i).artifacts[id]? = some r) :
    ∃ r', (Transition.final Network.step net calls i).artifacts[id]? = some r' ∧ Aged r r' ∧
      Transition.tally (consumes i id) Network.step net calls + r.consumed.toNat ≤
        r'.consumed.toNat := by
  induction calls generalizing net r with
  | nil => exact ⟨r, hr, .refl r, by simp [Transition.tally]⟩
  | cons call calls ih =>
      obtain ⟨r₁, hr₁, haged₁⟩ := step_aged hrespectful.1 hr hkept.1
      obtain ⟨r₂, hr₂, haged₂, hcount⟩ := ih _ hrespectful.2 hkept.2 hr₁
      refine ⟨r₂, hr₂, haged₁.trans haged₂, le_trans ?_ hcount⟩
      -- the first call sets the flag if it is counted, and never takes it back
      have hfirst : (consumes i id net call (Network.step net call).1
          (Network.step net call).2).toNat + r.consumed.toNat ≤ r₁.consumed.toNat := by
        cases hconsumes : consumes i id net call (Network.step net call).1
            (Network.step net call).2 with
        | true =>
            obtain ⟨r', hr', hflag, hset⟩ := step_consumes hconsumes
            rw [hr] at hr'
            rw [hr₁] at hset
            cases hr'
            cases hset
            simp [hflag]
        | false =>
            rcases haged₁ with rfl | ⟨hflag, rfl⟩
            · simp
            · simp [hflag]
      simp only [Transition.tally]
      omega

/-- Between two states of a run of a system of stores, reached by calls after which the
artifact is still stored and which do not produce over a stored record: the record is the
same up to its flag having been set, and it is consumed at most once, and not at all if its
flag was set before. -/
theorem artifacts_immutable (start : ι → UInt64) (before after : List (Call ι)) {i : ι}
    {id : ArtifactId} {r : MeshArtifact}
    (hr : (Transition.final Network.step (Network.new start) before i).artifacts[id]? = some r)
    (hrespectful : Transition.Along Respectful Network.step
      (Transition.final Network.step (Network.new start) before) after)
    (hkept : Transition.Along (Keeps i id) Network.step
      (Transition.final Network.step (Network.new start) before) after) :
    (∃ r', (Transition.final Network.step (Network.new start) (before ++ after) i).artifacts[id]? =
      some r' ∧ Aged r r') ∧
    Transition.tally (consumes i id) Network.step
      (Transition.final Network.step (Network.new start) before) after + r.consumed.toNat ≤ 1 := by
  obtain ⟨r', hr', haged, hcount⟩ := run_immutable _ after hrespectful hkept hr
  rw [Transition.final_append]
  exact ⟨⟨r', hr', haged⟩, hcount.trans (Bool.toNat_le r'.consumed)⟩

end System

/-! ## Two runs -/

def sampleArtifact (id : ArtifactId) (createdAtMs : UInt64) : MeshArtifact where
  id := id
  dimensionId := 2
  taskId := 3
  nodeId := none
  contentType := "t"
  tags := []
  payload := .null
  provenance :=
    { producingTaskId := 3, producingAgentId := none, producingNodeId := none,
      controllerId := none, schemaVersion := "1" }
  createdAtMs := createdAtMs
  immutabilityTier := 1
  consumed := false

def sampleBefore : List (Call Unit) :=
  [.on () (.produce (fun _ => 0) (sampleArtifact 1 5))]

def sampleAfter : List (Call Unit) :=
  [.on () (.consume 1), .on () (.produce (fun _ => 0) (sampleArtifact 9 6))]

theorem artifacts_immutable_sample :
    (∃ r', (Transition.final Network.step (Network.new fun _ => 0)
      (sampleBefore ++ sampleAfter) ()).artifacts[(1 : ArtifactId)]? = some r' ∧
        Aged (produced 0 (sampleArtifact 1 5)) r') ∧
    Transition.tally (consumes () 1) Network.step
      (Transition.final Network.step (Network.new fun _ => 0) sampleBefore) sampleAfter +
        (produced 0 (sampleArtifact 1 5)).consumed.toNat ≤ 1 :=
  artifacts_immutable (fun _ => 0) sampleBefore sampleAfter Std.ExtTreeMap.getElem?_insert_self
    ⟨Command.respects_of_fresh (by simp [Command.written]),
      Command.respects_of_fresh (by decide +kernel), trivial⟩
    ⟨by decide +kernel, by decide +kernel, trivial⟩

/-- Produced again under its id, a consumed artifact can be consumed a second time. -/
theorem consumed_twice :
    let net := Transition.final Network.step (Network.new fun _ => 0) sampleBefore
    let calls : List (Call Unit) :=
      [.on () (.consume 1), .on () (.produce (fun _ => 0) (sampleArtifact 1 6)),
        .on () (.consume 1)]
    (1 : ArtifactId) ∈ (net ()).artifacts ∧
      Transition.Along (Keeps () 1) Network.step net calls ∧
      Transition.tally (consumes () 1) Network.step net calls = 2 :=
  ⟨by decide +kernel, ⟨by decide +kernel, by decide +kernel, by decide +kernel, trivial⟩,
    by decide +kernel⟩

end Mesh

end InfinityOS
