import InfinityOS.Core.Maps

/-!
# Inverted indexes

An inverted index maps a key to the list of the ids filed under it. `Lists m R` says
that the list of every key `k` holds the ids `i` with `R k i` and no others, each once.
`Indexes` is this for a table of records and a function from records to their keys; it
is kept when a record is filed under its keys or taken out of them.
-/

namespace InvertedIndex

open Std

variable {κ ι ρ : Type*} {cmp : κ → κ → Ordering} [TransCmp cmp]

/-- The ids filed under `k`. -/
def lookup (m : ExtTreeMap κ (List ι) cmp) (k : κ) : List ι :=
  m[k]?.getD []

/-- File `i` under `k`, behind the ids already there. -/
def post (m : ExtTreeMap κ (List ι) cmp) (i : ι) (k : κ) : ExtTreeMap κ (List ι) cmp :=
  m.insert k (lookup m k ++ [i])

/-- Take `i` out of the list of `k`, if there is one. -/
def retract [DecidableEq ι] (m : ExtTreeMap κ (List ι) cmp) (i : ι) (k : κ) :
    ExtTreeMap κ (List ι) cmp :=
  match m[k]? with
  | none => m
  | some ids => m.insert k (ids.filter fun j => j ≠ i)

/-- The list of every key holds exactly the ids that `R` relates to it, each once. -/
def Lists (m : ExtTreeMap κ (List ι) cmp) (R : κ → ι → Prop) : Prop :=
  ∀ k, (lookup m k).Nodup ∧ ∀ i, i ∈ lookup m k ↔ R k i

theorem Lists.congr {m : ExtTreeMap κ (List ι) cmp} {R S : κ → ι → Prop} (h : Lists m R)
    (hRS : ∀ k i, R k i ↔ S k i) : Lists m S :=
  fun k => ⟨(h k).1, fun i => ((h k).2 i).trans (hRS k i)⟩

theorem nodup_option_toList (o : Option κ) : o.toList.Nodup := by
  cases o with
  | none => exact List.nodup_nil
  | some k => exact List.nodup_singleton k

theorem lists_empty : Lists (∅ : ExtTreeMap κ (List ι) cmp) fun _ _ => False := by
  intro k
  simp [lookup]

variable [LawfulEqCmp cmp]

theorem lookup_post [DecidableEq κ] (m : ExtTreeMap κ (List ι) cmp) (i : ι) (k k' : κ) :
    lookup (post m i k) k' = if k' = k then lookup m k ++ [i] else lookup m k' := by
  rw [lookup, post, Maps.getElem?_insert_ite]
  split
  · rfl
  · rfl

section Retract

variable [DecidableEq ι]

theorem lookup_retract [DecidableEq κ] (m : ExtTreeMap κ (List ι) cmp) (i : ι) (k k' : κ) :
    lookup (retract m i k) k' =
      if k' = k then (lookup m k).filter fun j => j ≠ i else lookup m k' := by
  cases hk : m[k]? with
  | none =>
      simp only [retract, hk]
      split
      · next h => simp [lookup, h, hk]
      · rfl
  | some ids =>
      simp only [retract, hk, lookup]
      rw [Maps.getElem?_insert_ite]
      split
      · next h => simp
      · rfl

theorem lookup_foldl_retract [DecidableEq κ] (i : ι) (ks : List κ)
    (m : ExtTreeMap κ (List ι) cmp) (k : κ) :
    lookup (ks.foldl (fun m k => retract m i k) m) k =
      if k ∈ ks then (lookup m k).filter fun j => j ≠ i else lookup m k := by
  induction ks generalizing m with
  | nil => simp
  | cons k' ks ih =>
      rw [List.foldl_cons, ih, lookup_retract]
      by_cases hk : k = k'
      · subst hk
        simp [List.filter_filter]
      · simp [hk]

theorem Lists.foldl_retract {m : ExtTreeMap κ (List ι) cmp} {R : κ → ι → Prop}
    (h : Lists m R) (i : ι) (ks : List κ) (hks : ∀ k, R k i → k ∈ ks) :
    Lists (ks.foldl (fun m k => retract m i k) m) fun k j => R k j ∧ j ≠ i := by
  classical
  intro k
  rw [lookup_foldl_retract]
  obtain ⟨hnodup, hmem⟩ := h k
  by_cases hk : k ∈ ks
  · rw [if_pos hk]
    refine ⟨hnodup.filter _, fun j => ?_⟩
    rw [List.mem_filter, hmem, decide_eq_true_eq]
  · rw [if_neg hk]
    refine ⟨hnodup, fun j => ?_⟩
    rw [hmem]
    constructor
    · intro hR
      refine ⟨hR, ?_⟩
      rintro rfl
      exact hk (hks k hR)
    · exact And.left

end Retract

theorem Lists.foldl_post {m : ExtTreeMap κ (List ι) cmp} {R : κ → ι → Prop}
    (h : Lists m R) (i : ι) (ks : List κ) (hks : ks.Nodup) (hi : ∀ k ∈ ks, ¬ R k i) :
    Lists (ks.foldl (fun m k => post m i k) m) fun k j => R k j ∨ (j = i ∧ k ∈ ks) := by
  classical
  induction ks generalizing m R with
  | nil => simpa using h
  | cons k ks ih =>
      obtain ⟨hk, hnodup⟩ := List.nodup_cons.mp hks
      have hpost : Lists (post m i k) fun k' j => R k' j ∨ (j = i ∧ k' = k) := by
        intro k'
        rw [lookup_post]
        obtain ⟨hnodup', hmem⟩ := h k'
        split
        · next heq =>
            subst heq
            have hfresh : i ∉ lookup m k' := fun hin =>
              hi k' List.mem_cons_self ((hmem i).mp hin)
            refine ⟨hnodup'.append (List.nodup_singleton i) ?_, fun j => ?_⟩
            · exact List.disjoint_singleton.mpr hfresh
            · simp [hmem]
        · next hne => exact ⟨hnodup', fun j => by simp [hmem, hne]⟩
      have hrest := ih hpost hnodup fun k' hk' hR => by
        rcases hR with hR | ⟨-, rfl⟩
        · exact hi k' (List.mem_cons_of_mem k hk') hR
        · exact hk hk'
      refine hrest.congr fun k' j => ?_
      rw [List.mem_cons]
      tauto

/-! ## A table and its index -/

section Table

variable {cmpι : ι → ι → Ordering} [TransCmp cmpι]

/-- `m` lists exactly the ids of the records that have the key. -/
def Indexes (keys : ρ → List κ) (m : ExtTreeMap κ (List ι) cmp) (t : ExtTreeMap ι ρ cmpι) :
    Prop :=
  Lists m fun k i => ∃ r, t[i]? = some r ∧ k ∈ keys r

variable {keys : ρ → List κ} {m : ExtTreeMap κ (List ι) cmp} {t : ExtTreeMap ι ρ cmpι}

omit [LawfulEqCmp cmp] in
theorem indexes_empty :
    Indexes keys (∅ : ExtTreeMap κ (List ι) cmp) (∅ : ExtTreeMap ι ρ cmpι) :=
  lists_empty.congr fun k i => by simp

omit [LawfulEqCmp cmp] in
theorem Indexes.congr {t' : ExtTreeMap ι ρ cmpι} (h : Indexes keys m t)
    (hkeys : ∀ i : ι, (t'[i]?).map keys = (t[i]?).map keys) : Indexes keys m t' := by
  refine Lists.congr h fun k i => ?_
  have hi := hkeys i
  cases ht : t[i]? with
  | none =>
      rw [ht, Option.map_none, Option.map_eq_none_iff] at hi
      simp [hi]
  | some r =>
      rw [ht, Option.map_some, Option.map_eq_some_iff] at hi
      obtain ⟨r', hr', hkeys'⟩ := hi
      simp [hr', hkeys']

variable [LawfulEqCmp cmpι] [DecidableEq ι]

theorem Indexes.insert_new (h : Indexes keys m t) {i : ι} (hi : t[i]? = none) (r : ρ)
    (hr : (keys r).Nodup) :
    Indexes keys ((keys r).foldl (fun m k => post m i k) m) (t.insert i r) := by
  have hpost := Lists.foldl_post h i (keys r) hr fun k _ => by
    rintro ⟨r', hr', -⟩
    simp [hi] at hr'
  refine hpost.congr fun k j => ?_
  rw [Maps.getElem?_insert_ite]
  by_cases hj : j = i
  · subst hj
    simp [hi]
  · simp [hj]

theorem Indexes.erase (h : Indexes keys m t) {i : ι} {r : ρ}
    (hi : ∀ r', t[i]? = some r' → r' = r) :
    Indexes keys ((keys r).foldl (fun m k => retract m i k) m) (t.erase i) := by
  refine (Lists.foldl_retract h i (keys r) ?_).congr fun k j => ?_
  · rintro k ⟨r', hr', hk⟩
    rwa [← hi r' hr']
  · rw [Maps.getElem?_erase_ite]
    by_cases hj : j = i
    · simp [hj]
    · simp [hj]

end Table

end InvertedIndex
