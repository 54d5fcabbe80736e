import InfinityOS.Core.Ranking

/-!
# Last writer wins

A store has one register for each key. A write goes to the register of its key and stays
there unless the register holds one of at least its rank. After any sequence of writes each
register holds a write of the highest rank among those to its key; where ranks are distinct
the store depends on the set of writes alone, in whatever order and however often each of
them arrived.
-/

namespace LastWriter

open Ranking OrderDual

variable {α κ ρ : Type*} [LinearOrder ρ] {key : α → κ} {rank : α → ρ}

/-- The content of a register after a write. -/
def accept (rank : α → ρ) (current : Option α) (a : α) : Option α :=
  match current with
  | none => some a
  | some b => if rank b < rank a then some a else some b

def write [DecidableEq κ] (key : α → κ) (rank : α → ρ) (s : κ → Option α) (a : α) : κ → Option α :=
  Function.update s (key a) (accept rank (s (key a)) a)

/-- Each register holds a write of the highest rank among those to its key. -/
structure Newest (key : α → κ) (rank : α → ρ) (S : Set α) (s : κ → Option α) : Prop where
  selects : ∀ k a, s k = some a → Selects (fun a => toDual (rank a)) (fun a => key a = k) S a
  isSome : ∀ a ∈ S, (s (key a)).isSome

variable {S S' : Set α} {s s' : κ → Option α}

theorem newest_empty : Newest key rank ∅ fun _ => none where
  selects k a h := by cases h
  isSome a ha := ha.elim

theorem accept_some (rank : α → ρ) (b a : α) :
    ∃ c, accept rank (some b) a = some c ∧ (c = a ∨ c = b) ∧ rank b ≤ rank c ∧
      rank a ≤ rank c := by
  unfold accept
  by_cases h : rank b < rank a
  · exact ⟨a, if_pos h, .inl rfl, h.le, le_rfl⟩
  · exact ⟨b, if_neg h, .inr rfl, le_rfl, not_lt.mp h⟩

theorem Newest.selects_accept (h : Newest key rank S s) {a c : α}
    (hc : accept rank (s (key a)) a = some c) :
    Selects (fun a => toDual (rank a)) (fun b => key b = key a) (insert a S) c := by
  cases hold : s (key a) with
  | none =>
      rw [hold] at hc
      obtain rfl := Option.some.inj hc
      refine ⟨Set.mem_insert _ _, rfl, fun b hb hkey => ?_⟩
      rcases Set.mem_insert_iff.mp hb with rfl | hb
      · exact le_rfl
      · have hsome := h.isSome b hb
        rw [hkey, hold] at hsome
        cases hsome
  | some b =>
      obtain ⟨hmem, hkeyb, hleast⟩ := h.selects _ _ hold
      obtain ⟨c', hc', hor, hbc, hac⟩ := accept_some rank b a
      rw [hold, hc'] at hc
      obtain rfl := Option.some.inj hc
      refine ⟨?_, ?_, fun d hd hkey => ?_⟩
      · rcases hor with rfl | rfl
        · exact Set.mem_insert _ _
        · exact Set.mem_insert_of_mem _ hmem
      · rcases hor with rfl | rfl
        · rfl
        · exact hkeyb
      · rcases Set.mem_insert_iff.mp hd with rfl | hd
        · exact hac
        · have hdb : rank d ≤ rank b := hleast d hd hkey
          exact hdb.trans hbc

theorem isSome_accept (rank : α → ρ) (current : Option α) (a : α) :
    (accept rank current a).isSome := by
  cases current with
  | none => rfl
  | some b =>
      obtain ⟨c, hc, -⟩ := accept_some rank b a
      rw [hc]
      rfl

theorem Newest.write [DecidableEq κ] (h : Newest key rank S s) (a : α) :
    Newest key rank (insert a S) (write key rank s a) where
  selects k c hc := by
    unfold LastWriter.write at hc
    by_cases hk : k = key a
    · subst hk
      rw [Function.update_self] at hc
      exact h.selects_accept hc
    · rw [Function.update_of_ne hk] at hc
      obtain ⟨hmem, hkey, hleast⟩ := h.selects k c hc
      refine ⟨Set.mem_insert_of_mem _ hmem, hkey, fun d hd hkeyd => ?_⟩
      rcases Set.mem_insert_iff.mp hd with rfl | hd
      · exact absurd hkeyd.symm hk
      · exact hleast d hd hkeyd
  isSome b hb := by
    unfold LastWriter.write
    by_cases hk : key b = key a
    · rw [hk, Function.update_self]
      exact isSome_accept rank _ a
    · rw [Function.update_of_ne hk]
      rcases Set.mem_insert_iff.mp hb with rfl | hb
      · exact absurd rfl hk
      · exact h.isSome b hb

theorem newest_foldl [DecidableEq κ] (l : List α) :
    Newest key rank {a | a ∈ l} (l.foldl (write key rank) fun _ => none) := by
  have hfold : ∀ (l : List α) (S : Set α) (s : κ → Option α), Newest key rank S s →
      Newest key rank (S ∪ {a | a ∈ l}) (l.foldl (write key rank) s) := by
    intro l
    induction l with
    | nil =>
        intro S s h
        simpa using h
    | cons a l ih =>
        intro S s h
        have hset : S ∪ {b | b ∈ a :: l} = insert a S ∪ {b | b ∈ l} := by
          ext b
          simp only [Set.mem_union, Set.mem_ofPred_eq, List.mem_cons, Set.mem_insert_iff]
          tauto
        rw [hset, List.foldl_cons]
        exact ih _ _ (h.write a)
  simpa using hfold l ∅ _ newest_empty

theorem Newest.eq_some_iff (h : Newest key rank S s) (hinj : Set.InjOn rank S) {k : κ} {a : α} :
    s k = some a ↔ Selects (fun a => toDual (rank a)) (fun a => key a = k) S a := by
  refine ⟨h.selects k a, fun ha => ?_⟩
  have hsome := h.isSome a ha.mem
  rw [ha.holds, Option.isSome_iff_exists] at hsome
  obtain ⟨b, hb⟩ := hsome
  have hdual : Set.InjOn (fun a => toDual (rank a)) S := fun x hx y hy hxy => hinj hx hy hxy
  rw [hb, (h.selects k b hb).unique ha hdual]

theorem Newest.unique (h : Newest key rank S s) (h' : Newest key rank S s')
    (hinj : Set.InjOn rank S) : s = s' := by
  funext k
  apply Option.ext
  intro a
  rw [h.eq_some_iff hinj, h'.eq_some_iff hinj]

end LastWriter
