import Mathlib

/-!
# Choice by rank

`Selects rank p S a` says that `a` has the least rank among the elements of the set
`S` with the property `p`. The first element with the property in a list that is
sorted by rank is such an element. Where no two elements of `S` have the same rank
there is at most one, so the choice depends on the set alone. Sorting is stable, so a
list may be sorted before or after an element is appended.
-/

namespace Ranking

variable {α κ : Type*} [LinearOrder κ]

/-- Of the elements of `S` with the property `p`, none ranks below `a`. -/
structure Selects (rank : α → κ) (p : α → Prop) (S : Set α) (a : α) : Prop where
  mem : a ∈ S
  holds : p a
  least : ∀ b ∈ S, p b → rank a ≤ rank b

variable {rank : α → κ} {p : α → Prop} {S : Set α} {a b : α}

theorem Selects.unique (ha : Selects rank p S a) (hb : Selects rank p S b)
    (hinj : Set.InjOn rank S) : a = b := by
  have hle : rank a ≤ rank b := ha.least b hb.mem hb.holds
  have hge : rank b ≤ rank a := hb.least a ha.mem ha.holds
  exact hinj ha.mem hb.mem (le_antisymm hle hge)

/-- The same for the position of the first element with the property, and for any order of
the list. -/
theorem rel_of_findIdx? {r : α → α → Prop} [Std.Refl r] {l : List α} (hsorted : l.Pairwise r)
    {q : α → Bool} {i : ℕ} (hi : l.findIdx? q = some i) (ha : l[i]? = some a) (hb : b ∈ l)
    (hq : q b = true) : r a b := by
  obtain ⟨hlt, -, hfirst⟩ := List.findIdx?_eq_some_iff_getElem.mp hi
  obtain ⟨j, hj, rfl⟩ := List.getElem_of_mem hb
  obtain ⟨-, rfl⟩ := List.getElem?_eq_some_iff.mp ha
  rcases Nat.lt_trichotomy j i with hji | rfl | hij
  · exact absurd hq (hfirst j hji)
  · exact Std.Refl.refl _
  · exact List.pairwise_iff_getElem.mp hsorted i j hlt hj hij

section Stable

variable {r : α → α → Prop} [DecidableRel r] [Std.Total r] [IsTrans α r]

theorem orderedInsert_comm {a b : α} (h : ¬ r a b) (l : List α) :
    (l.orderedInsert r a).orderedInsert r b = (l.orderedInsert r b).orderedInsert r a := by
  have hba : r b a := (Std.Total.total a b).resolve_left h
  induction l with
  | nil => simp [h, hba]
  | cons c l ih =>
      by_cases hac : r a c
      · have hbc : r b c := IsTrans.trans b a c hba hac
        simp [h, hba, hac, hbc]
      · by_cases hbc : r b c
        · simp [h, hac, hbc]
        · simp [hac, hbc, ih]

theorem insertionSort_orderedInsert_append (a e : α) (l : List α) :
    (l.orderedInsert r a ++ [e]).insertionSort r =
      ((l ++ [e]).insertionSort r).orderedInsert r a := by
  induction l with
  | nil => rfl
  | cons b l ih =>
      rw [List.orderedInsert_cons]
      split
      · rfl
      · next h =>
          rw [List.cons_append, List.insertionSort_cons, ih, List.cons_append,
            List.insertionSort_cons, orderedInsert_comm h]

theorem insertionSort_append_singleton (l : List α) (e : α) :
    (l.insertionSort r ++ [e]).insertionSort r = (l ++ [e]).insertionSort r := by
  induction l with
  | nil => rfl
  | cons a l ih =>
      rw [List.insertionSort_cons, insertionSort_orderedInsert_append, ih, List.cons_append,
        List.insertionSort_cons]

end Stable

def insert (rank : α → κ) (l : List α) (a : α) : List α :=
  (l ++ [a]).insertionSort fun a b => rank a ≤ rank b

end Ranking
