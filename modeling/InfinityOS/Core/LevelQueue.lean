import Mathlib

/-!
# FIFO queues by level

One FIFO queue for each of `n` levels. `push` files an element behind those of its level
and `pop` takes the first element of the highest level that has one. Where the elements
of every level are in the order of their arrival, `pop` takes the oldest of them.
-/

namespace LevelQueue

variable {n : ℕ} {α : Type*}

/-- File `a` behind the elements of the level `p`. -/
def push (q : Fin n → List α) (p : Fin n) (a : α) : Fin n → List α :=
  Function.update q p (q p ++ [a])

/-- The first element of the first of the given levels that has one. -/
def popFrom (q : Fin n → List α) : List (Fin n) → Option (α × (Fin n → List α))
  | [] => none
  | p :: ps =>
      match q p with
      | [] => popFrom q ps
      | a :: rest => some (a, Function.update q p rest)

/-- The levels are looked at from the highest to the lowest. -/
def pop (q : Fin n → List α) : Option (α × (Fin n → List α)) :=
  popFrom q (List.finRange n).reverse

/-- The number of elements in all levels. -/
def size (q : Fin n → List α) : ℕ :=
  ∑ p, (q p).length

/-- `a` is taken from the level `p` of `q`, and `q'` is what stays. -/
structure Popped (q : Fin n → List α) (p : Fin n) (a : α) (q' : Fin n → List α) : Prop where
  head : q p = a :: q' p
  above : ∀ r, p < r → q r = []
  other : ∀ r, r ≠ p → q' r = q r

variable {q q' : Fin n → List α} {p r : Fin n} {a b : α}

/-! ## What a push and a pop do -/

theorem mem_push : b ∈ push q p a r ↔ b ∈ q r ∨ r = p ∧ b = a := by
  by_cases h : r = p
  · subst h
    simp [push]
  · simp [push, h]

theorem popFrom_eq_none {ps : List (Fin n)} (h : popFrom q ps = none) : ∀ p ∈ ps, q p = [] := by
  induction ps with
  | nil =>
      intro p hp
      cases hp
  | cons p ps ih =>
      rw [popFrom] at h
      cases hq : q p with
      | nil =>
          rw [hq] at h
          exact List.forall_mem_cons.mpr ⟨hq, ih h⟩
      | cons a rest =>
          rw [hq] at h
          cases h

theorem pop_eq_none (h : pop q = none) (p : Fin n) : q p = [] :=
  popFrom_eq_none h p (List.mem_reverse.mpr (List.mem_finRange p))

theorem popFrom_eq_some {ps : List (Fin n)} (h : popFrom q ps = some (a, q'))
    (hps : ps.Pairwise fun p r => r < p) :
    ∃ p, q p = a :: q' p ∧ (∀ r ∈ ps, p < r → q r = []) ∧ ∀ r, r ≠ p → q' r = q r := by
  induction ps with
  | nil => cases h
  | cons p ps ih =>
      rw [popFrom] at h
      rw [List.pairwise_cons] at hps
      cases hq : q p with
      | nil =>
          rw [hq] at h
          obtain ⟨p', hhead, habove, hother⟩ := ih h hps.2
          exact ⟨p', hhead, List.forall_mem_cons.mpr ⟨fun _ => hq, habove⟩, hother⟩
      | cons b rest =>
          rw [hq] at h
          cases h
          refine ⟨p, ?_, ?_, ?_⟩
          · rw [hq, Function.update_self]
          · intro r hr hlt
            rcases List.mem_cons.mp hr with rfl | hr
            · exact absurd hlt (lt_irrefl r)
            · exact absurd hlt (lt_asymm (hps.1 r hr))
          · intro r hr
            exact Function.update_of_ne hr _ _

theorem popped_of_pop (h : pop q = some (a, q')) : ∃ p, Popped q p a q' := by
  have hps : (List.finRange n).reverse.Pairwise fun p r => r < p :=
    List.pairwise_reverse.mpr (List.pairwise_lt_finRange n)
  obtain ⟨p, hhead, habove, hother⟩ := popFrom_eq_some h hps
  exact ⟨p, hhead, fun r => habove r (List.mem_reverse.mpr (List.mem_finRange r)), hother⟩

theorem Popped.mem (h : Popped q p a q') : a ∈ q p := by
  rw [h.head]
  exact List.mem_cons_self

theorem Popped.mem_of_mem (h : Popped q p a q') (hb : b ∈ q' r) : b ∈ q r := by
  by_cases hr : r = p
  · subst hr
    rw [h.head]
    exact List.mem_cons_of_mem a hb
  · rw [← h.other r hr]
    exact hb

theorem Popped.mem_iff (h : Popped q p a q') (hb : b ≠ a) : b ∈ q' r ↔ b ∈ q r := by
  constructor
  · exact h.mem_of_mem
  · intro hmem
    by_cases hr : r = p
    · subst hr
      rw [h.head] at hmem
      exact (List.mem_cons.mp hmem).resolve_left hb
    · rw [h.other r hr]
      exact hmem

theorem Popped.size_eq (h : Popped q p a q') : size q = size q' + 1 := by
  have hsum : ∑ r ∈ Finset.univ.erase p, (q r).length =
      ∑ r ∈ Finset.univ.erase p, (q' r).length := by
    apply Finset.sum_congr rfl
    intro r hr
    rw [h.other r (Finset.ne_of_mem_erase hr)]
  unfold size
  rw [← Finset.sum_erase_add _ _ (Finset.mem_univ p), hsum, h.head, List.length_cons,
    ← Nat.add_assoc, Finset.sum_erase_add _ _ (Finset.mem_univ p)]

/-! ## Levels without elements -/

theorem pop_of_empty (h : ∀ r, q r = []) : pop q = none := by
  cases hpop : pop q with
  | none => rfl
  | some popped =>
      obtain ⟨p, hpopped⟩ := popped_of_pop hpop
      have hmem := hpopped.mem
      rw [h p] at hmem
      cases hmem

theorem pop_push_of_empty (h : ∀ r, q r = []) (p : Fin n) (a : α) :
    ∃ q', pop (push q p a) = some (a, q') ∧ ∀ r, q' r = [] := by
  have hmem {b : α} {r : Fin n} (hb : b ∈ push q p a r) : r = p ∧ b = a := by
    rw [mem_push, h r] at hb
    exact hb.resolve_left List.not_mem_nil
  cases hpop : pop (push q p a) with
  | none =>
      have hnil := pop_eq_none hpop p
      simp [push] at hnil
  | some popped =>
      obtain ⟨b, q'⟩ := popped
      obtain ⟨r, hpopped⟩ := popped_of_pop hpop
      obtain ⟨rfl, rfl⟩ := hmem hpopped.mem
      have hhead := hpopped.head
      rw [push, Function.update_self, h r] at hhead
      refine ⟨q', rfl, ?_⟩
      intro r'
      by_cases hr : r' = r
      · rw [hr]
        exact (List.cons.inj hhead).2.symm
      · rw [hpopped.other r' hr, push, Function.update_of_ne hr, h r']

/-! ## Elements in the order of their arrival -/

section Ordered

variable [Preorder α]

def Ordered (q : Fin n → List α) : Prop :=
  ∀ p, (q p).Pairwise (· < ·)

theorem Ordered.push (h : Ordered q) (ha : ∀ b ∈ q p, b < a) : Ordered (push q p a) := by
  intro r
  by_cases hr : r = p
  · subst hr
    rw [LevelQueue.push, Function.update_self, List.pairwise_append]
    refine ⟨h r, List.pairwise_singleton _ a, ?_⟩
    intro b hb c hc
    rw [List.mem_singleton.mp hc]
    exact ha b hb
  · rw [LevelQueue.push, Function.update_of_ne hr]
    exact h r

theorem Popped.ordered (h : Popped q p a q') (hq : Ordered q) : Ordered q' := by
  intro r
  by_cases hr : r = p
  · subst hr
    have hlevel := hq r
    rw [h.head] at hlevel
    exact hlevel.of_cons
  · rw [h.other r hr]
    exact hq r

theorem Popped.notMem (h : Popped q p a q') (hq : Ordered q) : a ∉ q' p := by
  intro ha
  have hlevel := hq p
  rw [h.head, List.pairwise_cons] at hlevel
  exact lt_irrefl a (hlevel.1 a ha)

theorem Popped.oldest (h : Popped q p a q') (hq : Ordered q) (hb : b ∈ q r) :
    r < p ∨ r = p ∧ a ≤ b := by
  rcases lt_trichotomy r p with hlt | heq | hgt
  · exact Or.inl hlt
  · subst heq
    have hlevel := hq r
    rw [h.head] at hb hlevel
    rcases List.mem_cons.mp hb with rfl | hb
    · exact Or.inr ⟨rfl, le_refl b⟩
    · exact Or.inr ⟨rfl, le_of_lt ((List.pairwise_cons.mp hlevel).1 b hb)⟩
  · rw [h.above r hgt] at hb
    cases hb

end Ordered

end LevelQueue
