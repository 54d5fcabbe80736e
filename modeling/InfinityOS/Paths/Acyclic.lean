import Mathlib

/-!
# Acyclic relations and their linear orders

`Acyclic r` says that no element reaches itself along `r`. `SourcesFirst r order`
is what a topological sort promises of the list it returns: whatever points to
an element stands before it. `ClosedWalk r path` is what a cycle search promises
of the path it returns. A relation that fits a list with all its edges is
acyclic; a finite set in which everything has a predecessor contains a cycle.
-/

namespace Paths

open Relation

variable {α : Type*} {r : α → α → Prop}

/-- No element reaches itself. -/
def Acyclic (r : α → α → Prop) : Prop :=
  ∀ a, ¬ TransGen r a a

def SourcesFirst (r : α → α → Prop) (order : List α) : Prop :=
  ∀ l₁ b l₂, order = l₁ ++ b :: l₂ → ∀ a, r a b → a ∈ l₁

/-- At least one step along `r`, ending where it began. -/
structure ClosedWalk (r : α → α → Prop) (path : List α) : Prop where
  steps : path.IsChain r
  long : 2 ≤ path.length
  closed : path.head? = path.getLast?

/-! ## Topological lists -/

theorem sourcesFirst_nil : SourcesFirst r [] := by
  intro l₁ b l₂ h
  simp at h

theorem sourcesFirst_append_singleton {order : List α} {b : α}
    (h : SourcesFirst r order) (hb : ∀ a, r a b → a ∈ order) :
    SourcesFirst r (order ++ [b]) := by
  intro l₁ c l₂ heq a hac
  rcases List.eq_nil_or_concat l₂ with rfl | ⟨l, d, rfl⟩
  · obtain ⟨rfl, hbc⟩ := List.append_inj' heq rfl
    have hc : b = c := List.singleton_inj.mp hbc
    exact hb a (hc ▸ hac)
  · have hassoc : order ++ [b] = (l₁ ++ c :: l) ++ [d] := by
      rw [heq, List.concat_eq_append, List.append_assoc]
      rfl
    have hinit := (List.append_inj' hassoc rfl).1
    exact h l₁ c l hinit a hac

theorem SourcesFirst.idxOf_lt [DecidableEq α] {order : List α} (h : SourcesFirst r order)
    (hnodup : order.Nodup) {a b : α} (hb : b ∈ order) (hab : r a b) :
    a ∈ order ∧ order.idxOf a < order.idxOf b := by
  obtain ⟨l₁, l₂, heq⟩ := List.append_of_mem hb
  have ha : a ∈ l₁ := h l₁ b l₂ heq a hab
  rw [heq, List.nodup_append] at hnodup
  have hb₁ : b ∉ l₁ := fun hmem => hnodup.2.2 b hmem b (by simp) rfl
  have hidx : order.idxOf a < l₁.length := by
    rw [heq, List.idxOf_append_of_mem ha]
    exact List.idxOf_lt_length_of_mem ha
  have hidx' : order.idxOf b = l₁.length := by
    rw [heq, List.idxOf_append_of_notMem hb₁, List.idxOf_cons_self, Nat.add_zero]
  refine ⟨?_, by omega⟩
  rw [heq]
  exact List.mem_append_left _ ha

theorem SourcesFirst.not_transGen [DecidableEq α] {order : List α}
    (h : SourcesFirst r order) (hnodup : order.Nodup) {a : α} (ha : a ∈ order) :
    ¬ TransGen r a a := by
  have hlt : ∀ {b c}, TransGen r b c → c ∈ order →
      b ∈ order ∧ order.idxOf b < order.idxOf c := by
    intro b c hbc hc
    induction hbc with
    | single hstep => exact h.idxOf_lt hnodup hc hstep
    | tail _ hstep ih =>
        obtain ⟨hmid, hlt⟩ := h.idxOf_lt hnodup hc hstep
        obtain ⟨hb, hlt'⟩ := ih hmid
        exact ⟨hb, hlt'.trans hlt⟩
  intro hcycle
  exact lt_irrefl _ (hlt hcycle ha).2

/-- A relation all of whose targets occur in a topological list is acyclic. -/
theorem SourcesFirst.acyclic [DecidableEq α] {order : List α} (h : SourcesFirst r order)
    (hnodup : order.Nodup) (hall : ∀ a b, r a b → b ∈ order) : Acyclic r := by
  intro a hcycle
  obtain ⟨b, -, hba⟩ := TransGen.tail'_iff.mp hcycle
  exact h.not_transGen hnodup (hall b a hba) hcycle

/-! ## Finite sets of predecessors -/

theorem not_acyclic_of_predecessors {l : List α} (hne : l ≠ [])
    (hpred : ∀ b ∈ l, ∃ a ∈ l, r a b) : ¬ Acyclic r := by
  intro hacyclic
  -- below any element there is a minimal one, by finiteness
  let below : {a // a ∈ l} → {a // a ∈ l} → Prop := fun a b => TransGen r a.1 b.1
  have hfin : Finite {a // a ∈ l} := l.finite_toSet
  have htrans : IsTrans _ below := ⟨fun _ _ _ hab hbc => hab.trans hbc⟩
  have hirrefl : Std.Irrefl below := ⟨fun a ha => hacyclic a.1 ha⟩
  have hwf : WellFounded below := Finite.wellFounded_of_trans_of_irrefl below
  obtain ⟨a, ha⟩ := List.exists_mem_of_ne_nil l hne
  obtain ⟨m, -, hmin⟩ := hwf.has_min Set.univ ⟨⟨a, ha⟩, trivial⟩
  obtain ⟨b, hb, hbm⟩ := hpred m.1 m.2
  exact hmin ⟨b, hb⟩ trivial (.single hbm)

/-! ## Walks and accessibility -/

theorem reflTransGen_of_isChain {a : α} {path : List α} (h : (a :: path).IsChain r) :
    ∀ b ∈ a :: path, ReflTransGen r a b := by
  induction path generalizing a with
  | nil =>
      intro b hb
      rw [List.mem_singleton] at hb
      rw [hb]
  | cons c path ih =>
      rw [List.isChain_cons_cons] at h
      intro b hb
      rcases List.mem_cons.mp hb with rfl | hb
      · exact .refl
      · exact .head h.1 (ih h.2 b hb)

theorem ClosedWalk.exists_transGen {path : List α} (h : ClosedWalk r path) :
    ∃ a, path.head? = some a ∧ TransGen r a a := by
  obtain ⟨hchain, hlong, hclosed⟩ := h
  match path with
  | [] => simp at hlong
  | [a] => simp at hlong
  | a :: b :: rest =>
      refine ⟨a, rfl, ?_⟩
      rw [List.isChain_cons_cons] at hchain
      have hlast : a ∈ b :: rest := by
        rw [List.head?_cons, List.getLast?_cons_cons] at hclosed
        exact List.mem_of_getLast? hclosed.symm
      exact .head' hchain.1 (reflTransGen_of_isChain hchain.2 a hlast)

theorem not_transGen_of_acc {a b : α} (h : Acc (fun y x => r x y) a)
    (hab : ReflTransGen r a b) : ¬ TransGen r b b := by
  have hacc : Acc (fun y x => r x y) b := by
    induction hab with
    | refl => exact h
    | tail _ hstep ih => exact ih.inv hstep
  clear h hab
  intro hcycle
  induction hacc.transGen with
  | intro b _ ih =>
      have hback : TransGen (fun y x => r x y) b b := transGen_swap.mpr hcycle
      exact ih b hback (hacc.inv_of_transGen hback) hcycle

end Paths
