import InfinityOS.Paths.Acyclic

/-!
# Depth in an acyclic relation

A root is an element to which nothing points, and `Climb r n a` says that a path of `n`
steps leads from a root to `a`. The depth of `a` is the length of the longest such path.
On a list that has every element behind its predecessors the depth is bounded by the
position, it grows along the relation, and every element below a root has a predecessor
on the layer above it.
-/

namespace Paths

variable {α : Type*} {r : α → α → Prop}

/-- Nothing points to the element. -/
def Root (r : α → α → Prop) (a : α) : Prop :=
  ∀ b, ¬ r b a

inductive Climb (r : α → α → Prop) : ℕ → α → Prop where
  | root {a : α} (h : Root r a) : Climb r 0 a
  | step {n : ℕ} {a b : α} (h : Climb r n a) (hab : r a b) : Climb r (n + 1) b

/-- The length of the longest path from a root. -/
noncomputable def depth (r : α → α → Prop) (a : α) : ℕ :=
  sSup {n | Climb r n a}

/-! ## Positions in a list without repetition -/

section Positions

variable [DecidableEq α] {order : List α}

theorem mem_of_prefix {l : List α} (hl : l <+: order) {p q : α} (hp : p ∈ order)
    (hq : q ∈ l) (hle : order.idxOf p ≤ order.idxOf q) : p ∈ l := by
  obtain ⟨t, rfl⟩ := hl
  rw [List.idxOf_append_of_mem hq] at hle
  have hlt : (l ++ t).idxOf p < l.length := hle.trans_lt (List.idxOf_lt_length_of_mem hq)
  have hget : (l ++ t)[(l ++ t).idxOf p]? = some p := by
    rw [List.getElem?_eq_getElem (List.idxOf_lt_length_of_mem hp), List.getElem_idxOf]
  rw [List.getElem?_append_left hlt] at hget
  exact List.mem_of_getElem? hget

theorem idxOf_lt_of_mem_take {p : α} {k : ℕ} (hp : p ∈ order.take k) : order.idxOf p < k := by
  have hsplit : (order.take k ++ order.drop k).idxOf p = (order.take k).idxOf p :=
    List.idxOf_append_of_mem hp
  rw [List.take_append_drop] at hsplit
  rw [hsplit]
  exact (List.idxOf_lt_length_of_mem hp).trans_le (List.length_take_le k order)

theorem pairwise_iff_idxOf (hnodup : order.Nodup) {R : α → α → Prop} :
    order.Pairwise R ↔
      ∀ a ∈ order, ∀ b ∈ order, order.idxOf a < order.idxOf b → R a b := by
  rw [List.pairwise_iff_getElem]
  constructor
  · intro h a ha b hb hlt
    have hpair := h _ _ (List.idxOf_lt_length_of_mem ha) (List.idxOf_lt_length_of_mem hb) hlt
    rwa [List.getElem_idxOf, List.getElem_idxOf] at hpair
  · intro h i j hi hj hlt
    apply h _ (List.getElem_mem hi) _ (List.getElem_mem hj)
    rwa [hnodup.idxOf_getElem, hnodup.idxOf_getElem]

end Positions

/-! ## Depths along a topological list -/

section Topological

variable [DecidableEq α] {order : List α} {a b v : α} {n : ℕ}

theorem Climb.le_idxOf (hclimb : Climb r n v) (h : SourcesFirst r order)
    (hnodup : order.Nodup) (hv : v ∈ order) : n ≤ order.idxOf v := by
  induction hclimb with
  | root _ => exact Nat.zero_le _
  | step _ hab ih =>
      obtain ⟨ha, hlt⟩ := h.idxOf_lt hnodup hv hab
      exact (ih ha).trans_lt hlt

theorem SourcesFirst.exists_climb (h : SourcesFirst r order) (hnodup : order.Nodup)
    (hv : v ∈ order) : ∃ n, Climb r n v := by
  induction hpos : order.idxOf v using Nat.strong_induction_on generalizing v with
  | h k ih =>
      by_cases hroot : Root r v
      · exact ⟨0, .root hroot⟩
      · unfold Root at hroot
        push Not at hroot
        obtain ⟨a, hav⟩ := hroot
        obtain ⟨ha, hlt⟩ := h.idxOf_lt hnodup hv hav
        obtain ⟨n, hn⟩ := ih _ (hpos ▸ hlt) ha rfl
        exact ⟨n + 1, hn.step hav⟩

theorem SourcesFirst.bddAbove_climb (h : SourcesFirst r order) (hnodup : order.Nodup)
    (hv : v ∈ order) : BddAbove {n | Climb r n v} :=
  ⟨order.idxOf v, fun _ hn => hn.le_idxOf h hnodup hv⟩

theorem SourcesFirst.climb_depth (h : SourcesFirst r order) (hnodup : order.Nodup)
    (hv : v ∈ order) : Climb r (depth r v) v :=
  Nat.sSup_mem (h.exists_climb hnodup hv) (h.bddAbove_climb hnodup hv)

theorem SourcesFirst.le_depth (h : SourcesFirst r order) (hnodup : order.Nodup)
    (hv : v ∈ order) (hclimb : Climb r n v) : n ≤ depth r v :=
  le_csSup (h.bddAbove_climb hnodup hv) hclimb

theorem SourcesFirst.depth_lt (h : SourcesFirst r order) (hnodup : order.Nodup)
    (hb : b ∈ order) (hab : r a b) : depth r a < depth r b := by
  have ha := (h.idxOf_lt hnodup hb hab).1
  exact h.le_depth hnodup hb ((h.climb_depth hnodup ha).step hab)

theorem SourcesFirst.exists_pred (h : SourcesFirst r order) (hnodup : order.Nodup)
    (hb : b ∈ order) (hpos : 0 < depth r b) : ∃ a, r a b ∧ depth r a + 1 = depth r b := by
  have hclimb := h.climb_depth hnodup hb
  generalize hn : depth r b = n at hclimb hpos
  cases hclimb with
  | root _ => exact absurd hpos (lt_irrefl 0)
  | @step m a _ ha hab =>
      have hmem := (h.idxOf_lt hnodup hb hab).1
      have hle := h.le_depth hnodup hmem ha
      have hlt := h.depth_lt hnodup hb hab
      exact ⟨a, hab, by omega⟩

end Topological

/-! ## Reading depths off -/

theorem depth_of_below_roots {a b : α} (hab : r a b) (h : ∀ a, r a b → Root r a) :
    depth r b = 1 := by
  have hset : {n | Climb r n b} = {1} := by
    ext n
    constructor
    · intro hn
      cases hn with
      | root hroot => exact absurd hab (hroot a)
      | step hc hcb =>
          cases hc with
          | root _ => rfl
          | step _ hdc => exact absurd hdc (h _ hcb _)
    · rintro rfl
      exact (Climb.root (h a hab)).step hab
  rw [depth, hset, csSup_singleton]

end Paths
