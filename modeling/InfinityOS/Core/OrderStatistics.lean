import Mathlib

/-!
# Order statistics

In a sorted list the elements up to a bound come first, so an element is within the bound when
fewer elements come before it than are within the bound. The mean of a list reaches a bound
when what its elements have above the bound makes up for what others lack, which is the case
when enough of them reach it, by what one has too much and another one too little on average.
-/

namespace OrderStatistics

section Ranks

variable {α : Type*} [LinearOrder α]

theorem countP_le_eq_zero {a x : α} {l : List α} (hl : (a :: l).Pairwise (· ≤ ·)) (ha : x < a) :
    l.countP (· ≤ x) = 0 := by
  rw [List.countP_eq_zero]
  intro b hb
  have hab := (List.pairwise_cons.mp hl).1 b hb
  simpa using ha.trans_le hab

theorem getElem_le_iff {l : List α} (hl : l.Pairwise (· ≤ ·)) {i : ℕ} (hi : i < l.length) (x : α) :
    l[i] ≤ x ↔ i < l.countP (· ≤ x) := by
  induction l generalizing i with
  | nil => exact absurd hi (Nat.not_lt_zero i)
  | cons a l ih =>
      have htail := (List.pairwise_cons.mp hl).2
      by_cases ha : a ≤ x
      · rw [List.countP_cons_of_pos (by simpa using ha)]
        cases i with
        | zero => simpa using ha
        | succ i =>
            rw [List.getElem_cons_succ, ih htail]
            omega
      · have hzero := countP_le_eq_zero hl (not_le.mp ha)
        rw [List.countP_cons_of_neg (by simpa using ha), hzero]
        cases i with
        | zero => simpa using ha
        | succ i =>
            rw [List.getElem_cons_succ, ih htail, hzero]
            omega

end Ranks

section Mean

variable {α : Type*} [Field α] [LinearOrder α] [IsStrictOrderedRing α]

/-- What the elements have above a bound. -/
def surplus (l : List α) (x : α) : α :=
  (l.map fun v => max (v - x) 0).sum

/-- What the elements lack to reach a bound. -/
def deficit (l : List α) (x : α) : α :=
  (l.map fun v => max (x - v) 0).sum

theorem sum_add_deficit (l : List α) (x : α) :
    l.sum + deficit l x = l.length * x + surplus l x := by
  induction l with
  | nil => simp [deficit, surplus]
  | cons v l ih =>
      have hv : v + max (x - v) 0 = x + max (v - x) 0 := by
        rcases le_total v x with hle | hle
        · rw [max_eq_left (sub_nonneg.mpr hle), max_eq_right (sub_nonpos.mpr hle)]
          ring
        · rw [max_eq_right (sub_nonpos.mpr hle), max_eq_left (sub_nonneg.mpr hle)]
          ring
      simp only [deficit, surplus, List.map_cons, List.sum_cons, List.length_cons,
        Nat.cast_succ] at ih ⊢
      linear_combination ih + hv

theorem le_mean_iff {l : List α} (hl : l ≠ []) (x : α) :
    x ≤ l.sum / l.length ↔ deficit l x ≤ surplus l x := by
  have hpos : (0 : α) < l.length := by exact_mod_cast List.length_pos_iff.mpr hl
  have hbalance := sum_add_deficit l x
  rw [le_div_iff₀ hpos]
  constructor
  · intro h
    linarith
  · intro h
    linarith

/-- How many elements must reach a bound for their mean to reach it, where those that do exceed
it, and the others miss it, by as much as they do on average. -/
def breakEven (l : List α) (x : α) : α :=
  let reaching := l.countP (x ≤ ·)
  let gain := surplus l x / reaching
  let loss := deficit l x / (l.length - reaching)
  l.length * loss / (gain + loss)

theorem surplus_nonneg (l : List α) (x : α) : 0 ≤ surplus l x :=
  List.sum_nonneg (by simp)

theorem surplus_eq_zero {l : List α} {x : α} (h : l.countP (x ≤ ·) = 0) : surplus l x = 0 := by
  apply List.sum_eq_zero
  rintro _ hmem
  obtain ⟨v, hv, rfl⟩ := List.mem_map.mp hmem
  have hlt : v < x := by simpa using List.countP_eq_zero.mp h v hv
  exact max_eq_right (sub_nonpos.mpr hlt.le)

theorem deficit_eq_zero {l : List α} {x : α} (h : l.countP (x ≤ ·) = l.length) :
    deficit l x = 0 := by
  apply List.sum_eq_zero
  rintro _ hmem
  obtain ⟨v, hv, rfl⟩ := List.mem_map.mp hmem
  have hle : x ≤ v := by simpa using List.countP_eq_length.mp h v hv
  exact max_eq_right (sub_nonpos.mpr hle)

theorem deficit_pos {l : List α} {x : α} (h : l.countP (x ≤ ·) < l.length) :
    0 < deficit l x := by
  have hsome : ∃ v ∈ l, v < x := by
    by_contra hnone
    push Not at hnone
    exact h.ne (List.countP_eq_length.mpr (by simpa using hnone))
  obtain ⟨v, hv, hlt⟩ := hsome
  have hterm : max (x - v) 0 ∈ l.map fun v => max (x - v) 0 := List.mem_map_of_mem hv
  calc
    0 < max (x - v) 0 := lt_max_of_lt_left (sub_pos.mpr hlt)
    _ ≤ deficit l x := List.single_le_sum (by simp) _ hterm

theorem le_mean_iff_breakEven {l : List α} (hl : l ≠ []) (x : α) :
    x ≤ l.sum / l.length ↔ breakEven l x ≤ l.countP (x ≤ ·) := by
  rw [le_mean_iff hl, breakEven]
  rcases (List.countP_le_length (p := (x ≤ ·)) (l := l)).eq_or_lt with hall | hsome
  · rw [deficit_eq_zero hall, zero_div, mul_zero, zero_div]
    exact iff_of_true (surplus_nonneg l x) (Nat.cast_nonneg _)
  · have hmissing : (0 : α) < l.length - l.countP (x ≤ ·) := by
      rw [sub_pos]
      exact_mod_cast hsome
    have hdeficit := deficit_pos hsome
    set loss := deficit l x / (l.length - l.countP (x ≤ ·)) with hloss
    set gain := surplus l x / l.countP (x ≤ ·) with hgain
    have hloss' : (l.length - l.countP (x ≤ ·)) * loss = deficit l x :=
      mul_div_cancel₀ _ hmissing.ne'
    have hgain' : l.countP (x ≤ ·) * gain = surplus l x := by
      by_cases hnone : l.countP (x ≤ ·) = 0
      · rw [surplus_eq_zero hnone, hnone, Nat.cast_zero, zero_mul]
      · exact mul_div_cancel₀ _ (Nat.cast_ne_zero.mpr hnone)
    have hpos : 0 < gain + loss :=
      add_pos_of_nonneg_of_pos (div_nonneg (surplus_nonneg l x) (Nat.cast_nonneg _))
        (div_pos hdeficit hmissing)
    rw [div_le_iff₀ hpos, ← hloss', ← hgain']
    constructor
    · intro h
      linarith
    · intro h
      linarith

end Mean

end OrderStatistics
