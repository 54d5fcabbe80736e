import Mathlib

/-!
# Registers under a watermark

Events with ranks arrive in some order. An event below the highest rank seen so far is
ignored, any other raises the watermark to its rank, and if it is one of those marked
`mine` its label is written to a register. The watermark is the highest rank in any order;
the register depends on the order, except where one marked event stands above all others.
-/

namespace Watermark

variable {ε α β : Type*} [LinearOrder α] (rank : ε → α) (mine : ε → Prop) [DecidablePred mine]
  (label : ε → β)

/-- The watermark and the register after an event. -/
def step (s : α × Option β) (e : ε) : α × Option β :=
  if s.1 ≤ rank e then (rank e, if mine e then some (label e) else s.2) else s

variable {rank mine label} {s : α × Option β} {e : ε}

theorem fst_step (s : α × Option β) (e : ε) :
    (step rank mine label s e).1 = max s.1 (rank e) := by
  unfold step
  split
  · next h => exact (max_eq_right h).symm
  · next h => exact (max_eq_left (le_of_not_ge h)).symm

theorem step_of_lt (h : rank e < s.1) : step rank mine label s e = s :=
  if_neg (not_le.mpr h)

theorem step_of_mine (h : s.1 ≤ rank e) (hmine : mine e) :
    step rank mine label s e = (rank e, some (label e)) := by
  rw [step, if_pos h, if_pos hmine]

theorem snd_step_of_not_mine (hmine : ¬ mine e) : (step rank mine label s e).2 = s.2 := by
  by_cases h : s.1 ≤ rank e
  · rw [step, if_pos h, if_neg hmine]
  · rw [step, if_neg h]

/-! ## The watermark -/

theorem fst_foldl (l : List ε) (s : α × Option β) :
    (l.foldl (step rank mine label) s).1 = (l.map rank).foldl max s.1 := by
  induction l generalizing s with
  | nil => rfl
  | cons e l ih => rw [List.foldl_cons, ih, fst_step, List.map_cons, List.foldl_cons]

theorem fst_foldl_perm {l l' : List ε} (h : l.Perm l') (s : α × Option β) :
    (l.foldl (step rank mine label) s).1 = (l'.foldl (step rank mine label) s).1 := by
  rw [fst_foldl, fst_foldl]
  exact (h.map rank).foldl_eq' (fun a _ b _ c => max_right_comm c a b) s.1

theorem fst_foldl_le {l : List ε} {a : α} (hs : s.1 ≤ a) (hl : ∀ e ∈ l, rank e ≤ a) :
    (l.foldl (step rank mine label) s).1 ≤ a := by
  induction l generalizing s with
  | nil => exact hs
  | cons e l ih =>
      apply ih
      · rw [fst_step]
        exact max_le hs (hl e List.mem_cons_self)
      · exact fun e' he' => hl e' (List.mem_cons_of_mem e he')

/-! ## The register -/

theorem snd_foldl_of_lt {l : List ε} (h : ∀ e ∈ l, mine e → rank e < s.1) :
    (l.foldl (step rank mine label) s).2 = s.2 := by
  induction l generalizing s with
  | nil => rfl
  | cons e l ih =>
      have hhead : (step rank mine label s e).2 = s.2 := by
        by_cases hmine : mine e
        · rw [step_of_lt (h e List.mem_cons_self hmine)]
        · exact snd_step_of_not_mine hmine
      rw [List.foldl_cons, ih, hhead]
      intro e' he' hmine
      rw [fst_step]
      exact lt_max_of_lt_left (h e' (List.mem_cons_of_mem e he') hmine)

theorem isSome_snd_foldl (l : List ε) (hs : s.2.isSome) :
    (l.foldl (step rank mine label) s).2.isSome := by
  induction l generalizing s with
  | nil => exact hs
  | cons e l ih =>
      apply ih
      unfold step
      split
      · split
        · rfl
        · exact hs
      · exact hs

/-- A marked event that no event before it outranks and that outranks every marked event
behind it is the one in the register. -/
theorem snd_foldl_eq_some {l₁ l₂ : List ε} (hs : s.1 ≤ rank e) (hmine : mine e)
    (hl₁ : ∀ e' ∈ l₁, rank e' ≤ rank e) (hl₂ : ∀ e' ∈ l₂, mine e' → rank e' < rank e) :
    ((l₁ ++ e :: l₂).foldl (step rank mine label) s).2 = some (label e) := by
  rw [List.foldl_append, List.foldl_cons, step_of_mine (fst_foldl_le hs hl₁) hmine,
    snd_foldl_of_lt hl₂]

end Watermark
