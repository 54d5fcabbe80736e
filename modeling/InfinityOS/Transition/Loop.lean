import Mathlib

/-!
# Unbounded loops

One round of a loop is a function `round : σ → ρ ⊕ σ`: it either leaves the loop
with a result or gives the state of the next round. `run round fuel s` makes at
most `fuel` rounds. The loop ends with `r` when enough fuel gives `r`; the rules
below replace the count of rounds.
-/

namespace Loop

variable {σ ρ : Type*}

/-- The result of a loop that leaves within `fuel` rounds. -/
def run (round : σ → ρ ⊕ σ) : ℕ → σ → Option ρ
  | 0, _ => none
  | fuel + 1, s =>
      match round s with
      | .inl r => some r
      | .inr s' => run round fuel s'

/-- The loop leaves with the result `r`. -/
def Ends (round : σ → ρ ⊕ σ) (s : σ) (r : ρ) : Prop :=
  ∃ fuel, run round fuel s = some r

variable {round : σ → ρ ⊕ σ} {s s' : σ} {r r' : ρ}

/-- A loop that leaves in this round. -/
theorem ends_of_inl (h : round s = .inl r) : Ends round s r' ↔ r' = r := by
  constructor
  · rintro ⟨fuel, hrun⟩
    cases fuel with
    | zero => cases hrun
    | succ fuel =>
        rw [run, h] at hrun
        exact (Option.some.inj hrun).symm
  · rintro rfl
    refine ⟨1, ?_⟩
    rw [run, h]

/-- A loop that goes on. -/
theorem ends_of_inr (h : round s = .inr s') : Ends round s r ↔ Ends round s' r := by
  constructor
  · rintro ⟨fuel, hrun⟩
    cases fuel with
    | zero => cases hrun
    | succ fuel =>
        rw [run, h] at hrun
        exact ⟨fuel, hrun⟩
  · rintro ⟨fuel, hrun⟩
    refine ⟨fuel + 1, ?_⟩
    rw [run, h]
    exact hrun

/-- What every round keeps holds in the round that leaves. -/
theorem Ends.invariant (h : Ends round s r) (Inv : σ → Prop) (Q : ρ → Prop) (hs : Inv s)
    (hnext : ∀ s s', Inv s → round s = .inr s' → Inv s')
    (hleave : ∀ s r, Inv s → round s = .inl r → Q r) : Q r := by
  obtain ⟨fuel, hrun⟩ := h
  induction fuel generalizing s with
  | zero => cases hrun
  | succ fuel ih =>
      rw [run] at hrun
      cases hround : round s with
      | inl r' =>
          rw [hround] at hrun
          cases hrun
          exact hleave s _ hs hround
      | inr s' =>
          rw [hround] at hrun
          exact ih (hnext s s' hs hround) hrun

/-- A loop in which every round goes on never leaves. -/
theorem run_eq_none (Inv : σ → Prop) (hs : Inv s)
    (hnext : ∀ s, Inv s → ∃ s', round s = .inr s' ∧ Inv s') (fuel : ℕ) :
    run round fuel s = none := by
  induction fuel generalizing s with
  | zero => rfl
  | succ fuel ih =>
      obtain ⟨s', hround, hs'⟩ := hnext s hs
      rw [run, hround]
      exact ih hs'

end Loop
