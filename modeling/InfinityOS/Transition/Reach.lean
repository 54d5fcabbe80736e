import Mathlib

/-!
# Runs of a labelled transition relation

A component whose steps are not a function of its state is a relation
`step : σ → ℓ → σ → Prop`, where the label of a step holds what its environment
chooses. `Reach step P s t` says that `t` is reached from `s` by steps each of
which `P` admits in the state before it, and `Halts step s` that no run from `s` goes on
for ever.
-/

namespace Transition

variable {σ ℓ : Type*}

inductive Reach (step : σ → ℓ → σ → Prop) (P : σ → ℓ → Prop) (s : σ) : σ → Prop where
  | refl : Reach step P s s
  | tail {t u : σ} {a : ℓ} (h : Reach step P s t) (ha : P t a) (hstep : step t a u) :
      Reach step P s u

variable {step : σ → ℓ → σ → Prop} {P : σ → ℓ → Prop} {s t : σ}

/-- What holds at the start and is kept by every admitted step holds in every state
reached. -/
theorem Reach.invariant (h : Reach step P s t) (Inv : σ → Prop) (hs : Inv s)
    (hnext : ∀ t a u, Inv t → P t a → step t a u → Inv u) : Inv t := by
  induction h with
  | refl => exact hs
  | tail h ha hstep ih => exact hnext _ _ _ ih ha hstep

/-- A run is one of another relation that has its steps under other labels. -/
theorem Reach.map {ℓ' : Type*} {step' : σ → ℓ' → σ → Prop} {P' : σ → ℓ' → Prop}
    (h : Reach step P s t) (f : ℓ → ℓ') (hP : ∀ t a, P t a → P' t (f a))
    (hstep : ∀ t a u, step t a u → step' t (f a) u) : Reach step' P' s t := by
  induction h with
  | refl => exact .refl
  | tail _ ha hnext ih => exact ih.tail (hP _ _ ha) (hstep _ _ _ hnext)

/-- The state after the labels that can be taken, in order; the others are passed over. -/
def follow (step : σ → ℓ → Option σ) (s : σ) : List ℓ → σ
  | [] => s
  | a :: as => follow step ((step s a).getD s) as

theorem follow_append (step : σ → ℓ → Option σ) (s : σ) (as bs : List ℓ) :
    follow step s (as ++ bs) = follow step (follow step s as) bs := by
  induction as generalizing s with
  | nil => rfl
  | cons a as ih =>
      rw [List.cons_append, follow, follow, ih]

/-- Where one component runs inside another, its runs are runs of the other. -/
theorem follow_map {σ' ℓ' : Type*} {step : σ → ℓ → Option σ} {step' : σ' → ℓ' → Option σ'}
    (f : σ → σ') (g : ℓ → ℓ') (hstep : ∀ s a, step' (f s) (g a) = (step s a).map f)
    (s : σ) (as : List ℓ) : follow step' (f s) (as.map g) = f (follow step s as) := by
  induction as generalizing s with
  | nil => rfl
  | cons a as ih =>
      have hnext : (step' (f s) (g a)).getD (f s) = f ((step s a).getD s) := by
        rw [hstep]
        exact Option.getD_map f s (step s a)
      rw [List.map_cons, follow, follow, hnext, ih]

theorem reach_follow {step : σ → ℓ → Option σ}
    (h : Reach (fun s a t => step s a = some t) (fun _ _ => True) s t) (as : List ℓ) :
    Reach (fun s a t => step s a = some t) (fun _ _ => True) s (follow step t as) := by
  induction as generalizing t with
  | nil => exact h
  | cons a as ih =>
      apply ih
      cases hstep : step t a with
      | none => exact h
      | some u => exact h.tail trivial hstep

/-- Every label of the list is admitted in the state in which it is followed or passed
over. -/
def Admitted (step : σ → ℓ → Option σ) (P : σ → ℓ → Prop) : σ → List ℓ → Prop
  | _, [] => True
  | s, a :: as => P s a ∧ Admitted step P ((step s a).getD s) as

theorem admitted_append {step : σ → ℓ → Option σ} {P : σ → ℓ → Prop} {s : σ} {as bs : List ℓ} :
    Admitted step P s (as ++ bs) ↔
      Admitted step P s as ∧ Admitted step P (follow step s as) bs := by
  induction as generalizing s with
  | nil => simp [Admitted, follow]
  | cons a as ih =>
      rw [List.cons_append, Admitted, Admitted, follow, ih, and_assoc]

/-- Where the conditions agree in every state of an invariant, they admit the same runs. -/
theorem admitted_congr {step : σ → ℓ → Option σ} {P Q : σ → ℓ → Prop} (Inv : σ → Prop)
    (hkeep : ∀ s a t, Inv s → step s a = some t → Inv t)
    (hiff : ∀ s a, Inv s → (P s a ↔ Q s a)) {s : σ} (as : List ℓ) (hs : Inv s) :
    Admitted step P s as ↔ Admitted step Q s as := by
  induction as generalizing s with
  | nil => exact Iff.rfl
  | cons a as ih =>
      have hnext : Inv ((step s a).getD s) := by
        cases hstep : step s a with
        | none => exact hs
        | some t => exact hkeep s a t hs hstep
      exact and_congr (hiff s a hs) (ih hnext)

/-- `Admitted` for a test of the labels, as a test. -/
def accepts (step : σ → ℓ → Option σ) (p : σ → ℓ → Bool) : σ → List ℓ → Bool
  | _, [] => true
  | s, a :: as => p s a && accepts step p ((step s a).getD s) as

theorem admitted_of_accepts {step : σ → ℓ → Option σ} {p : σ → ℓ → Bool}
    (hp : ∀ s a, p s a = true → P s a) {as : List ℓ} (has : accepts step p t as = true) :
    Admitted step P t as := by
  induction as generalizing t with
  | nil => trivial
  | cons a as ih =>
      rw [accepts, Bool.and_eq_true] at has
      exact ⟨hp t a has.1, ih has.2⟩

theorem reach_follow_of_admitted {step : σ → ℓ → Option σ} {P : σ → ℓ → Prop}
    (h : Reach (fun s a t => step s a = some t) P s t) {as : List ℓ}
    (has : Admitted step P t as) :
    Reach (fun s a t => step s a = some t) P s (follow step t as) := by
  induction as generalizing t with
  | nil => exact h
  | cons a as ih =>
      apply ih _ has.2
      cases hstep : step t a with
      | none => exact h
      | some u => exact h.tail has.1 hstep

/-- Every run from `s` is finite. -/
def Halts (step : σ → ℓ → σ → Prop) (s : σ) : Prop :=
  Acc (fun t s => ∃ a, step s a t) s

/-- Every step goes down in a well-founded relation. -/
theorem halts_of_decreasing {β : Type*} {r : β → β → Prop} (hr : WellFounded r) (key : σ → β)
    (h : ∀ s a t, step s a t → r (key t) (key s)) (s : σ) : Halts step s := by
  have hwf : WellFounded (InvImage r key) := InvImage.wf key hr
  induction s using hwf.induction with
  | h s ih =>
      apply Acc.intro
      rintro t ⟨a, hstep⟩
      exact ih t (h s a t hstep)

end Transition
