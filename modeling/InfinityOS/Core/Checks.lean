import Mathlib

/-!
# Checks in a row

A loop that checks one element after the other and stops at the first error is
`List.forM` over `Except`. It passes if every check does, and fails with the error of the
first element whose check fails.
-/

namespace Checks

variable {ε α : Type}

@[simp] theorem forM_nil (f : α → Except ε Unit) : ([] : List α).forM f = .ok () := rfl

theorem forM_cons_ok {f : α → Except ε Unit} {a : α} (l : List α) (h : f a = .ok ()) :
    (a :: l).forM f = l.forM f := by
  change (f a >>= fun _ => l.forM f) = l.forM f
  rw [h]
  rfl

theorem forM_cons_error {f : α → Except ε Unit} {a : α} (l : List α) {e : ε}
    (h : f a = .error e) : (a :: l).forM f = .error e := by
  change (f a >>= fun _ => l.forM f) = .error e
  rw [h]
  rfl

theorem forM_eq_ok {f : α → Except ε Unit} {l : List α} :
    l.forM f = .ok () ↔ ∀ a ∈ l, f a = .ok () := by
  induction l with
  | nil => exact ⟨fun _ a ha => (List.not_mem_nil ha).elim, fun _ => rfl⟩
  | cons a l ih =>
      rw [List.forall_mem_cons, ← ih]
      cases hcheck : f a with
      | error e =>
          rw [forM_cons_error l hcheck]
          constructor
          · intro h
            cases h
          · rintro ⟨h, -⟩
            cases h
      | ok u => rw [forM_cons_ok l hcheck, and_iff_right rfl]

theorem exists_mapM_eq_ok {β : Type} {f : α → Except ε β} {l : List α} :
    (∃ bs, l.mapM f = .ok bs) ↔ ∀ a ∈ l, ∃ b, f a = .ok b := by
  induction l with
  | nil => exact ⟨fun _ a ha => (List.not_mem_nil ha).elim, fun _ => ⟨[], rfl⟩⟩
  | cons a l ih =>
      rw [List.forall_mem_cons, ← ih, List.mapM_cons]
      cases f a with
      | error e =>
          constructor
          · rintro ⟨bs, h⟩
            cases h
          · rintro ⟨⟨b, h⟩, -⟩
            cases h
      | ok b =>
          constructor
          · rintro ⟨bs, h⟩
            refine ⟨⟨b, rfl⟩, ?_⟩
            cases htail : l.mapM f with
            | error e =>
                rw [htail] at h
                cases h
            | ok bs => exact ⟨bs, rfl⟩
          · rintro ⟨-, bs, h⟩
            rw [h]
            exact ⟨b :: bs, rfl⟩

end Checks
