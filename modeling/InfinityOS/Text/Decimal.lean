import Mathlib

/-!
# Decimal numerals

The texts of digits that `Nat.toDigits` writes are those without a superfluous zero in front:
any other text of digits has a value too, which is written in another way.
-/

namespace Text

/-- A zero in front of another digit. -/
def Padded (s : List Char) : Prop :=
  s.head? = some '0' ∧ 2 ≤ s.length

theorem digitChar_of_isDigit {c : Char} (hc : c.isDigit = true) :
    c.toNat - 48 < 10 ∧ (c.toNat - 48).digitChar = c := by
  have hbounds : 48 ≤ c.toNat ∧ c.toNat ≤ 57 := by
    simp only [Char.isDigit, ge_iff_le, Bool.and_eq_true, decide_eq_true_eq,
      UInt32.le_iff_toNat_le] at hc
    exact hc
  refine ⟨by omega, ?_⟩
  have hall : ∀ n : Fin 58, 48 ≤ n.val → (n.val - 48).digitChar = Char.ofNat n.val := by
    decide
  have hdigit := hall ⟨c.toNat, by omega⟩ hbounds.1
  rwa [Char.ofNat_toNat] at hdigit

theorem head?_toDigits {n : ℕ} (hn : 0 < n) : (Nat.toDigits 10 n).head? ≠ some '0' := by
  induction n using Nat.strongRecOn with
  | ind n ih =>
      by_cases hlt : n < 10
      · rw [Nat.toDigits_of_lt_base hlt]
        simpa using hn.ne'
      · rw [Nat.toDigits_of_base_le (by norm_num) (not_lt.mp hlt),
          List.head?_append_of_ne_nil _ Nat.toDigits_ne_nil]
        exact ih (n / 10) (by omega) (by omega)

theorem not_padded_toDigits (n : ℕ) : ¬ Padded (Nat.toDigits 10 n) := by
  rintro ⟨hhead, hlength⟩
  rcases Nat.eq_zero_or_pos n with rfl | hn
  · rw [Nat.toDigits_zero] at hlength
    exact absurd hlength (by decide)
  · exact head?_toDigits hn hhead

theorem toDigits_ofDigitChars {s : List Char} (hne : s ≠ []) (hdigits : ∀ c ∈ s, c.isDigit = true)
    (hs : ¬ Padded s) : Nat.toDigits 10 (Nat.ofDigitChars 10 s 0) = s := by
  induction s using List.reverseRecOn with
  | nil => exact absurd rfl hne
  | append_singleton s c ih =>
      obtain ⟨hlt, hchar⟩ := digitChar_of_isDigit (hdigits c (by simp))
      have hvalue : Nat.ofDigitChars 10 (s ++ [c]) 0 =
          10 * Nat.ofDigitChars 10 s 0 + (c.toNat - 48) := by
        rw [Nat.ofDigitChars_append, Nat.ofDigitChars_cons, Nat.ofDigitChars_nil]
        rfl
      have hlast : Nat.toDigits 10 (c.toNat - 48) = [c] := by
        rw [Nat.toDigits_of_lt_base hlt, hchar]
      rw [hvalue]
      by_cases hnil : s = []
      · rw [hnil, Nat.ofDigitChars_nil, Nat.mul_zero, Nat.zero_add, hlast, List.nil_append]
      · -- the digits in front begin with no zero at all
        have hhead : s.head? ≠ some '0' := by
          intro hzero
          refine hs ⟨?_, ?_⟩
          · rw [List.head?_append_of_ne_nil s hnil, hzero]
          · have hpos := List.length_pos_iff.mpr hnil
            rw [List.length_append, List.length_singleton]
            omega
        have hih := ih hnil (fun d hd => hdigits d (List.mem_append_left _ hd))
          fun hpadded => hhead hpadded.1
        have hpos : 0 < Nat.ofDigitChars 10 s 0 := by
          apply Nat.pos_of_ne_zero
          intro hzero
          rw [hzero, Nat.toDigits_zero] at hih
          exact hhead (by rw [← hih, List.head?_cons])
        rw [← Nat.toDigits_append_toDigits (by norm_num) hpos hlt, hih, hlast]

theorem toDigits_ofDigitChars_iff {s : List Char} (hne : s ≠ [])
    (hdigits : ∀ c ∈ s, c.isDigit = true) :
    Nat.toDigits 10 (Nat.ofDigitChars 10 s 0) = s ↔ ¬ Padded s := by
  constructor
  · intro h
    rw [← h]
    exact not_padded_toDigits _
  · exact toDigits_ofDigitChars hne hdigits

end Text
