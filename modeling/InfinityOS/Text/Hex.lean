import Mathlib

/-!
# Hexadecimal numerals

A numeral is read from its highest digit on, in either case of the letters. What is written
with a given number of digits, zeros in front, reads as the number that was written.
-/

namespace Text

/-- The value of a digit in either case; other characters have none. -/
def hexValue? (c : Char) : Option ℕ :=
  if '0' ≤ c ∧ c ≤ '9' then some (c.toNat - '0'.toNat)
  else if 'a' ≤ c ∧ c ≤ 'f' then some (c.toNat - 'a'.toNat + 10)
  else if 'A' ≤ c ∧ c ≤ 'F' then some (c.toNat - 'A'.toNat + 10)
  else none

def IsHex (c : Char) : Prop :=
  (hexValue? c).isSome

instance (c : Char) : Decidable (IsHex c) :=
  inferInstanceAs (Decidable (_ = true))

/-- The number that the digits are in base 16. -/
def hexNumber (s : List Char) : ℕ :=
  s.foldl (fun n c => 16 * n + (hexValue? c).getD 0) 0

/-- The digits of a number with zeros in front up to a width (`%0wx`). -/
def paddedHex (width n : ℕ) : List Char :=
  List.leftpad width '0' (Nat.toDigits 16 n)

theorem hexValue?_digitChar {d : ℕ} (hd : d < 16) : hexValue? d.digitChar = some d := by
  have hall : ∀ d < 16, hexValue? (Nat.digitChar d) = some d := by decide
  exact hall d hd

theorem isHex_digitChar {d : ℕ} (hd : d < 16) : IsHex d.digitChar := by
  rw [IsHex, hexValue?_digitChar hd]
  rfl

theorem hexNumber_append (s t : List Char) :
    hexNumber (s ++ t) = hexNumber s * 16 ^ t.length + hexNumber t := by
  induction t using List.reverseRecOn with
  | nil => simp [hexNumber]
  | append_singleton t c ih =>
      have hsnoc : ∀ l : List Char,
          hexNumber (l ++ [c]) = 16 * hexNumber l + (hexValue? c).getD 0 := by
        intro l
        rw [hexNumber, List.foldl_append]
        rfl
      rw [← List.append_assoc, hsnoc, hsnoc, ih, List.length_append, List.length_singleton]
      ring

theorem hexNumber_replicate_zero (n : ℕ) : hexNumber (List.replicate n '0') = 0 := by
  induction n with
  | zero => rfl
  | succ n ih =>
      rw [List.replicate_succ', hexNumber_append, ih]
      rfl

theorem hexNumber_toDigits (n : ℕ) : hexNumber (Nat.toDigits 16 n) = n := by
  induction n using Nat.strongRecOn with
  | ind n ih =>
      have hdigit : ∀ d < 16, hexNumber [Nat.digitChar d] = d := by decide
      by_cases hlt : n < 16
      · rw [Nat.toDigits_of_lt_base hlt, hdigit n hlt]
      · have hmod := hdigit (n % 16) (Nat.mod_lt _ (by decide))
        rw [Nat.toDigits_of_base_le (by decide) (not_lt.mp hlt), hexNumber_append,
          ih (n / 16) (by omega), hmod, List.length_singleton]
        omega

theorem isHex_of_mem_toDigits {n : ℕ} {c : Char} (h : c ∈ Nat.toDigits 16 n) : IsHex c := by
  induction n using Nat.strongRecOn with
  | ind n ih =>
      by_cases hlt : n < 16
      · rw [Nat.toDigits_of_lt_base hlt, List.mem_singleton] at h
        rw [h]
        exact isHex_digitChar hlt
      · rw [Nat.toDigits_of_base_le (by decide) (not_lt.mp hlt), List.mem_append,
          List.mem_singleton] at h
        rcases h with h | rfl
        · exact ih (n / 16) (by omega) h
        · exact isHex_digitChar (Nat.mod_lt _ (by decide))

/-! ## Numerals of one width -/

theorem length_paddedHex {width n : ℕ} (hwidth : 0 < width) (hn : n < 16 ^ width) :
    (paddedHex width n).length = width := by
  have hlength := (Nat.length_toDigits_le_iff (by decide) hwidth).mpr hn
  rw [paddedHex, List.leftpad, List.length_append, List.length_replicate]
  omega

theorem hexNumber_paddedHex (width n : ℕ) : hexNumber (paddedHex width n) = n := by
  rw [paddedHex, List.leftpad, hexNumber_append, hexNumber_replicate_zero, hexNumber_toDigits,
    Nat.zero_mul, Nat.zero_add]

theorem isHex_of_mem_paddedHex {width n : ℕ} {c : Char} (h : c ∈ paddedHex width n) :
    IsHex c := by
  rw [paddedHex, List.leftpad, List.mem_append] at h
  rcases h with h | h
  · rw [List.eq_of_mem_replicate h]
    decide
  · exact isHex_of_mem_toDigits h

end Text
