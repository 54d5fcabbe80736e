import Mathlib

/-!
# Rounding a machine word up to a power of two

`alignUp p a` is the usual mask expression for the next multiple of `a` from `p`
on, and `padding p a` what it adds to `p`, both modulo `2 ^ w`. For a power of
two the padding is the distance from `p` to the next multiple, also where the
sum wraps around.
-/

namespace Words

variable {w : ℕ}

def alignUp (p a : BitVec w) : BitVec w :=
  (p + a - 1) &&& ~~~(a - 1)

def padding (p a : BitVec w) : BitVec w :=
  alignUp p a - p

theorem and_not_mask (x m : BitVec w) : x &&& ~~~m = x - (x &&& m) := by
  have hdisjoint : (x &&& ~~~m) &&& (x &&& m) = 0 := by
    ext i
    simp
    grind
  have hsplit : (x &&& ~~~m) ||| (x &&& m) = x := by
    ext i
    simp
    grind
  rw [BitVec.eq_sub_iff_add_eq, BitVec.add_eq_or_of_and_eq_zero _ _ hdisjoint, hsplit]

theorem toNat_one_of_pos (hw : 0 < w) : (1 : BitVec w).toNat = 1 := by
  rw [BitVec.ofNat_eq_ofNat, BitVec.toNat_ofNat,
    Nat.mod_eq_of_lt (Nat.one_lt_two_pow hw.ne')]

theorem toNat_sub_one {a : BitVec w} (ha : a.toNat ≠ 0) : (a - 1).toNat = a.toNat - 1 := by
  have hw : 0 < w := by
    cases w with
    | zero => exact absurd (Nat.lt_one_iff.mp a.isLt) ha
    | succ w => exact Nat.succ_pos w
  have hone := toNat_one_of_pos hw
  have hle : (1 : BitVec w) ≤ a := by
    rw [BitVec.le_def, hone]
    omega
  rw [BitVec.toNat_sub_of_le hle, hone]

theorem exists_twoPow_iff (a : BitVec w) :
    (∃ k < w, a = BitVec.twoPow w k) ↔ a ≠ 0 ∧ a &&& (a - 1) = 0 := by
  have hmask : a.toNat ≠ 0 → (a &&& (a - 1) = 0 ↔ ∃ k, a.toNat = 2 ^ k) := by
    intro ha
    rw [← BitVec.toNat_inj, BitVec.toNat_and, toNat_sub_one ha]
    exact Nat.and_sub_one_eq_zero_iff_isPowerOfTwo ha
  have hne : a ≠ 0 ↔ a.toNat ≠ 0 := by
    rw [ne_eq, ← BitVec.toNat_inj]
    rfl
  rw [hne]
  constructor
  · rintro ⟨k, hk, rfl⟩
    have hnat : (BitVec.twoPow w k).toNat = 2 ^ k := BitVec.toNat_twoPow_of_lt hk
    have hpos : (BitVec.twoPow w k).toNat ≠ 0 := by
      rw [hnat]
      positivity
    exact ⟨hpos, (hmask hpos).mpr ⟨k, hnat⟩⟩
  · rintro ⟨hpos, hzero⟩
    obtain ⟨k, hk⟩ := (hmask hpos).mp hzero
    have hlt : k < w := by
      apply (Nat.pow_lt_pow_iff_right (by omega : 1 < 2)).mp
      rw [← hk]
      exact a.isLt
    refine ⟨k, hlt, BitVec.eq_of_toNat_eq ?_⟩
    rw [hk, BitVec.toNat_twoPow_of_lt hlt]

theorem sub_residue_eq {n : ℕ} (hn : 0 < n) (p : ℕ) :
    n - 1 - (p + (n - 1)) % n = (n - p % n) % n := by
  have hlt : p % n < n := Nat.mod_lt p hn
  rw [← Nat.mod_add_mod p n (n - 1)]
  generalize p % n = r at hlt
  rcases Nat.eq_zero_or_pos r with rfl | hpos
  · rw [Nat.zero_add, Nat.mod_eq_of_lt (by omega), Nat.sub_self, Nat.sub_zero, Nat.mod_self]
  · have hwrap : r + (n - 1) = r - 1 + n := by
      omega
    rw [hwrap, Nat.add_mod_right, Nat.mod_eq_of_lt (by omega), Nat.mod_eq_of_lt (by omega)]
    omega

theorem toNat_padding {k : ℕ} (hk : k < w) (p : BitVec w) :
    (padding p (BitVec.twoPow w k)).toNat = (2 ^ k - p.toNat % 2 ^ k) % 2 ^ k := by
  have hnat : (BitVec.twoPow w k).toNat = 2 ^ k := BitVec.toNat_twoPow_of_lt hk
  have hpos : 0 < 2 ^ k := Nat.two_pow_pos k
  have hlt : 2 ^ k < 2 ^ w := Nat.pow_lt_pow_right (by omega) hk
  have hmask : (BitVec.twoPow w k - 1).toNat = 2 ^ k - 1 := by
    rw [toNat_sub_one (by omega), hnat]
  -- the sum is cut off at `2 ^ w`, a multiple of `2 ^ k`
  have hsum : (p + BitVec.twoPow w k - 1).toNat % 2 ^ k = (p.toNat + (2 ^ k - 1)) % 2 ^ k := by
    have hassoc : p + BitVec.twoPow w k - 1 = p + (BitVec.twoPow w k - 1) := by
      rw [BitVec.sub_eq_add_neg, BitVec.add_assoc, ← BitVec.sub_eq_add_neg]
    rw [hassoc, BitVec.toNat_add, hmask, Nat.mod_mod_of_dvd _ (Nat.pow_dvd_pow 2 hk.le)]
  have hlow : ((p + BitVec.twoPow w k - 1) &&& (BitVec.twoPow w k - 1)).toNat =
      (p.toNat + (2 ^ k - 1)) % 2 ^ k := by
    rw [BitVec.toNat_and, hmask, Nat.and_two_pow_sub_one_eq_mod, hsum]
  have hpad : padding p (BitVec.twoPow w k) = (BitVec.twoPow w k - 1) -
      ((p + BitVec.twoPow w k - 1) &&& (BitVec.twoPow w k - 1)) := by
    rw [padding, alignUp, and_not_mask]
    generalize (p + BitVec.twoPow w k - 1) &&& (BitVec.twoPow w k - 1) = low
    generalize BitVec.twoPow w k = a
    ring
  have hle : (p.toNat + (2 ^ k - 1)) % 2 ^ k ≤ 2 ^ k - 1 :=
    Nat.le_sub_one_of_lt (Nat.mod_lt _ hpos)
  rw [hpad, BitVec.toNat_sub_of_le, hmask, hlow]
  · exact sub_residue_eq hpos p.toNat
  · rw [BitVec.le_def, hmask, hlow]
    exact hle

section TwoPow

variable {k : ℕ} (hk : k < w) (p : BitVec w)

include hk

theorem padding_lt : (padding p (BitVec.twoPow w k)).toNat < 2 ^ k := by
  rw [toNat_padding hk]
  exact Nat.mod_lt _ (Nat.two_pow_pos k)

theorem dvd_add_padding : 2 ^ k ∣ p.toNat + (padding p (BitVec.twoPow w k)).toNat := by
  rw [toNat_padding hk]
  apply Nat.dvd_of_mod_eq_zero
  rw [Nat.add_mod_mod, ← Nat.mod_add_mod,
    Nat.add_sub_cancel' (Nat.mod_lt _ (Nat.two_pow_pos k)).le, Nat.mod_self]

end TwoPow

end Words
