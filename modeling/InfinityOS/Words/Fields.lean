import InfinityOS.Words.Align

/-!
# Fields of a machine word

The low bits of a word under a mask, the word with its low bits cleared, and two
words without a common bit joined by `or`, as numbers.
-/

namespace Words

variable {w : ℕ}

theorem toNat_and_low {n : ℕ} {m : BitVec w} (hm : m.toNat = 2 ^ n - 1) (x : BitVec w) :
    (x &&& m).toNat = x.toNat % 2 ^ n := by
  rw [BitVec.toNat_and, hm, Nat.and_two_pow_sub_one_eq_mod]

theorem toNat_and_high {n : ℕ} {m : BitVec w} (hm : m.toNat = 2 ^ n - 1) (x : BitVec w) :
    (x &&& ~~~m).toNat = x.toNat - x.toNat % 2 ^ n := by
  have hle : x &&& m ≤ x := by
    rw [BitVec.le_def, toNat_and_low hm]
    exact Nat.mod_le _ _
  rw [and_not_mask, BitVec.toNat_sub_of_le hle, toNat_and_low hm]

theorem toNat_or_of_disjoint {x y : BitVec w} (h : x &&& y = 0) (hlt : x.toNat + y.toNat < 2 ^ w) :
    (x ||| y).toNat = x.toNat + y.toNat := by
  rw [← BitVec.add_eq_or_of_and_eq_zero x y h, BitVec.toNat_add, Nat.mod_eq_of_lt hlt]

theorem toNat_add_mod_two_pow {k : ℕ} (hk : k ≤ w) (x y : BitVec w) :
    (x + y).toNat % 2 ^ k = (x.toNat + y.toNat) % 2 ^ k := by
  rw [BitVec.toNat_add, Nat.mod_mod_of_dvd _ (Nat.pow_dvd_pow 2 hk)]

end Words
