import Mathlib

/-!
# Shared value types

Identifiers, maps and JSON values used by every component. A UUID is its
128-bit value. `BTreeMap` is the extensional ordered map of the standard
library: iteration (`keys`, `values`, `toList`) goes by increasing key, and two
maps with the same entries are equal. A hash map whose entries are only read and
written by key is the same finite map.
-/

namespace InfinityOS

abbrev Uuid := BitVec 128

-- One name for each law of identifiers that definitions over maps refer to.
instance Uuid.instTransOrd : Std.TransOrd Uuid := inferInstance

instance Uuid.instLawfulBEq : LawfulBEq Uuid := inferInstance

abbrev TaskId := Uuid

abbrev DimensionId := Uuid

abbrev BTreeMap (κ ν : Type) [Ord κ] := Std.ExtTreeMap κ ν

abbrev HashMap (κ ν : Type) [Ord κ] := Std.ExtTreeMap κ ν

abbrev BTreeSet (κ : Type) [Ord κ] := Std.ExtTreeSet κ

/-- A JSON number as `serde_json` stores it; a float by its bit pattern. -/
inductive JsonNumber where
  | posInt (n : UInt64)
  | negInt (n : Int64)
  | float (bits : UInt64)
  deriving DecidableEq

/-- A JSON value; the members of an object are listed by increasing key. -/
inductive Json where
  | null
  | bool (b : Bool)
  | number (n : JsonNumber)
  | string (s : String)
  | array (items : List Json)
  | object (members : List (String × Json))

def saturatingAdd (a b : UInt64) : UInt64 :=
  if a.toNat + b.toNat < 2 ^ 64 then a + b else UInt64.ofNat (2 ^ 64 - 1)

def saturatingMul (a b : UInt64) : UInt64 :=
  if a.toNat * b.toNat < 2 ^ 64 then a * b else UInt64.ofNat (2 ^ 64 - 1)

/-- `u32::saturating_sub(1)`. -/
def saturatingPred (a : UInt32) : UInt32 :=
  if a = 0 then 0 else a - 1

/-- The `k`-th reading of the wall clock during one call. Successive readings
need not be related. -/
abbrev Clock := ℕ → UInt64

theorem toNat_saturatingMul (a b : UInt64) :
    (saturatingMul a b).toNat = min (a.toNat * b.toNat) (2 ^ 64 - 1) := by
  unfold saturatingMul
  split
  · next h => rw [UInt64.toNat_mul, Nat.mod_eq_of_lt h, min_eq_left (Nat.le_sub_one_of_lt h)]
  · next h =>
      rw [min_eq_right (by omega)]
      rfl

theorem toNat_saturatingPred (a : UInt32) :
    (saturatingPred a).toNat = a.toNat - 1 := by
  unfold saturatingPred
  split
  · next h => simp [h]
  · next h =>
      have hpos : a.toNat ≠ 0 := fun h0 => h (UInt32.toNat_inj.mp h0)
      have hle : (1 : UInt32) ≤ a := by
        rw [UInt32.le_iff_toNat_le]
        simpa using Nat.one_le_iff_ne_zero.mpr hpos
      rw [UInt32.toNat_sub_of_le _ _ hle]
      rfl

theorem toNat_add_one_of_lt {a b : UInt32} (h : a < b) :
    (a + 1).toNat = a.toNat + 1 := by
  have hab : a.toNat < b.toNat := UInt32.lt_iff_toNat_lt.mp h
  have hb : b.toNat < 2 ^ 32 := b.toNat_lt
  rw [UInt32.toNat_add]
  have h1 : (1 : UInt32).toNat = 1 := rfl
  omega

end InfinityOS
