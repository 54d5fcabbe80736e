import Mathlib

/-!
# Arithmetic with numbers that may be rounded

What a program does with its numbers: the four operations, decimal literals, comparisons, an order
for sorting and the way to and from the natural numbers. No law is assumed, so what is proved of a
program here holds however its machine rounds. The rational numbers compute exactly; `Float`
computes with numbers of 64 bits.
-/

/-- A type of numbers. -/
class Arithmetic (F : Type) extends Add F, Sub F, Mul F, Div F, OfScientific F, LE F, LT F,
    BEq F where
  [decLE : DecidableLE F]
  [decLT : DecidableLT F]
  ofNat : ℕ → F
  /-- The larger one of two numbers, and the other one where one is no number. -/
  larger : F → F → F
  /-- A total order, in which no two different numbers are equal. -/
  totalLe : F → F → Bool
  /-- The nearest natural number, the upper one of two that are as near. -/
  nearest : F → ℕ

namespace Arithmetic

attribute [reducible, instance] decLE decLT

instance : Arithmetic ℚ where
  ofNat := Nat.cast
  larger := max
  totalLe x y := decide (x ≤ y)
  nearest x := (round x).toNat

/-- The bits of a number, in the order of `f64::total_cmp`: those of a negative one are flipped,
all but the sign. -/
def orderedBits (x : Float) : Int64 :=
  if x.toBits < 2 ^ 63 then x.toBits.toInt64 else (x.toBits ^^^ (2 ^ 63 - 1)).toInt64

instance : Arithmetic Float where
  ofNat := Float.ofNat
  larger x y := if y ≤ x ∨ y.isNaN then x else y
  totalLe x y := decide (orderedBits x ≤ orderedBits y)
  nearest x :=
    let whole := x.toUInt64
    if 0.5 ≤ x - whole.toFloat then whole.toNat + 1 else whole.toNat

variable {F : Type} [Arithmetic F]

/-- The number between 0 and 1 that is nearest to another one. -/
def clamp (x : F) : F :=
  if x < 0.0 then 0.0 else if 1.0 < x then 1.0 else x

/-- The sum of a list, from the left. -/
def sum (l : List F) : F :=
  l.foldl (· + ·) 0.0

def mean (l : List F) : F :=
  sum l / ofNat l.length

/-! ## The exact arithmetic -/

theorem ratZero : (0.0 : ℚ) = 0 := by
  norm_num

theorem ratOne : (1.0 : ℚ) = 1 := by
  norm_num

theorem clamp_nonneg (x : ℚ) : 0 ≤ clamp x := by
  unfold clamp
  rw [ratZero, ratOne]
  split_ifs with h
  · exact le_rfl
  · exact zero_le_one
  · exact not_lt.mp h

theorem clamp_le_one (x : ℚ) : clamp x ≤ 1 := by
  unfold clamp
  rw [ratZero, ratOne]
  split_ifs with h h'
  · exact zero_le_one
  · exact le_rfl
  · exact not_lt.mp h'

theorem sum_eq (l : List ℚ) : sum l = l.sum := by
  unfold sum
  rw [ratZero, List.sum_eq_foldl]

theorem mean_eq (l : List ℚ) : mean l = l.sum / l.length := by
  unfold mean
  rw [sum_eq]
  rfl

end Arithmetic
