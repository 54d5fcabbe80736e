import Mathlib

/-!
# Chunks and groups of six bits

A list is cut from its front into chunks of one length, the last of which may be shorter.
Octets are read three at a time as four sextets. A last group of one or two octets gives one
sextet more than it has octets, and the low bits that are left over are zero. Sextets are
read back four at a time; what comes from octets is exactly what has no dangling sextet and
no bit that is left over.
-/

namespace Text

section Chunks

variable {α : Type*} {n : ℕ}

/-- The chunks of length `n` (`slice::chunks`). -/
def chunks (n : ℕ) (l : List α) : List (List α) :=
  (List.range ((l.length + n - 1) / n)).map fun k => (l.drop (n * k)).take n

theorem chunks_nil (hn : 0 < n) : chunks n ([] : List α) = [] := by
  rw [chunks, List.length_nil, Nat.div_eq_of_lt (by omega), List.range_zero, List.map_nil]

theorem length_chunks_drop (hn : 0 < n) {l : List α} (hl : l ≠ []) :
    (l.length + n - 1) / n = ((l.drop n).length + n - 1) / n + 1 := by
  have hpos := List.length_pos_iff.mpr hl
  rw [List.length_drop]
  by_cases hle : n ≤ l.length
  · rw [← Nat.add_div_right _ hn]
    congr 1
    omega
  · have hone : l.length + n - 1 = l.length - 1 + n := by omega
    rw [hone, Nat.add_div_right _ hn, Nat.div_eq_of_lt (by omega), Nat.div_eq_of_lt (by omega)]

theorem chunks_of_ne_nil (hn : 0 < n) {l : List α} (hl : l ≠ []) :
    chunks n l = l.take n :: chunks n (l.drop n) := by
  rw [chunks, length_chunks_drop hn hl, List.range_succ_eq_map, List.map_cons, List.map_map,
    Nat.mul_zero, List.drop_zero, chunks]
  congr 2
  funext k
  rw [Function.comp_apply, List.drop_drop, Nat.mul_succ, Nat.add_comm]

/-- Induction over the chunks of a list. -/
@[elab_as_elim]
theorem chunk_induction {motive : List α → Prop} (hn : 0 < n) (nil : motive [])
    (chunk : ∀ l, l ≠ [] → motive (l.drop n) → motive l) (l : List α) : motive l := by
  induction hlen : l.length using Nat.strongRecOn generalizing l with
  | ind m ih =>
      subst hlen
      by_cases hl : l = []
      · rw [hl]
        exact nil
      · have hpos := List.length_pos_iff.mpr hl
        exact chunk l hl (ih (l.drop n).length (by rw [List.length_drop]; omega) (l.drop n) rfl)

end Chunks

namespace Base64

def sextet (n : ℕ) : Fin 64 := Fin.ofNat 64 n

@[simp]
theorem val_sextet (n : ℕ) : (sextet n).val = n % 64 := rfl

/-- The sextets of octets, the highest bits first. -/
def sextets : List UInt8 → List (Fin 64)
  | [] => []
  | [a] => [sextet (a.toNat / 4), sextet (a.toNat % 4 * 16)]
  | [a, b] => [sextet (a.toNat / 4), sextet (a.toNat % 4 * 16 + b.toNat / 16),
      sextet (b.toNat % 16 * 4)]
  | a :: b :: c :: rest =>
      sextet (a.toNat / 4) :: sextet (a.toNat % 4 * 16 + b.toNat / 16) ::
        sextet (b.toNat % 16 * 4 + c.toNat / 64) :: sextet (c.toNat % 64) :: sextets rest

/-- The octets of sextets. A dangling sextet gives an octet whose two low bits are zero, and
the bits of a last sextet that fill no octet are dropped. -/
def octets : List (Fin 64) → List UInt8
  | [] => []
  | [p] => [.ofNat (p.val * 4)]
  | [p, q] => [.ofNat (p.val * 4 + q.val / 16)]
  | [p, q, r] => [.ofNat (p.val * 4 + q.val / 16), .ofNat (q.val % 16 * 16 + r.val / 4)]
  | p :: q :: r :: s :: rest =>
      .ofNat (p.val * 4 + q.val / 16) :: .ofNat (q.val % 16 * 16 + r.val / 4) ::
        .ofNat (r.val % 4 * 64 + s.val) :: octets rest

/-- No sextet dangles and no bit is left over. -/
def Whole : List (Fin 64) → Prop
  | [] => True
  | [_] => False
  | [_, q] => q.val % 16 = 0
  | [_, _, r] => r.val % 4 = 0
  | _ :: _ :: _ :: _ :: rest => Whole rest

instance Whole.decidable : (l : List (Fin 64)) → Decidable (Whole l)
  | [] => inferInstanceAs (Decidable True)
  | [_] => inferInstanceAs (Decidable False)
  | [_, q] => inferInstanceAs (Decidable (q.val % 16 = 0))
  | [_, _, r] => inferInstanceAs (Decidable (r.val % 4 = 0))
  | _ :: _ :: _ :: _ :: rest => Whole.decidable rest

/-- The characters that fill up the last group of the text of `n` octets. -/
def padding (n : ℕ) : ℕ :=
  (3 - n % 3) % 3

theorem padding_add_three (n : ℕ) : padding (n + 3) = padding n := by
  rw [padding, padding, Nat.add_mod_right]

theorem sextets_take_append_drop (b : List UInt8) :
    sextets (b.take 3) ++ sextets (b.drop 3) = sextets b := by
  cases b using sextets.fun_cases with
  | case1 => rfl
  | case2 a => rfl
  | case3 a b => rfl
  | case4 a b c rest => rfl

theorem octets_take_append_drop (l : List (Fin 64)) :
    octets (l.take 4) ++ octets (l.drop 4) = octets l := by
  cases l using octets.fun_cases with
  | case1 => rfl
  | case2 p => rfl
  | case3 p q => rfl
  | case4 p q r => rfl
  | case5 p q r s rest => rfl

/-! ## Bits side by side -/

theorem toNat_shiftLeft_or {x y k : UInt8} (hk : k.toNat < 8) (hy : y.toNat < 2 ^ k.toNat) :
    (x <<< k ||| y).toNat = x.toNat * 2 ^ k.toNat % 256 + y.toNat := by
  have hsplit : 2 ^ 8 = 2 ^ k.toNat * 2 ^ (8 - k.toNat) := by
    rw [← Nat.pow_add]
    congr 1
    omega
  have hhigh : x.toNat * 2 ^ k.toNat % 256 = 2 ^ k.toNat * (x.toNat % 2 ^ (8 - k.toNat)) := by
    rw [show 256 = 2 ^ 8 from rfl, hsplit, Nat.mul_comm, Nat.mul_mod_mul_left]
  rw [UInt8.toNat_or, UInt8.toNat_shiftLeft, Nat.mod_eq_of_lt hk, Nat.shiftLeft_eq,
    show 2 ^ 8 = 256 from rfl, hhigh, Nat.two_pow_add_eq_or_of_lt hy]

/-! ## There and back -/

section Octets

variable (a b c : UInt8) {x : ℕ}

theorem first_octet (hx : x < 16) :
    UInt8.ofNat (a.toNat / 4 % 64 * 4 + (a.toNat % 4 * 16 + x) % 64 / 16) = a := by
  have ha := a.toNat_lt
  rw [← UInt8.toNat_inj, UInt8.toNat_ofNat']
  omega

theorem second_octet (hx : x < 4) :
    UInt8.ofNat ((a.toNat % 4 * 16 + b.toNat / 16) % 64 % 16 * 16 +
      (b.toNat % 16 * 4 + x) % 64 / 4) = b := by
  have hb := b.toNat_lt
  rw [← UInt8.toNat_inj, UInt8.toNat_ofNat']
  omega

theorem third_octet :
    UInt8.ofNat ((b.toNat % 16 * 4 + c.toNat / 64) % 64 % 4 * 64 + c.toNat % 64 % 64) = c := by
  have hc := c.toNat_lt
  rw [← UInt8.toNat_inj, UInt8.toNat_ofNat']
  omega

end Octets

theorem octets_sextets (b : List UInt8) : octets (sextets b) = b := by
  induction b using sextets.induct with
  | case1 => rfl
  | case2 a =>
      have hfirst := first_octet a (x := 0) (by omega)
      rw [Nat.add_zero] at hfirst
      rw [sextets, octets, val_sextet, val_sextet, hfirst]
  | case3 a b =>
      have hb := b.toNat_lt
      have hsecond := second_octet a b (x := 0) (by omega)
      rw [Nat.add_zero] at hsecond
      rw [sextets, octets, val_sextet, val_sextet, val_sextet, first_octet a (by omega), hsecond]
  | case4 a b c rest ih =>
      have hb := b.toNat_lt
      have hc := c.toNat_lt
      rw [sextets, octets, val_sextet, val_sextet, val_sextet, val_sextet,
        first_octet a (by omega), second_octet a b (by omega), third_octet b c, ih]

theorem whole_sextets (b : List UInt8) : Whole (sextets b) := by
  induction b using sextets.induct with
  | case1 => trivial
  | case2 a =>
      rw [sextets, Whole, val_sextet]
      omega
  | case3 a b =>
      rw [sextets, Whole, val_sextet]
      omega
  | case4 a b c rest ih =>
      rw [sextets, Whole]
      exact ih

section Sextets

variable (p q r s : Fin 64)

theorem first_sextet : sextet ((UInt8.ofNat (p.val * 4 + q.val / 16)).toNat / 4) = p := by
  apply Fin.ext
  rw [val_sextet, UInt8.toNat_ofNat']
  omega

theorem second_sextet {x : ℕ} (hx : x / 16 = q.val % 16) :
    sextet ((UInt8.ofNat (p.val * 4 + q.val / 16)).toNat % 4 * 16 + x / 16) = q := by
  apply Fin.ext
  rw [val_sextet, UInt8.toNat_ofNat']
  omega

theorem third_sextet {x : ℕ} (hx : x / 64 = r.val % 4) :
    sextet ((UInt8.ofNat (q.val % 16 * 16 + r.val / 4)).toNat % 16 * 4 + x / 64) = r := by
  apply Fin.ext
  rw [val_sextet, UInt8.toNat_ofNat']
  omega

theorem fourth_sextet : sextet ((UInt8.ofNat (r.val % 4 * 64 + s.val)).toNat % 64) = s := by
  apply Fin.ext
  rw [val_sextet, UInt8.toNat_ofNat']
  omega

theorem second_octet_div : (UInt8.ofNat (q.val % 16 * 16 + r.val / 4)).toNat / 16 =
    q.val % 16 := by
  rw [UInt8.toNat_ofNat']
  omega

theorem third_octet_div : (UInt8.ofNat (r.val % 4 * 64 + s.val)).toNat / 64 = r.val % 4 := by
  rw [UInt8.toNat_ofNat']
  omega

end Sextets

theorem sextets_octets {l : List (Fin 64)} (hl : Whole l) : sextets (octets l) = l := by
  induction l using octets.induct with
  | case1 => rfl
  | case2 p => exact hl.elim
  | case3 p q =>
      have hq : q.val % 16 = 0 := hl
      have hsecond := second_sextet p q (x := 0) (by omega)
      rw [Nat.zero_div, Nat.add_zero] at hsecond
      rw [octets, sextets, first_sextet, hsecond]
  | case4 p q r =>
      have hr : r.val % 4 = 0 := hl
      have hthird := third_sextet q r (x := 0) (by omega)
      rw [Nat.zero_div, Nat.add_zero] at hthird
      rw [octets, sextets, first_sextet, second_sextet p q (second_octet_div q r), hthird]
  | case5 p q r s rest ih =>
      rw [octets, sextets, first_sextet, second_sextet p q (second_octet_div q r),
        third_sextet q r (third_octet_div r s), fourth_sextet, ih hl]

theorem length_sextets_add_padding (b : List UInt8) :
    (sextets b).length + padding b.length = (b.length + 2) / 3 * 4 := by
  induction b using sextets.induct with
  | case1 => rfl
  | case2 a => simp [sextets, padding]
  | case3 a b => simp [sextets, padding]
  | case4 a b c rest ih =>
      rw [sextets]
      simp only [List.length_cons]
      rw [padding_add_three]
      omega

theorem padding_length (b : List UInt8) :
    padding b.length = (4 - (sextets b).length % 4) % 4 := by
  have hlength := length_sextets_add_padding b
  have hlt : padding b.length < 3 := Nat.mod_lt _ (by omega)
  omega

end Base64

end Text
