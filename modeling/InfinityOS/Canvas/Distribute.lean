import Mathlib

/-!
# Even distribution

`distribute` sorts the slice of rectangles along an axis and then places them from the first one
on with equal gaps. A slot of the slice is a node, and the sort moves the rectangles to other
slots: a slot has its own rectangle afterwards where the slice was in order, or where the sort
does not show.

Coordinates are exact rational numbers.
-/

namespace InfinityOS

namespace Canvas

inductive Axis where
  | horizontal
  | vertical
  deriving DecidableEq

/-- The origin is the top-left corner. -/
structure Rect where
  origin : ℚ × ℚ
  width : ℚ
  height : ℚ
  deriving DecidableEq

inductive AlignError where
  | tooFewNodes
  deriving DecidableEq

namespace Rect

def start : Axis → Rect → ℚ
  | .horizontal, r => r.origin.1
  | .vertical, r => r.origin.2

/-- The size along the axis. -/
def length : Axis → Rect → ℚ
  | .horizontal, r => r.width
  | .vertical, r => r.height

def cross : Axis → Rect → ℚ
  | .horizontal, r => r.origin.2
  | .vertical, r => r.origin.1

def moveTo : Axis → ℚ → Rect → Rect
  | .horizontal, s, r => { r with origin := (s, r.origin.2) }
  | .vertical, s, r => { r with origin := (r.origin.1, s) }

/-- All that a move along the axis leaves. -/
def shape (axis : Axis) (r : Rect) : ℚ × ℚ × ℚ :=
  (r.width, r.height, r.cross axis)

@[simp] theorem start_moveTo (axis : Axis) (s : ℚ) (r : Rect) :
    (r.moveTo axis s).start axis = s := by
  cases axis <;> rfl

@[simp] theorem length_moveTo (axis : Axis) (s : ℚ) (r : Rect) :
    (r.moveTo axis s).length axis = r.length axis := by
  cases axis <;> rfl

@[simp] theorem shape_moveTo (axis : Axis) (s : ℚ) (r : Rect) :
    (r.moveTo axis s).shape axis = r.shape axis := by
  cases axis <;> rfl

/-- The size along the axis is part of the shape. -/
def lengthOf : Axis → ℚ × ℚ × ℚ → ℚ
  | .horizontal, shape => shape.1
  | .vertical, shape => shape.2.1

theorem lengthOf_shape (axis : Axis) (r : Rect) : lengthOf axis (r.shape axis) = r.length axis := by
  cases axis <;> rfl

end Rect

namespace AlignDistribute

/-- The slice after `sort_by` of the coordinates, which is stable. -/
def sorted (axis : Axis) (nodes : List Rect) : List Rect :=
  nodes.insertionSort fun a b => a.start axis ≤ b.start axis

/-- The gap between neighbours in a sorted slice: what its rectangles leave of the space from the
start of the first one to the end of the last one. -/
def evenGap (axis : Axis) (l : List Rect) : ℚ :=
  let first := (l.head?.map (Rect.start axis)).getD 0
  let last := (l.getLast?.map fun r => r.start axis + r.length axis).getD 0
  (last - first - (l.map (Rect.length axis)).sum) / (l.length - 1)

/-- The loop that places the rectangles one after the other. -/
def placeFrom (axis : Axis) (gap : ℚ) : ℚ → List Rect → List Rect
  | _, [] => []
  | cursor, r :: rs =>
      r.moveTo axis cursor :: placeFrom axis gap (cursor + (r.length axis + gap)) rs

def distribute (nodes : List Rect) (axis : Axis) : Except AlignError (List Rect) :=
  if nodes.length < 2 then .error .tooFewNodes
  else
    let l := sorted axis nodes
    let first := (l.head?.map (Rect.start axis)).getD 0
    .ok (placeFrom axis (evenGap axis l) first l)

end AlignDistribute

open AlignDistribute

/-! ## Slots -/

def startAt (axis : Axis) (l : List Rect) (i : ℕ) : ℚ :=
  (l[i]?.map (Rect.start axis)).getD 0

def lengthAt (axis : Axis) (l : List Rect) (i : ℕ) : ℚ :=
  (l[i]?.map (Rect.length axis)).getD 0

/-- The slots in the order of their coordinates, those with the same one in the order of the
slice. -/
def slotOrder (axis : Axis) (nodes : List Rect) : List ℕ :=
  (nodes.zipIdx.insertionSort fun a b => a.1.start axis ≤ b.1.start axis).map Prod.snd

/-- The slot with the `k`-th coordinate. -/
def slotAt (axis : Axis) (nodes : List Rect) (k : ℕ) : ℕ :=
  (slotOrder axis nodes).getD k 0

/-- No other slot starts so early. -/
def IsFirst (axis : Axis) (nodes : List Rect) (i : ℕ) : Prop :=
  i < nodes.length ∧ ∀ j < nodes.length, j ≠ i → startAt axis nodes i < startAt axis nodes j

/-- No other slot starts so late. -/
def IsLast (axis : Axis) (nodes : List Rect) (i : ℕ) : Prop :=
  i < nodes.length ∧ ∀ j < nodes.length, j ≠ i → startAt axis nodes j < startAt axis nodes i

/-- Each slot has its own rectangle moved along the axis, the first and the last one where they
were, all with the same gap to the next one in the order of the coordinates. -/
structure KeepsIdentity (axis : Axis) (nodes result : List Rect) : Prop where
  shapes : result.map (Rect.shape axis) = nodes.map (Rect.shape axis)
  first : ∀ i, IsFirst axis nodes i → startAt axis result i = startAt axis nodes i
  last : ∀ i, IsLast axis nodes i → startAt axis result i = startAt axis nodes i
  gaps : ∃ gap, ∀ k, k + 1 < nodes.length →
    startAt axis result (slotAt axis nodes (k + 1)) =
      startAt axis result (slotAt axis nodes k) + lengthAt axis result (slotAt axis nodes k) + gap

/-- Where the `k`-th slot of the slice is placed, from the first one on. -/
def place (axis : Axis) (nodes : List Rect) (k : ℕ) : ℚ :=
  ((nodes.take k).map (Rect.length axis)).sum + k * evenGap axis (sorted axis nodes)

/-- The sort of the slice does not show: each slot gets a rectangle of the shape of its own one,
and the place of the slot with the `k`-th coordinate is the `k`-th place. Where two slots share
the smallest coordinate and two the largest one, the places may differ by a multiple of the
distance from the middle of the order. -/
structure SortHidden (axis : Axis) (nodes : List Rect) : Prop where
  shapes : (sorted axis nodes).map (Rect.shape axis) = nodes.map (Rect.shape axis)
  places : ∃ d : ℚ,
    (∀ k < nodes.length, place axis nodes (slotAt axis nodes k) =
      place axis nodes k + d * (2 * k - (nodes.length - 1))) ∧
    ∀ i, IsFirst axis nodes i ∨ IsLast axis nodes i → d = 0

/-! ## The placed slice -/

variable {axis : Axis} {nodes l l' : List Rect} {i k : ℕ}

theorem startAt_eq (hk : k < l.length) : startAt axis l k = l[k].start axis := by
  rw [startAt, List.getElem?_eq_getElem hk]
  rfl

theorem lengthAt_eq (hk : k < l.length) : lengthAt axis l k = l[k].length axis := by
  rw [lengthAt, List.getElem?_eq_getElem hk]
  rfl

theorem map_length_eq (axis : Axis) (l : List Rect) :
    l.map (Rect.length axis) = (l.map (Rect.shape axis)).map (Rect.lengthOf axis) := by
  rw [List.map_map]
  exact List.map_congr_left fun r _ => (r.lengthOf_shape axis).symm

theorem map_length_of_shapes (h : l.map (Rect.shape axis) = l'.map (Rect.shape axis)) :
    l.map (Rect.length axis) = l'.map (Rect.length axis) := by
  rw [map_length_eq, h, map_length_eq]

theorem lengthAt_of_lengths (h : l.map (Rect.length axis) = l'.map (Rect.length axis)) (k : ℕ) :
    lengthAt axis l k = lengthAt axis l' k := by
  rw [lengthAt, lengthAt, ← List.getElem?_map, ← List.getElem?_map, h]

theorem sum_take_succ (hk : k < l.length) :
    ((l.take (k + 1)).map (Rect.length axis)).sum =
      ((l.take k).map (Rect.length axis)).sum + lengthAt axis l k := by
  rw [lengthAt_eq hk, List.take_succ_eq_append_getElem hk, List.map_append, List.sum_append,
    List.map_singleton, List.sum_singleton]

theorem map_shape_placeFrom (axis : Axis) (gap cursor : ℚ) (l : List Rect) :
    (placeFrom axis gap cursor l).map (Rect.shape axis) = l.map (Rect.shape axis) := by
  induction l generalizing cursor with
  | nil => rfl
  | cons r l ih => rw [placeFrom, List.map_cons, List.map_cons, ih, Rect.shape_moveTo]

theorem startAt_placeFrom (axis : Axis) (gap cursor : ℚ) (hk : k < l.length) :
    startAt axis (placeFrom axis gap cursor l) k =
      cursor + (((l.take k).map (Rect.length axis)).sum + k * gap) := by
  induction l generalizing cursor k with
  | nil => cases hk
  | cons r l ih =>
      cases k with
      | zero => simp [startAt, placeFrom]
      | succ k =>
          have hrest := ih (cursor + (r.length axis + gap)) (Nat.lt_of_succ_lt_succ hk)
          rw [placeFrom]
          change startAt axis (placeFrom axis gap _ l) k = _
          rw [hrest, List.take_succ_cons, List.map_cons, List.sum_cons]
          push_cast
          ring

/-! ## The order of the slots -/

theorem slotOrder_perm (axis : Axis) (nodes : List Rect) :
    (slotOrder axis nodes).Perm (List.range nodes.length) := by
  have hperm := (List.perm_insertionSort (fun a b : Rect × ℕ => a.1.start axis ≤ b.1.start axis)
    nodes.zipIdx).map Prod.snd
  rwa [List.zipIdx_map_snd, ← List.range_eq_range'] at hperm

theorem length_slotOrder (axis : Axis) (nodes : List Rect) :
    (slotOrder axis nodes).length = nodes.length := by
  rw [(slotOrder_perm axis nodes).length_eq, List.length_range]

theorem length_sorted (axis : Axis) (nodes : List Rect) :
    (sorted axis nodes).length = nodes.length :=
  List.length_insertionSort _ _

theorem sorted_eq (axis : Axis) (nodes : List Rect) :
    sorted axis nodes =
      (nodes.zipIdx.insertionSort fun a b => a.1.start axis ≤ b.1.start axis).map Prod.fst := by
  rw [List.map_insertionSort (r := fun a b : Rect × ℕ => a.1.start axis ≤ b.1.start axis)
    (s := fun a b => a.start axis ≤ b.start axis) Prod.fst _ fun _ _ _ _ => Iff.rfl,
    List.zipIdx_map_fst]
  rfl

theorem slotAt_lt (hk : k < nodes.length) : slotAt axis nodes k < nodes.length := by
  have hk' : k < (slotOrder axis nodes).length := (length_slotOrder axis nodes).symm ▸ hk
  rw [slotAt, List.getD_eq_getElem _ _ hk', ← List.mem_range]
  exact (slotOrder_perm axis nodes).mem_iff.mp (List.getElem_mem hk')

theorem getElem?_sorted (hk : k < nodes.length) :
    (sorted axis nodes)[k]? = nodes[slotAt axis nodes k]? := by
  have hpairs : k < (nodes.zipIdx.insertionSort fun a b =>
      a.1.start axis ≤ b.1.start axis).length := by
    rwa [List.length_insertionSort, List.length_zipIdx]
  have hmem := List.getElem_mem hpairs
  rw [List.mem_insertionSort, List.mem_zipIdx_iff_getElem?] at hmem
  rw [sorted_eq, List.getElem?_map, List.getElem?_eq_getElem hpairs, Option.map_some, ← hmem,
    slotAt, slotOrder, List.getD_eq_getElem _ _ (by rwa [List.length_map]), List.getElem_map]

theorem exists_slotAt (axis : Axis) (hi : i < nodes.length) :
    ∃ k < nodes.length, slotAt axis nodes k = i := by
  have hmem := (slotOrder_perm axis nodes).mem_iff.mpr (List.mem_range.mpr hi)
  obtain ⟨k, hk, rfl⟩ := List.getElem_of_mem hmem
  refine ⟨k, (length_slotOrder axis nodes) ▸ hk, ?_⟩
  rw [slotAt, List.getD_eq_getElem _ _ hk]

theorem startAt_sorted (hk : k < nodes.length) :
    startAt axis (sorted axis nodes) k = startAt axis nodes (slotAt axis nodes k) := by
  rw [startAt, getElem?_sorted hk, startAt]

theorem lengthAt_sorted (hk : k < nodes.length) :
    lengthAt axis (sorted axis nodes) k = lengthAt axis nodes (slotAt axis nodes k) := by
  rw [lengthAt, getElem?_sorted hk, lengthAt]

/-- The coordinates in the order of the slots do not go back. -/
theorem startAt_sorted_le (axis : Axis) {j : ℕ} (hkj : k ≤ j) (hj : j < nodes.length) :
    startAt axis (sorted axis nodes) k ≤ startAt axis (sorted axis nodes) j := by
  rcases hkj.eq_or_lt with rfl | hlt
  · exact le_rfl
  · have hj' : j < (sorted axis nodes).length := (length_sorted axis nodes).symm ▸ hj
    have hpairwise := List.pairwise_insertionSort
      (fun a b : Rect => a.start axis ≤ b.start axis) nodes
    rw [startAt_eq (hlt.trans hj'), startAt_eq hj']
    exact List.pairwise_iff_getElem.mp hpairwise k j (hlt.trans hj') hj' hlt

theorem IsFirst.slotAt_eq (h : IsFirst axis nodes i) : slotAt axis nodes 0 = i := by
  obtain ⟨k, hk, hslot⟩ := exists_slotAt axis h.1
  have hpos : 0 < nodes.length := Nat.zero_lt_of_lt h.1
  by_contra hne
  have hlt := h.2 (slotAt axis nodes 0) (slotAt_lt hpos) hne
  have hle := startAt_sorted_le axis (Nat.zero_le k) hk
  rw [startAt_sorted hpos, startAt_sorted hk, hslot] at hle
  exact absurd hlt (not_lt.mpr hle)

theorem IsLast.slotAt_eq (h : IsLast axis nodes i) : slotAt axis nodes (nodes.length - 1) = i := by
  obtain ⟨k, hk, hslot⟩ := exists_slotAt axis h.1
  have hlast : nodes.length - 1 < nodes.length := Nat.sub_one_lt_of_lt h.1
  by_contra hne
  have hlt := h.2 (slotAt axis nodes (nodes.length - 1)) (slotAt_lt hlast) hne
  have hle := startAt_sorted_le axis (Nat.le_sub_one_of_lt hk) hlast
  rw [startAt_sorted hk, startAt_sorted hlast, hslot] at hle
  exact absurd hlt (not_lt.mpr hle)

/-! ## The places -/

/-- The slice that `distribute` leaves. -/
def distributed (axis : Axis) (nodes : List Rect) : List Rect :=
  placeFrom axis (evenGap axis (sorted axis nodes)) (startAt axis (sorted axis nodes) 0)
    (sorted axis nodes)

theorem distribute_eq (h : 2 ≤ nodes.length) :
    distribute nodes axis = .ok (distributed axis nodes) := by
  rw [distribute, if_neg (not_lt.mpr h), distributed, startAt, ← List.head?_eq_getElem?]

theorem length_sub_one_ne_zero (h : 2 ≤ nodes.length) : (nodes.length : ℚ) - 1 ≠ 0 := by
  have hlength : (2 : ℚ) ≤ nodes.length := by exact_mod_cast h
  linarith

theorem place_succ (hk : k < nodes.length) :
    place axis nodes (k + 1) =
      place axis nodes k + lengthAt axis nodes k + evenGap axis (sorted axis nodes) := by
  rw [place, place, sum_take_succ hk]
  push_cast
  ring

theorem sum_place_slotAt (axis : Axis) (nodes : List Rect) :
    ∑ k ∈ Finset.range nodes.length, place axis nodes (slotAt axis nodes k) =
      ∑ k ∈ Finset.range nodes.length, place axis nodes k := by
  apply Finset.sum_nbij (slotAt axis nodes)
  · intro k hk
    exact Finset.mem_range.mpr (slotAt_lt (Finset.mem_range.mp hk))
  · intro j hj k hk hsame
    simp only [Finset.coe_range, Set.mem_Iio, ← length_slotOrder axis nodes] at hj hk
    rw [slotAt, slotAt, List.getD_eq_getElem _ _ hj, List.getD_eq_getElem _ _ hk] at hsame
    exact ((slotOrder_perm axis nodes).nodup_iff.mpr List.nodup_range).getElem_inj_iff.mp hsame
  · intro i hi
    obtain ⟨k, hk, hslot⟩ := exists_slotAt axis (Finset.mem_range.mp hi)
    exact ⟨k, Finset.mem_coe.mpr (Finset.mem_range.mpr hk), hslot⟩
  · exact fun _ _ => rfl

theorem sum_affine (c δ : ℚ) (n : ℕ) :
    ∑ k ∈ Finset.range n, (c + k * δ) = n * (c + δ / 2 * (n - 1)) := by
  induction n with
  | zero => simp
  | succ n ih =>
      rw [Finset.sum_range_succ, ih]
      push_cast
      ring

theorem eq_of_sum_eq_zero {n : ℕ} {f : ℕ → ℚ} {δ : ℚ}
    (hstep : ∀ k, k + 1 < n → f (k + 1) = f k + δ) (hsum : ∑ k ∈ Finset.range n, f k = 0)
    (hk : k < n) : f k = δ / 2 * (2 * k - (n - 1)) := by
  have haffine (k : ℕ) (hk : k < n) : f k = f 0 + k * δ := by
    induction k with
    | zero => simp
    | succ k ih =>
        rw [hstep k hk, ih (Nat.lt_of_succ_lt hk)]
        push_cast
        ring
  rw [Finset.sum_congr rfl fun k hk => haffine k (Finset.mem_range.mp hk), sum_affine] at hsum
  have hpos : (n : ℚ) ≠ 0 := Nat.cast_ne_zero.mpr (Nat.ne_zero_of_lt hk)
  have hzero : f 0 = - (δ / 2 * (n - 1)) :=
    eq_neg_of_add_eq_zero_left ((mul_eq_zero.mp hsum).resolve_left hpos)
  rw [haffine k hk, hzero]
  ring

section Shapes

variable (hshapes : (sorted axis nodes).map (Rect.shape axis) = nodes.map (Rect.shape axis))

include hshapes

theorem startAt_distributed (hk : k < nodes.length) :
    startAt axis (distributed axis nodes) k =
      startAt axis (sorted axis nodes) 0 + place axis nodes k := by
  have hlengths := congrArg (fun lengths => (lengths.take k).sum) (map_length_of_shapes hshapes)
  simp only [← List.map_take] at hlengths
  rw [distributed, startAt_placeFrom _ _ _ ((length_sorted axis nodes).symm ▸ hk), hlengths, place]

theorem lengthAt_slotAt (hk : k < nodes.length) :
    lengthAt axis nodes (slotAt axis nodes k) = lengthAt axis nodes k := by
  rw [← lengthAt_sorted hk, lengthAt_of_lengths (map_length_of_shapes hshapes)]

theorem place_last (h : 2 ≤ nodes.length) :
    startAt axis (sorted axis nodes) 0 + place axis nodes (nodes.length - 1) =
      startAt axis (sorted axis nodes) (nodes.length - 1) := by
  obtain ⟨m, hm⟩ : ∃ m, nodes.length = m + 1 := ⟨nodes.length - 1, by omega⟩
  have hlen : (sorted axis nodes).length = m + 1 := (length_sorted axis nodes).trans hm
  have hm0 : (m : ℚ) ≠ 0 := Nat.cast_ne_zero.mpr (by omega)
  have hlengths := map_length_of_shapes hshapes
  have htotal : ((sorted axis nodes).map (Rect.length axis)).sum =
      ((nodes.take m).map (Rect.length axis)).sum + lengthAt axis nodes m := by
    rw [hlengths, ← sum_take_succ (by omega), ← hm, List.take_length]
  have hlast : ((sorted axis nodes).getLast?.map fun r => r.start axis + r.length axis).getD 0 =
      startAt axis (sorted axis nodes) m + lengthAt axis nodes m := by
    have hmlt : m < (sorted axis nodes).length := by omega
    rw [List.getLast?_eq_getElem?, hlen, Nat.add_sub_cancel, List.getElem?_eq_getElem hmlt,
      startAt_eq hmlt, ← lengthAt_of_lengths hlengths, lengthAt_eq hmlt]
    rfl
  have hgap : evenGap axis (sorted axis nodes) * m =
      startAt axis (sorted axis nodes) m - startAt axis (sorted axis nodes) 0 -
        ((nodes.take m).map (Rect.length axis)).sum := by
    rw [evenGap, hlast, htotal, hlen, List.head?_eq_getElem?, ← startAt]
    push_cast
    rw [add_sub_cancel_right, div_mul_cancel₀ _ hm0]
    ring
  rw [hm, Nat.add_sub_cancel, place, mul_comm, hgap]
  ring

/-- The gaps in the order of the coordinates are equal exactly if the places of the slots differ
from the order by a multiple of the distance from the middle. -/
theorem gaps_iff :
    (∃ gap, ∀ k, k + 1 < nodes.length →
      startAt axis (distributed axis nodes) (slotAt axis nodes (k + 1)) =
        startAt axis (distributed axis nodes) (slotAt axis nodes k) +
          lengthAt axis (distributed axis nodes) (slotAt axis nodes k) + gap) ↔
      ∃ d : ℚ, ∀ k < nodes.length, place axis nodes (slotAt axis nodes k) =
        place axis nodes k + d * (2 * k - (nodes.length - 1)) := by
  have hlengths := map_length_of_shapes
    ((map_shape_placeFrom axis (evenGap axis (sorted axis nodes))
      (startAt axis (sorted axis nodes) 0) (sorted axis nodes)).trans hshapes)
  have hlength {k : ℕ} (hk : k < nodes.length) :
      lengthAt axis (distributed axis nodes) (slotAt axis nodes k) = lengthAt axis nodes k :=
    (lengthAt_of_lengths hlengths _).trans (lengthAt_slotAt hshapes hk)
  constructor
  · rintro ⟨gap, hgap⟩
    refine ⟨(gap - evenGap axis (sorted axis nodes)) / 2, fun k hk => ?_⟩
    have hstep (k : ℕ) (hk : k + 1 < nodes.length) :
        place axis nodes (slotAt axis nodes (k + 1)) - place axis nodes (k + 1) =
          place axis nodes (slotAt axis nodes k) - place axis nodes k +
            (gap - evenGap axis (sorted axis nodes)) := by
      have hk' : k < nodes.length := Nat.lt_of_succ_lt hk
      have hnext := hgap k hk
      rw [startAt_distributed hshapes (slotAt_lt hk), startAt_distributed hshapes (slotAt_lt hk'),
        hlength hk'] at hnext
      rw [place_succ hk']
      linarith
    have hsum : ∑ k ∈ Finset.range nodes.length,
        (place axis nodes (slotAt axis nodes k) - place axis nodes k) = 0 := by
      rw [Finset.sum_sub_distrib, sum_place_slotAt, sub_self]
    have hplace := eq_of_sum_eq_zero hstep hsum hk
    linarith
  · rintro ⟨d, hd⟩
    refine ⟨evenGap axis (sorted axis nodes) + 2 * d, fun k hk => ?_⟩
    have hk' : k < nodes.length := Nat.lt_of_succ_lt hk
    rw [startAt_distributed hshapes (slotAt_lt hk), startAt_distributed hshapes (slotAt_lt hk'),
      hlength hk', hd k hk', hd (k + 1) hk, place_succ hk']
    push_cast
    ring

section Places

variable {d : ℚ} (hd : ∀ k < nodes.length, place axis nodes (slotAt axis nodes k) =
  place axis nodes k + d * (2 * k - (nodes.length - 1)))

include hd

theorem first_unmoved_iff (h : 2 ≤ nodes.length) (hi : IsFirst axis nodes i) :
    startAt axis (distributed axis nodes) i = startAt axis nodes i ↔ d = 0 := by
  have hpos : 0 < nodes.length := Nat.zero_lt_of_lt hi.1
  rw [← hi.slotAt_eq, startAt_distributed hshapes (slotAt_lt hpos), ← startAt_sorted hpos,
    hd 0 hpos, add_eq_left]
  have hplace : place axis nodes 0 = 0 := by simp [place]
  rw [hplace, zero_add, Nat.cast_zero, mul_zero, zero_sub, mul_neg, neg_eq_zero, mul_eq_zero,
    or_iff_left (length_sub_one_ne_zero h)]

theorem last_unmoved_iff (h : 2 ≤ nodes.length) (hi : IsLast axis nodes i) :
    startAt axis (distributed axis nodes) i = startAt axis nodes i ↔ d = 0 := by
  have hlast : nodes.length - 1 < nodes.length := Nat.sub_one_lt_of_lt hi.1
  have hcast : ((nodes.length - 1 : ℕ) : ℚ) = (nodes.length : ℚ) - 1 := by
    rw [Nat.cast_sub (by omega), Nat.cast_one]
  rw [← hi.slotAt_eq, startAt_distributed hshapes (slotAt_lt hlast), ← startAt_sorted hlast,
    hd _ hlast, ← add_assoc, place_last hshapes h, add_eq_left, hcast, two_mul,
    add_sub_cancel_right, mul_eq_zero, or_iff_left (length_sub_one_ne_zero h)]

end Places

end Shapes

theorem keepsIdentity_iff (h : 2 ≤ nodes.length) :
    KeepsIdentity axis nodes (distributed axis nodes) ↔ SortHidden axis nodes := by
  have hkept := map_shape_placeFrom axis (evenGap axis (sorted axis nodes))
    (startAt axis (sorted axis nodes) 0) (sorted axis nodes)
  constructor
  · rintro ⟨hshapes, hfirst, hlast, hgaps⟩
    have hsorted := hkept.symm.trans hshapes
    obtain ⟨d, hd⟩ := (gaps_iff hsorted).mp hgaps
    refine ⟨hsorted, d, hd, fun i hi => ?_⟩
    rcases hi with hi | hi
    · exact (first_unmoved_iff hsorted hd h hi).mp (hfirst i hi)
    · exact (last_unmoved_iff hsorted hd h hi).mp (hlast i hi)
  · rintro ⟨hshapes, d, hd, hends⟩
    refine ⟨hkept.trans hshapes, fun i hi => ?_, fun i hi => ?_, (gaps_iff hshapes).mpr ⟨d, hd⟩⟩
    · exact (first_unmoved_iff hshapes hd h hi).mpr (hends i (.inl hi))
    · exact (last_unmoved_iff hshapes hd h hi).mpr (hends i (.inr hi))

theorem sortHidden_of_ordered
    (h : nodes.Pairwise fun a b => a.start axis ≤ b.start axis) : SortHidden axis nodes := by
  have hpairs : nodes.zipIdx.Pairwise fun a b => a.1.start axis ≤ b.1.start axis := by
    rw [← List.zipIdx_map_fst 0 nodes] at h
    exact (List.pairwise_map (R := fun a b : Rect => a.start axis ≤ b.start axis)).mp h
  have hslots : slotOrder axis nodes = List.range nodes.length := by
    rw [slotOrder, hpairs.insertionSort_eq, List.zipIdx_map_snd, ← List.range_eq_range']
  refine ⟨by rw [sorted, h.insertionSort_eq], 0, fun k hk => ?_, fun _ _ => rfl⟩
  rw [slotAt, hslots, List.getD_eq_getElem _ _ (by rwa [List.length_range]), List.getElem_range,
    zero_mul, add_zero]

theorem sortHidden_iff_ordered (hshapes : (nodes.map (Rect.shape axis)).Nodup) :
    SortHidden axis nodes ↔ nodes.Pairwise fun a b => a.start axis ≤ b.start axis := by
  refine ⟨fun h => ?_, sortHidden_of_ordered⟩
  have hsame : sorted axis nodes = nodes := by
    apply List.ext_getElem (length_sorted axis nodes)
    intro k hk hk'
    have hshape := List.getElem_of_eq h.shapes (i := k) (by rwa [List.length_map])
    rw [List.getElem_map, List.getElem_map] at hshape
    exact List.inj_on_of_nodup_map hshapes
      ((List.mem_insertionSort _).mp (List.getElem_mem hk)) (List.getElem_mem hk') hshape
  rw [← hsame]
  exact List.pairwise_insertionSort _ _

/-- After a distribution the slots have kept their nodes exactly where the sort of the slice did
not show. -/
theorem distribute_keeps_identity_iff (axis : Axis) (nodes : List Rect) (h : 2 ≤ nodes.length) :
    ∃ result, distribute nodes axis = .ok result ∧
      (KeepsIdentity axis nodes result ↔ SortHidden axis nodes) :=
  ⟨distributed axis nodes, distribute_eq h, keepsIdentity_iff h⟩

/-- Three nodes of different widths, given from the left. -/
def orderedNodes : List Rect :=
  [⟨(0, 0), 20, 10⟩, ⟨(30, 5), 10, 10⟩, ⟨(100, 0), 40, 10⟩]

theorem distribute_keeps_identity_iff_ordered :
    ∃ result, distribute orderedNodes .horizontal = .ok result ∧
      KeepsIdentity .horizontal orderedNodes result := by
  obtain ⟨result, hresult, hkept⟩ :=
    distribute_keeps_identity_iff .horizontal orderedNodes (by decide)
  exact ⟨result, hresult, hkept.mpr (sortHidden_of_ordered (by decide +kernel))⟩

/-- A wide node at the left and a narrow one at the right, given from the right. -/
def swappedNodes : List Rect :=
  [⟨(100, 0), 10, 10⟩, ⟨(0, 0), 20, 10⟩]

/-- The two nodes have exchanged their widths and places. -/
theorem distribute_swaps_nodes :
    ¬ ∀ (axis : Axis) (nodes result : List Rect), 2 ≤ nodes.length →
      distribute nodes axis = .ok result → KeepsIdentity axis nodes result := by
  intro h
  have hkept := h .horizontal swappedNodes [⟨(0, 0), 20, 10⟩, ⟨(100, 0), 10, 10⟩] (by decide)
    (by decide +kernel)
  exact absurd hkept.shapes (by decide +kernel)

end Canvas

end InfinityOS
