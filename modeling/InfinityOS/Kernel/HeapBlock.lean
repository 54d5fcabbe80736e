import InfinityOS.Transition.Run
import InfinityOS.Kernel.Arena

/-!
# Blocks of the general allocator

`ify_malloc` and `ify_realloc` around `calloc` and `realloc` of the C library, as a caller
sees one block. A `Cell` is a byte of the block, with a mark whether the caller has written
it since it became part of the block. The library grants requests or not, and leaves bytes
of any value behind the old end of a block that it enlarges.
-/

namespace InfinityOS

namespace Kernel

open Transition

structure Cell where
  byte : UInt8
  written : Bool
  deriving DecidableEq

/-- How the C library answers the request number `n`: whether it is granted, and what is
read from the byte `i` that it adds to a block. -/
structure Libc where
  grants : ℕ → Word → Bool
  tail : ℕ → ℕ → UInt8

namespace Libc

/-- `calloc(1, size)`. -/
def calloc (libc : Libc) (n : ℕ) (size : Word) : Option (List Cell) :=
  if libc.grants n size then some (List.replicate size.toNat ⟨0, false⟩) else none

/-- The bytes that a block of `cells` is enlarged by. -/
def added (libc : Libc) (n : ℕ) (cells : List Cell) (size : Word) : List Cell :=
  (List.range (size.toNat - cells.length)).map fun i => ⟨libc.tail n i, false⟩

/-- `realloc(ptr, size)` for a size other than 0. -/
def realloc (libc : Libc) (n : ℕ) (ptr : Option (List Cell)) (size : Word) :
    Option (List Cell) :=
  let cells := ptr.getD []
  if libc.grants n size then
    some (cells.take size.toNat ++ libc.added n cells size)
  else none

end Libc

def ifyMalloc (libc : Libc) (n : ℕ) (size : Word) : Option (List Cell) :=
  if size = 0 then none else libc.calloc n size

/-- `ify_realloc`: what it returns, and the block after it. -/
def ifyRealloc (libc : Libc) (n : ℕ) (ptr : Option (List Cell)) (newSize : Word) :
    Option (List Cell) × Option (List Cell) :=
  if newSize = 0 then
    (none, none)
  else
    match libc.realloc n ptr newSize with
    | none => (none, ptr)
    | some cells => (some cells, some cells)

structure HeapBlock where
  block : Option (List Cell)
  requests : ℕ

inductive HeapCall where
  | malloc (size : Word)
  | realloc (newSize : Word)
  | write (offset : ℕ) (value : UInt8)

namespace HeapBlock

def initial : HeapBlock :=
  { block := none, requests := 0 }

/-- A write behind the end of the block is none. -/
def step (libc : Libc) (h : HeapBlock) : HeapCall → Option (List Cell) × HeapBlock
  | .malloc size =>
      let ptr := ifyMalloc libc h.requests size
      (ptr, { block := ptr, requests := h.requests + 1 })
  | .realloc newSize =>
      let r := ifyRealloc libc h.requests h.block newSize
      (r.1, { block := r.2, requests := h.requests + 1 })
  | .write offset value =>
      (h.block, { h with block := h.block.map fun cells => cells.set offset ⟨value, true⟩ })

/-- Every byte that the caller has not written reads as zero. -/
def Zeroed (h : HeapBlock) : Prop :=
  ∀ cells, h.block = some cells → ∀ cell ∈ cells, cell.written = false → cell.byte = 0

/-- The size of the block, and the number of the next request. -/
def extent (h : HeapBlock) : Option ℕ × ℕ :=
  (h.block.map List.length, h.requests)

end HeapBlock

/-! ## Sizes -/

def sizeStep (grants : ℕ → Word → Bool) (s : Option ℕ × ℕ) : HeapCall → Unit × (Option ℕ × ℕ)
  | .malloc size =>
      ((), if size = 0 then none else if grants s.2 size then some size.toNat else none, s.2 + 1)
  | .realloc newSize =>
      ((), if newSize = 0 then none else if grants s.2 newSize then some newSize.toNat else s.1,
        s.2 + 1)
  | .write _ _ => ((), s)

/-- `ify_realloc` is granted no size above that of the block. -/
def NoGrowth (grants : ℕ → Word → Bool) (s : Option ℕ × ℕ) : HeapCall → Prop
  | .realloc newSize => grants s.2 newSize = true → newSize.toNat ≤ s.1.getD 0
  | _ => True

section Sizes

variable (libc : Libc)

theorem length_realloc (n : ℕ) (ptr : Option (List Cell)) (size : Word) :
    (libc.realloc n ptr size).map List.length =
      if libc.grants n size then some size.toNat else none := by
  unfold Libc.realloc Libc.added
  dsimp only
  split
  · simp
    omega
  · rfl

theorem extent_step (h : HeapBlock) (call : HeapCall) :
    (h.step libc call).2.extent = (sizeStep libc.grants h.extent call).2 := by
  cases call with
  | malloc size =>
      unfold HeapBlock.step HeapBlock.extent sizeStep ifyMalloc Libc.calloc
      dsimp only
      split_ifs <;> simp
  | realloc newSize =>
      have hlength := length_realloc libc h.requests h.block newSize
      unfold HeapBlock.step HeapBlock.extent sizeStep ifyRealloc
      dsimp only
      by_cases hzero : newSize = 0
      · rw [if_pos hzero, if_pos hzero]
        rfl
      · rw [if_neg hzero, if_neg hzero]
        cases hrealloc : libc.realloc h.requests h.block newSize with
        | none =>
            rw [hrealloc] at hlength
            split at hlength
            · cases hlength
            · next hgrants => rw [if_neg hgrants]
        | some cells =>
            rw [hrealloc] at hlength
            split at hlength
            · next hgrants =>
                rw [if_pos hgrants]
                exact congrArg (·, h.requests + 1) hlength
            · cases hlength
  | write offset value =>
      unfold HeapBlock.step HeapBlock.extent sizeStep
      dsimp only
      rw [Option.map_map]
      congr 2
      funext cells
      exact List.length_set

end Sizes

/-! ## Bytes -/

section Bytes

variable {libc : Libc} {h : HeapBlock}

/-- The bytes that a granted `ify_realloc` adds read as zero. -/
def AddsZeros (libc : Libc) (h : HeapBlock) : HeapCall → Prop
  | .realloc newSize => newSize ≠ 0 → libc.grants h.requests newSize = true →
      ∀ cell ∈ libc.added h.requests (h.block.getD []) newSize, cell.byte = 0
  | _ => True

theorem written_added {n : ℕ} {cells : List Cell} {size : Word} {cell : Cell}
    (hcell : cell ∈ libc.added n cells size) : cell.written = false := by
  obtain ⟨i, -, rfl⟩ := List.mem_map.mp hcell
  rfl

theorem HeapBlock.Zeroed.cells (hzeroed : h.Zeroed) :
    ∀ cell ∈ h.block.getD [], cell.written = false → cell.byte = 0 := by
  intro cell hcell
  cases hblock : h.block with
  | none =>
      rw [hblock] at hcell
      cases hcell
  | some cells =>
      rw [hblock] at hcell
      exact hzeroed cells hblock cell hcell

theorem zeroed_step_iff (hzeroed : h.Zeroed) (call : HeapCall) :
    (h.step libc call).2.Zeroed ↔ AddsZeros libc h call := by
  cases call with
  | malloc size =>
      refine iff_of_true ?_ trivial
      intro cells hcells cell hcell _
      change ifyMalloc libc h.requests size = some cells at hcells
      unfold ifyMalloc Libc.calloc at hcells
      split_ifs at hcells
      obtain rfl := Option.some.inj hcells
      rw [List.eq_of_mem_replicate hcell]
  | write offset value =>
      refine iff_of_true ?_ trivial
      intro cells hcells cell hcell hwritten
      obtain ⟨old, hold, rfl⟩ := Option.map_eq_some_iff.mp hcells
      rcases List.mem_or_eq_of_mem_set hcell with hmem | rfl
      · exact hzeroed old hold cell hmem hwritten
      · cases hwritten
  | realloc newSize =>
      unfold AddsZeros HeapBlock.Zeroed HeapBlock.step ifyRealloc
      dsimp only
      by_cases hzero : newSize = 0
      · simp [hzero]
      rw [if_neg hzero]
      unfold Libc.realloc
      dsimp only
      by_cases hgrants : libc.grants h.requests newSize = true
      · rw [if_pos hgrants]
        constructor
        · intro hcells _ _ cell hcell
          exact hcells _ rfl cell (List.mem_append_right _ hcell) (written_added hcell)
        · rintro hadded cells hcells cell hcell hwritten
          obtain rfl := Option.some.inj hcells
          rcases List.mem_append.mp hcell with hold | hnew
          · exact hzeroed.cells cell (List.mem_of_mem_take hold) hwritten
          · exact hadded hzero hgrants cell hnew
      · rw [if_neg hgrants]
        exact iff_of_true hzeroed fun _ hgranted => absurd hgranted hgrants

theorem addsZeros_of_noGrowth {call : HeapCall} (hsize : NoGrowth libc.grants h.extent call) :
    AddsZeros libc h call := by
  cases call with
  | malloc size => trivial
  | write offset value => trivial
  | realloc newSize =>
      intro _ hgrants cell hcell
      have hle : newSize.toNat ≤ (h.block.getD []).length := by
        have hfits := hsize hgrants
        rw [HeapBlock.extent] at hfits
        cases hblock : h.block <;> simpa [hblock] using hfits
      rw [Libc.added, Nat.sub_eq_zero_of_le hle] at hcell
      cases hcell

theorem addsZeros_ones_iff (grants : ℕ → Word → Bool) (h : HeapBlock) (call : HeapCall) :
    AddsZeros ⟨grants, fun _ _ => 1⟩ h call ↔ NoGrowth grants h.extent call := by
  refine ⟨fun hadded => ?_, fun hsize => addsZeros_of_noGrowth hsize⟩
  cases call with
  | malloc size => trivial
  | write offset value => trivial
  | realloc newSize =>
      intro hgrants
      have hextent : h.extent.1.getD 0 = (h.block.getD []).length := by
        rw [HeapBlock.extent]
        cases h.block <;> rfl
      rw [hextent]
      by_contra hlt
      rw [not_le] at hlt
      have hpos : newSize ≠ 0 := by
        rintro rfl
        exact absurd hlt (Nat.not_lt_zero _)
      have hbyte := hadded hpos hgrants ⟨1, false⟩
        (List.mem_map.mpr ⟨0, List.mem_range.mpr (Nat.sub_pos_of_lt hlt), rfl⟩)
      exact absurd hbyte (by decide)

end Bytes

/-- Whatever bytes the C library leaves behind a block, all unwritten bytes read as zero in
every state of a run exactly if `ify_realloc` never makes the block larger. -/
theorem zeroed_iff_noGrowth (grants : ℕ → Word → Bool) (calls : List HeapCall) :
    (∀ tail made, made <+: calls →
        (final (HeapBlock.step ⟨grants, tail⟩) HeapBlock.initial made).Zeroed) ↔
      Along (NoGrowth grants) (sizeStep grants) (none, 0) calls := by
  have hinitial : HeapBlock.initial.Zeroed := by
    intro cells hcells
    cases hcells
  have hruns : ∀ tail, (∀ made, made <+: calls →
      (final (HeapBlock.step ⟨grants, tail⟩) HeapBlock.initial made).Zeroed) ↔
        Along (AddsZeros ⟨grants, tail⟩) (HeapBlock.step ⟨grants, tail⟩) HeapBlock.initial
          calls := fun tail =>
    forall_reached_iff_along HeapBlock.Zeroed (fun h call hh => zeroed_step_iff hh call) calls
      hinitial
  have hsizes : ∀ tail, Along (fun h call => NoGrowth grants h.extent call)
      (HeapBlock.step ⟨grants, tail⟩) HeapBlock.initial calls ↔
        Along (NoGrowth grants) (sizeStep grants) (none, 0) calls := fun tail =>
    along_map HeapBlock.extent (extent_step ⟨grants, tail⟩) HeapBlock.initial calls
  constructor
  · intro h
    have hones := (hruns fun _ _ => 1).mp (h fun _ _ => 1)
    exact (hsizes _).mp (hones.mono fun h call => (addsZeros_ones_iff grants h call).mp)
  · intro h tail
    exact (hruns tail).mpr (((hsizes tail).mpr h).mono
      fun _ _ hsize => addsZeros_of_noGrowth hsize)

/-- A block of one byte is enlarged to two. -/
theorem enlarged_block_not_zeroed :
    ¬ ∀ libc, (final (HeapBlock.step libc) HeapBlock.initial
      [.malloc 1, .realloc 2]).Zeroed := by
  intro h
  have hbyte := h ⟨fun _ _ => true, fun _ _ => 1⟩ [⟨0, false⟩, ⟨1, false⟩] (by decide)
    ⟨1, false⟩ (by decide) rfl
  exact absurd hbyte (by decide)

end Kernel

end InfinityOS
