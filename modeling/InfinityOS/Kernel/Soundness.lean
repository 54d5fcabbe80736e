import InfinityOS.Kernel.Growth
import InfinityOS.Transition.Reach

/-!
# Soundness of the arena

The blocks handed out since the last reset are aligned, lie in the data area of a
slab and are disjoint. Extents are taken as numbers, so a block whose end wraps
around lies in no slab. A call made on an arena is a step; the answers of `calloc`
during the call belong to its label. The invariant behind soundness is that the
blocks of a slab lie below its mark `used`.
-/

namespace InfinityOS

namespace Kernel

open Words Loop Transition

/-! ## Regions -/

/-- The bytes from `start` on. -/
structure Region where
  start : ℕ
  size : ℕ

namespace Region

def stop (r : Region) : ℕ :=
  r.start + r.size

def Apart (r s : Region) : Prop :=
  r.stop ≤ s.start ∨ s.stop ≤ r.start

def Within (r s : Region) : Prop :=
  s.start ≤ r.start ∧ r.stop ≤ s.stop

theorem Apart.symm {r s : Region} (h : r.Apart s) : s.Apart r :=
  Or.symm h

theorem Within.trans {r s t : Region} (h : r.Within s) (h' : s.Within t) : r.Within t :=
  ⟨h'.1.trans h.1, h.2.trans h'.2⟩

theorem Apart.mono {r r' s s' : Region} (h : r.Apart s) (hr : r'.Within r)
    (hs : s'.Within s) : r'.Apart s' := by
  cases h with
  | inl h => exact .inl ((hr.2.trans h).trans hs.1)
  | inr h => exact .inr ((hs.2.trans h).trans hr.1)

end Region

namespace Slab

/-- The block that `calloc` returned for the slab. -/
def block (s : Slab) : Region :=
  ⟨s.addr.toNat, 24 + s.cap.toNat⟩

def area (s : Slab) : Region :=
  ⟨s.addr.toNat + 24, s.cap.toNat⟩

/-- The part of the data area below the mark. -/
def filled (s : Slab) : Region :=
  ⟨s.addr.toNat + 24, s.used.toNat⟩

theorem filled_within_area {s : Slab} (h : s.used.toNat ≤ s.cap.toNat) :
    s.filled.Within s.area :=
  ⟨le_rfl, Nat.add_le_add_left h _⟩

theorem area_within_block (s : Slab) : s.area.Within s.block := by
  constructor
  · exact Nat.le_add_right _ _
  · exact (Nat.add_assoc _ _ _).le

/-- The slab has its header inside its block and passes the test only when the sum in
it does not wrap around. -/
def Honest (s : Slab) (size alignment : Word) : Prop :=
  24 + s.cap.toNat < 2 ^ 64 ∧
    (s.Fits size alignment → s.used.toNat + (s.pad alignment).toNat + size.toNat < 2 ^ 64)

instance (s : Slab) (size alignment : Word) : Decidable (s.Honest size alignment) :=
  inferInstanceAs (Decidable (_ ∧ _))

end Slab

/-! ## Calls -/

structure Block where
  ptr : Word
  size : Word
  alignment : Word

def Block.region (b : Block) : Region :=
  ⟨b.ptr.toNat, b.size.toNat⟩

/-- An alignment of zero asks for nothing. -/
def Block.Aligned (b : Block) : Prop :=
  b.alignment = 0 ∨ b.alignment.toNat ∣ b.ptr.toNat

namespace Arena

/-- An arena with the blocks handed out since the last reset, or memory in which
`slab_new` has written beyond its block. -/
inductive Machine where
  | running (arena : Arena) (blocks : List Block)
  | overrun

inductive Call where
  | alloc (calloc : ℕ → Word → Option Word) (size alignment : Word)
  | reset

inductive Step : Machine → Call → Machine → Prop where
  | served {a a' : Arena} {blocks : List Block} {calloc : ℕ → Word → Option Word}
      {size alignment ptr : Word} {fuel : ℕ}
      (h : a.alloc calloc fuel size alignment = some (.returned (some ptr) a')) :
      Step (.running a blocks) (.alloc calloc size alignment)
        (.running a' (⟨ptr, size, alignment⟩ :: blocks))
  | refused {a a' : Arena} {blocks : List Block} {calloc : ℕ → Word → Option Word}
      {size alignment : Word} {fuel : ℕ}
      (h : a.alloc calloc fuel size alignment = some (.returned none a')) :
      Step (.running a blocks) (.alloc calloc size alignment) (.running a' blocks)
  | overrun {a : Arena} {blocks : List Block} {calloc : ℕ → Word → Option Word}
      {size alignment : Word} {fuel : ℕ}
      (h : a.alloc calloc fuel size alignment = some .overrun) :
      Step (.running a blocks) (.alloc calloc size alignment) .overrun
  | reset {a : Arena} {blocks : List Block} :
      Step (.running a blocks) .reset (.running a.reset [])

/-- The soundness of an arena in use. -/
structure Sound (a : Arena) (blocks : List Block) : Prop where
  aligned : ∀ b ∈ blocks, b.Aligned
  inside : ∀ b ∈ blocks, ∃ s ∈ a.slabs, b.region.Within s.area
  apart : blocks.Pairwise fun b c => b.region.Apart c.region

/-! ## The environment -/

/-- The alignment that `ify_arena_alloc` works with. -/
def effective (alignment : Word) : Word :=
  if alignment = 0 then 1 else alignment

/-- Every block that `calloc` returns lies in the address space. -/
def InSpace (calloc : ℕ → Word → Option Word) : Prop :=
  ∀ n request addr, calloc n request = some addr → addr.toNat + request.toNat ≤ 2 ^ 64

/-- The answers to requests of one size, made from the chain of `a` on, are separate from
the slabs in use and from each other. -/
structure LawfulMemory (calloc : ℕ → Word → Option Word) (a : Arena) (request : Word) :
    Prop where
  inSpace : InSpace calloc
  apart : ∀ n addr, a.slabs.length ≤ n → calloc n request = some addr →
    ∀ s ∈ a.slabs, s.block.Apart ⟨addr.toNat, request.toNat⟩
  distinct : ∀ n m addr addr', a.slabs.length ≤ n → n < m →
    calloc n request = some addr → calloc m request = some addr' →
      Region.Apart ⟨addr.toNat, request.toNat⟩ ⟨addr'.toNat, request.toNat⟩

/-- The slabs that a request is tried on, in order: those of the chain from the current
one on and then the slabs appended for it. -/
def candidate (calloc : ℕ → Word → Option Word) (size alignment : Word) (a : Arena)
    (i : ℕ) : Option Slab :=
  match (a.current :: a.after)[i]? with
  | some s => some s
  | none =>
      (calloc (a.before.length + i) (headerSize + freshCap size alignment)).map fun addr =>
        ⟨addr, freshCap size alignment, 0⟩

/-- The slab on which the trial of the request ends is honest. -/
def WrapFree (calloc : ℕ → Word → Option Word) (size alignment : Word) (a : Arena) : Prop :=
  ∀ i s, a.candidate calloc size alignment i = some s →
    (∀ j < i, ∃ t, a.candidate calloc size alignment j = some t ∧ ¬ t.Fits size alignment) →
      s.Honest size alignment

/-- The answers of `calloc` during a call are lawful. -/
def Call.Lawful : Call → Machine → Prop
  | .alloc calloc size alignment, .running a _ =>
      LawfulMemory calloc a (headerSize + freshCap size (effective alignment))
  | _, _ => True

/-- No sum wraps around in a call that passes the checks of its arguments. -/
def Call.WrapFree : Call → Machine → Prop
  | .alloc calloc size alignment, .running a _ =>
      size ≠ 0 → ValidAlignment (effective alignment) →
        Arena.WrapFree calloc size (effective alignment) a
  | _, _ => True

/-! ## The invariant -/

structure Invariant (a : Arena) (blocks : List Block) : Prop where
  inSpace : ∀ s ∈ a.slabs, s.block.stop ≤ 2 ^ 64
  used_le : ∀ s ∈ a.slabs, s.used.toNat ≤ s.cap.toNat
  slabs_apart : a.slabs.Pairwise fun s t => s.block.Apart t.block
  aligned : ∀ b ∈ blocks, b.Aligned
  filled : ∀ b ∈ blocks, ∃ s ∈ a.slabs, b.region.Within s.filled
  apart : blocks.Pairwise fun b c => b.region.Apart c.region

theorem Invariant.sound {a : Arena} {blocks : List Block} (h : a.Invariant blocks) :
    a.Sound blocks := by
  refine ⟨h.aligned, fun b hb => ?_, h.apart⟩
  obtain ⟨s, hs, hwithin⟩ := h.filled b hb
  exact ⟨s, hs, hwithin.trans (Slab.filled_within_area (h.used_le s hs))⟩

/-- The invariant depends on the chain only. -/
theorem Invariant.of_slabs_eq {a a' : Arena} {blocks : List Block} (h : a.Invariant blocks)
    (hslabs : a'.slabs = a.slabs) : a'.Invariant blocks := by
  constructor
  · rw [hslabs]
    exact h.inSpace
  · rw [hslabs]
    exact h.used_le
  · rw [hslabs]
    exact h.slabs_apart
  · exact h.aligned
  · rw [hslabs]
    exact h.filled
  · exact h.apart

theorem Invariant.append {a a' : Arena} {blocks : List Block} (h : a.Invariant blocks)
    {s : Slab} (hslabs : a'.slabs = a.slabs ++ [s]) (hspace : s.block.stop ≤ 2 ^ 64)
    (hused : s.used = 0) (hapart : ∀ t ∈ a.slabs, t.block.Apart s.block) :
    a'.Invariant blocks := by
  have hmem : ∀ t, t ∈ a'.slabs ↔ t ∈ a.slabs ∨ t = s := by
    intro t
    rw [hslabs, List.mem_append, List.mem_singleton]
  constructor
  · intro t ht
    cases (hmem t).mp ht with
    | inl ht => exact h.inSpace t ht
    | inr ht =>
        rw [ht]
        exact hspace
  · intro t ht
    cases (hmem t).mp ht with
    | inl ht => exact h.used_le t ht
    | inr ht =>
        rw [ht, hused]
        exact Nat.zero_le _
  · rw [hslabs, List.pairwise_append]
    refine ⟨h.slabs_apart, List.pairwise_singleton _ _, fun t ht u hu => ?_⟩
    rw [List.mem_singleton.mp hu]
    exact hapart t ht
  · exact h.aligned
  · intro b hb
    obtain ⟨t, ht, hwithin⟩ := h.filled b hb
    exact ⟨t, (hmem t).mpr (.inl ht), hwithin⟩
  · exact h.apart

theorem slabs_reset (a : Arena) : a.reset.slabs = a.slabs.map Slab.clear := by
  cases hbefore : a.before with
  | nil => simp only [reset, slabs, hbefore, List.nil_append, List.map_cons]
  | cons head rest =>
      simp only [reset, slabs, hbefore, List.nil_append, List.cons_append, List.map_cons]

theorem Invariant.reset {a : Arena} {blocks : List Block} (h : a.Invariant blocks) :
    a.reset.Invariant [] := by
  constructor
  · rw [slabs_reset]
    intro s hs
    obtain ⟨t, ht, rfl⟩ := List.mem_map.mp hs
    exact h.inSpace t ht
  · rw [slabs_reset]
    intro s hs
    obtain ⟨t, ht, rfl⟩ := List.mem_map.mp hs
    exact Nat.zero_le _
  · rw [slabs_reset, List.pairwise_map]
    exact h.slabs_apart
  · intro b hb
    cases hb
  · intro b hb
    cases hb
  · exact List.Pairwise.nil

/-! ## Allocation in a slab -/

end Arena

theorem Slab.room_of_honest {s : Slab} {size alignment : Word} (hspace : s.block.stop ≤ 2 ^ 64)
    (hsize : size ≠ 0) (hhonest : s.Honest size alignment) (hfits : s.Fits size alignment) :
    (s.used + s.needed size alignment).toNat =
        s.used.toNat + (s.pad alignment).toNat + size.toNat ∧
      s.used.toNat + (s.pad alignment).toNat + size.toNat ≤ s.cap.toNat ∧
      s.ptrVal.toNat = s.addr.toNat + 24 + s.used.toNat ∧
      (s.aligned alignment).toNat = s.ptrVal.toNat + (s.pad alignment).toNat := by
  have hwrap := hhonest.2 hfits
  have hpos : size.toNat ≠ 0 := fun h => hsize (BitVec.eq_of_toNat_eq h)
  have hsum : (s.used + s.needed size alignment).toNat =
      s.used.toNat + (s.pad alignment).toNat + size.toNat := by
    rw [Slab.needed, ← BitVec.add_assoc, BitVec.toNat_add, BitVec.toNat_add]
    rw [Nat.mod_add_mod, Nat.mod_eq_of_lt hwrap]
  have hle : s.used.toNat + (s.pad alignment).toNat + size.toNat ≤ s.cap.toNat := by
    rw [← hsum]
    exact BitVec.le_def.mp hfits
  have hstop : s.addr.toNat + (24 + s.cap.toNat) ≤ 2 ^ 64 := hspace
  have hptr : s.ptrVal.toNat = s.addr.toNat + 24 + s.used.toNat := by
    rw [Slab.ptrVal, Slab.data, BitVec.toNat_add, BitVec.toNat_add, Nat.mod_add_mod]
    exact Nat.mod_eq_of_lt (show s.addr.toNat + 24 + s.used.toNat < 2 ^ 64 by omega)
  refine ⟨hsum, hle, hptr, ?_⟩
  have hadd : s.aligned alignment = s.ptrVal + s.pad alignment := by
    rw [Slab.pad, BitVec.add_comm, BitVec.sub_add_cancel]
  rw [hadd, BitVec.toNat_add, Nat.mod_eq_of_lt]
  omega

/-- The block cut from a slab lies behind its filled part and ends at the new mark. -/
structure Slab.Cut (s : Slab) (size alignment : Word) : Prop where
  le_start : s.filled.stop ≤ (s.aligned alignment).toNat
  stop_eq : (s.aligned alignment).toNat + size.toNat =
    s.addr.toNat + 24 + (s.used + s.needed size alignment).toNat
  le_cap : (s.used + s.needed size alignment).toNat ≤ s.cap.toNat

theorem Slab.cut_of_honest {s : Slab} {size alignment : Word} (hspace : s.block.stop ≤ 2 ^ 64)
    (hsize : size ≠ 0) (hhonest : s.Honest size alignment) (hfits : s.Fits size alignment) :
    s.Cut size alignment := by
  obtain ⟨hsum, -, hptr, haligned⟩ := Slab.room_of_honest hspace hsize hhonest hfits
  constructor
  · rw [haligned, hptr]
    exact Nat.le_add_right _ _
  · rw [haligned, hptr, hsum]
    omega
  · exact BitVec.le_def.mp hfits

theorem Slab.dvd_aligned {s : Slab} {size alignment : Word} (hspace : s.block.stop ≤ 2 ^ 64)
    (hsize : size ≠ 0) (hhonest : s.Honest size alignment) (hfits : s.Fits size alignment)
    (hvalid : ValidAlignment alignment) :
    alignment.toNat ∣ (s.aligned alignment).toNat := by
  obtain ⟨-, -, -, haligned⟩ := Slab.room_of_honest hspace hsize hhonest hfits
  obtain ⟨k, hk, rfl⟩ := exists_twoPow_of_valid hvalid
  have hlt : k < 64 := by omega
  rw [haligned, BitVec.toNat_twoPow_of_lt hlt]
  exact dvd_add_padding hlt _

namespace Slab.Cut

variable {s : Slab} {size alignment requested : Word} {b : Block}

/-- The slab behind the cut. -/
def rest (s : Slab) (size alignment : Word) : Slab :=
  { s with used := s.used + s.needed size alignment }

theorem within_filled (h : s.Cut size alignment) :
    (Block.mk (s.aligned alignment) size requested).region.Within
      (rest s size alignment).filled :=
  ⟨(Nat.le_add_right _ _).trans h.le_start, h.stop_eq.le⟩

theorem within_area (h : s.Cut size alignment) :
    (Block.mk (s.aligned alignment) size requested).region.Within s.area :=
  h.within_filled.trans ⟨le_rfl, Nat.add_le_add_left h.le_cap _⟩

theorem filled_within (h : s.Cut size alignment) :
    s.filled.Within (rest s size alignment).filled :=
  ⟨le_rfl, (h.le_start.trans (Nat.le_add_right _ size.toNat)).trans h.stop_eq.le⟩

theorem apart_of_filled (h : s.Cut size alignment) (hb : b.region.Within s.filled) :
    (Block.mk (s.aligned alignment) size requested).region.Apart b.region :=
  Or.inr (hb.2.trans h.le_start)

end Slab.Cut

namespace Arena

theorem mem_slabs {a : Arena} {s : Slab} :
    s ∈ a.slabs ↔ s = a.current ∨ s ∈ a.before ++ a.after := by
  rw [slabs, List.mem_append, List.mem_cons, List.mem_append]
  tauto

theorem Invariant.apart_current {a : Arena} {blocks : List Block} (h : a.Invariant blocks)
    {s : Slab} (hs : s ∈ a.before ++ a.after) : s.block.Apart a.current.block := by
  have hpair := h.slabs_apart
  rw [slabs, List.pairwise_append, List.pairwise_cons] at hpair
  cases List.mem_append.mp hs with
  | inl hs => exact hpair.2.2 s hs _ List.mem_cons_self
  | inr hs => exact (hpair.2.1.1 s hs).symm

theorem blocks_bump (a : Arena) (size alignment : Word) :
    (a.bump size alignment).slabs.map Slab.block = a.slabs.map Slab.block := by
  rw [slabs, slabs, List.map_append, List.map_append, List.map_cons, List.map_cons]
  rfl

theorem Invariant.bump {a : Arena} {blocks : List Block} (h : a.Invariant blocks)
    {size alignment requested : Word} (hsize : size ≠ 0) (hvalid : ValidAlignment alignment)
    (hrequested : requested = 0 ∨ requested = alignment)
    (hhonest : a.current.Honest size alignment) (hfits : a.current.Fits size alignment) :
    (a.bump size alignment).Invariant
      (⟨a.current.aligned alignment, size, requested⟩ :: blocks) := by
  have hcurrent : a.current ∈ a.slabs := mem_slabs.mpr (.inl rfl)
  have hcut := Slab.cut_of_honest (h.inSpace _ hcurrent) hsize hhonest hfits
  have hmem : ∀ s, s ∈ (a.bump size alignment).slabs ↔
      s = (a.bump size alignment).current ∨ s ∈ a.before ++ a.after := fun s => mem_slabs
  constructor
  · intro s hs
    cases (hmem s).mp hs with
    | inl hs =>
        rw [hs]
        exact h.inSpace a.current hcurrent
    | inr hs => exact h.inSpace s (mem_slabs.mpr (.inr hs))
  · intro s hs
    cases (hmem s).mp hs with
    | inl hs =>
        rw [hs]
        exact hcut.le_cap
    | inr hs => exact h.used_le s (mem_slabs.mpr (.inr hs))
  · have hpair : (a.slabs.map Slab.block).Pairwise Region.Apart :=
      List.pairwise_map.mpr h.slabs_apart
    rw [← blocks_bump a size alignment] at hpair
    exact List.pairwise_map.mp hpair
  · rw [List.forall_mem_cons]
    refine ⟨?_, h.aligned⟩
    cases hrequested with
    | inl hzero => exact .inl hzero
    | inr heq =>
        right
        rw [heq]
        exact Slab.dvd_aligned (h.inSpace _ hcurrent) hsize hhonest hfits hvalid
  · rw [List.forall_mem_cons]
    constructor
    · exact ⟨(a.bump size alignment).current, (hmem _).mpr (.inl rfl), hcut.within_filled⟩
    · intro b hb
      obtain ⟨s, hs, hwithin⟩ := h.filled b hb
      cases mem_slabs.mp hs with
      | inl hs =>
          rw [hs] at hwithin
          exact ⟨(a.bump size alignment).current, (hmem _).mpr (.inl rfl),
            hwithin.trans hcut.filled_within⟩
      | inr hs => exact ⟨s, (hmem s).mpr (.inr hs), hwithin⟩
  · refine List.pairwise_cons.mpr ⟨fun b hb => ?_, h.apart⟩
    obtain ⟨s, hs, hwithin⟩ := h.filled b hb
    cases mem_slabs.mp hs with
    | inl hs =>
        rw [hs] at hwithin
        exact hcut.apart_of_filled hwithin
    | inr hs =>
        have hold := hwithin.trans (Slab.filled_within_area
          (h.used_le s (mem_slabs.mpr (.inr hs))))
        exact ((h.apart_current hs).symm).mono
          (hcut.within_area.trans (Slab.area_within_block _))
          (hold.trans (Slab.area_within_block s))

/-! ## Walking along the chain -/

theorem slabNew_of_none {calloc : ℕ → Word → Option Word} {size alignment : Word} {n : ℕ}
    (h : calloc n (headerSize + freshCap size alignment) = none) :
    slabNew (calloc n) (newCap size alignment) = .null := by
  unfold slabNew
  dsimp only
  rw [← freshCap, h]

theorem slabNew_of_some {calloc : ℕ → Word → Option Word} {size alignment addr : Word} {n : ℕ}
    (h : calloc n (headerSize + freshCap size alignment) = some addr)
    (hheader : ¬ headerSize + freshCap size alignment < headerSize) :
    slabNew (calloc n) (newCap size alignment) =
      .slab ⟨addr, freshCap size alignment, 0⟩ := by
  unfold slabNew
  dsimp only
  rw [← freshCap, h]
  exact if_neg hheader

section Walk

variable {calloc : ℕ → Word → Option Word} {size alignment : Word} {a : Arena}

theorem candidate_zero : a.candidate calloc size alignment 0 = some a.current := rfl

theorem candidate_moveTo {s : Slab} {rest : List Slab}
    (hs : a.candidate calloc size alignment 1 = some s)
    (hrest : rest = a.after.tail) (i : ℕ) :
    (a.moveTo s rest).candidate calloc size alignment i =
      a.candidate calloc size alignment (i + 1) := by
  have hlength : (a.before ++ [a.current]).length + i = a.before.length + (i + 1) := by
    rw [List.length_append, List.length_singleton]
    omega
  cases hafter : a.after with
  | nil =>
      rw [hafter] at hrest
      subst hrest
      cases i with
      | zero => exact hs.symm
      | succ i =>
          simp only [candidate, moveTo, hafter, hlength]
          rfl
  | cons t ts =>
      rw [hafter] at hrest
      subst hrest
      have hts : s = t := by
        simp only [candidate, hafter] at hs
        exact (Option.some.inj hs).symm
      simp only [candidate, moveTo, hafter, hlength, hts]
      rfl

theorem WrapFree.moveTo (h : WrapFree calloc size alignment a)
    (hfits : ¬ a.current.Fits size alignment) {s : Slab} {rest : List Slab}
    (hs : a.candidate calloc size alignment 1 = some s) (hrest : rest = a.after.tail) :
    WrapFree calloc size alignment (a.moveTo s rest) := by
  intro i t ht hbefore
  rw [candidate_moveTo hs hrest] at ht
  apply h (i + 1) t ht
  intro j hj
  cases j with
  | zero => exact ⟨a.current, candidate_zero, hfits⟩
  | succ j =>
      rw [← candidate_moveTo hs hrest]
      exact hbefore j (Nat.lt_of_succ_lt_succ hj)

theorem length_slabs : a.slabs.length = a.before.length + (a.after.length + 1) := by
  rw [slabs, List.length_append, List.length_cons]

theorem LawfulMemory.append {request addr : Word} {a' : Arena}
    (h : LawfulMemory calloc a request) {s : Slab}
    (haddr : calloc a.slabs.length request = some addr)
    (hblock : s.block = ⟨addr.toNat, request.toNat⟩) (hslabs : a'.slabs = a.slabs ++ [s]) :
    LawfulMemory calloc a' request := by
  have hlength : a'.slabs.length = a.slabs.length + 1 := by
    rw [hslabs, List.length_append, List.length_singleton]
  constructor
  · exact h.inSpace
  · intro n addr' hn hcalloc t ht
    rw [hslabs, List.mem_append, List.mem_singleton] at ht
    cases ht with
    | inl ht => exact h.apart n addr' (by omega) hcalloc t ht
    | inr ht =>
        rw [ht, hblock]
        exact h.distinct a.slabs.length n addr addr' le_rfl (by omega) haddr hcalloc
  · intro n m addr' addr'' hn hnm hcalloc hcalloc'
    exact h.distinct n m addr' addr'' (by omega) hnm hcalloc hcalloc'

end Walk

/-! ## One call -/

/-- What holds between the rounds of a call. -/
structure Walking (calloc : ℕ → Word → Option Word) (size alignment : Word)
    (blocks : List Block) (a : Arena) : Prop where
  invariant : a.Invariant blocks
  lawful : LawfulMemory calloc a (headerSize + freshCap size alignment)
  wrapFree : WrapFree calloc size alignment a

section Call

variable {calloc : ℕ → Word → Option Word} {size alignment : Word} {blocks : List Block}
  {a : Arena}

theorem candidate_one_of_end (hafter : a.after = []) :
    a.candidate calloc size alignment 1 =
      (calloc a.slabs.length (headerSize + freshCap size alignment)).map fun addr =>
        ⟨addr, freshCap size alignment, 0⟩ := by
  have hlength : a.slabs.length = a.before.length + 1 := by
    rw [length_slabs, hafter]
    rfl
  simp only [candidate, hafter, hlength]
  rfl

theorem Walking.toNat_request (h : Walking calloc size alignment blocks a)
    (hfits : ¬ a.current.Fits size alignment) (hafter : a.after = []) {addr : Word}
    (haddr : calloc a.slabs.length (headerSize + freshCap size alignment) = some addr) :
    (headerSize + freshCap size alignment).toNat = 24 + (freshCap size alignment).toNat := by
  have hone : a.candidate calloc size alignment 1 = some ⟨addr, freshCap size alignment, 0⟩ := by
    rw [candidate_one_of_end hafter, haddr]
    rfl
  have hhonest := h.wrapFree 1 _ hone fun j hj =>
    ⟨a.current, by rw [Nat.lt_one_iff.mp hj, candidate_zero], hfits⟩
  rw [BitVec.toNat_add]
  exact Nat.mod_eq_of_lt hhonest.1

theorem Walking.not_header_lt (h : Walking calloc size alignment blocks a)
    (hfits : ¬ a.current.Fits size alignment) (hafter : a.after = []) {addr : Word}
    (haddr : calloc a.slabs.length (headerSize + freshCap size alignment) = some addr) :
    ¬ headerSize + freshCap size alignment < headerSize := by
  rw [BitVec.not_lt, BitVec.le_def, h.toNat_request hfits hafter haddr]
  exact Nat.le_add_right _ _

theorem Walking.advance (h : Walking calloc size alignment blocks a)
    (hfits : ¬ a.current.Fits size alignment) {s : Slab} {rest : List Slab}
    (hafter : a.after = s :: rest) : Walking calloc size alignment blocks (a.moveTo s rest) := by
  have hslabs := slabs_moveTo hafter
  have hone : a.candidate calloc size alignment 1 = some s := by
    simp only [candidate, hafter]
    rfl
  refine ⟨h.invariant.of_slabs_eq hslabs, ?_, h.wrapFree.moveTo hfits hone ?_⟩
  · constructor
    · exact h.lawful.inSpace
    · rw [hslabs]
      exact h.lawful.apart
    · rw [hslabs]
      exact h.lawful.distinct
  · rw [hafter]
    rfl

theorem Walking.grow (h : Walking calloc size alignment blocks a)
    (hfits : ¬ a.current.Fits size alignment) (hafter : a.after = []) {addr : Word}
    (haddr : calloc a.slabs.length (headerSize + freshCap size alignment) = some addr) :
    Walking calloc size alignment blocks (a.moveTo ⟨addr, freshCap size alignment, 0⟩ []) := by
  have hslabs : (a.moveTo ⟨addr, freshCap size alignment, 0⟩ []).slabs =
      a.slabs ++ [⟨addr, freshCap size alignment, 0⟩] := slabs_moveTo_end hafter
  have hblock : (Slab.mk addr (freshCap size alignment) 0).block =
      ⟨addr.toNat, (headerSize + freshCap size alignment).toNat⟩ := by
    rw [h.toNat_request hfits hafter haddr]
    rfl
  have hone : a.candidate calloc size alignment 1 =
      some ⟨addr, freshCap size alignment, 0⟩ := by
    rw [candidate_one_of_end hafter, haddr]
    rfl
  refine ⟨?_, h.lawful.append haddr hblock hslabs, h.wrapFree.moveTo hfits hone ?_⟩
  · apply h.invariant.append hslabs
    · rw [hblock]
      exact h.lawful.inSpace _ _ _ haddr
    · rfl
    · rw [hblock]
      exact h.lawful.apart _ _ le_rfl haddr
  · rw [hafter]
    rfl

/-- What a round does: it serves the request, goes on along the chain, gives up at its end
or appends a slab there. -/
inductive RoundCase (calloc : ℕ → Word → Option Word) (size alignment : Word) (a : Arena) :
    Outcome ⊕ Arena → Prop where
  | served (hfits : a.current.Fits size alignment) :
      RoundCase calloc size alignment a
        (.inl (.returned (some (a.current.aligned alignment)) (a.bump size alignment)))
  | moved (hfits : ¬ a.current.Fits size alignment) (s : Slab) (rest : List Slab)
      (hafter : a.after = s :: rest) :
      RoundCase calloc size alignment a (.inr (a.moveTo s rest))
  | exhausted (hfits : ¬ a.current.Fits size alignment) (hafter : a.after = []) :
      RoundCase calloc size alignment a (.inl (.returned none a))
  | grown (hfits : ¬ a.current.Fits size alignment) (hafter : a.after = []) (addr : Word)
      (haddr : calloc a.slabs.length (headerSize + freshCap size alignment) = some addr) :
      RoundCase calloc size alignment a
        (.inr (a.moveTo ⟨addr, freshCap size alignment, 0⟩ []))

theorem Walking.roundCase (h : Walking calloc size alignment blocks a) :
    RoundCase calloc size alignment a (allocRound calloc size alignment a) := by
  by_cases hfits : a.current.Fits size alignment
  · rw [allocRound_of_fits hfits]
    exact .served hfits
  cases hafter : a.after with
  | cons s rest =>
      rw [allocRound_of_next hfits hafter]
      exact .moved hfits s rest hafter
  | nil =>
      rw [allocRound_of_end calloc hfits hafter]
      cases haddr : calloc a.slabs.length (headerSize + freshCap size alignment) with
      | none =>
          rw [slabNew_of_none haddr]
          exact .exhausted hfits hafter
      | some addr =>
          rw [slabNew_of_some haddr (h.not_header_lt hfits hafter haddr)]
          exact .grown hfits hafter addr haddr

/-- A round that goes on keeps the invariant. -/
theorem Walking.next (h : Walking calloc size alignment blocks a) {a' : Arena}
    (hround : allocRound calloc size alignment a = .inr a') :
    Walking calloc size alignment blocks a' := by
  have hcase := h.roundCase
  rw [hround] at hcase
  cases hcase with
  | moved hfits s rest hafter => exact h.advance hfits hafter
  | grown hfits hafter addr haddr => exact h.grow hfits hafter haddr

theorem Walking.leave (h : Walking calloc size alignment blocks a) (hsize : size ≠ 0)
    (hvalid : ValidAlignment alignment) {requested : Word}
    (hrequested : requested = 0 ∨ requested = alignment) {o : Outcome}
    (hround : allocRound calloc size alignment a = .inl o) :
    (∃ a', o = .returned none a' ∧ a'.Invariant blocks) ∨
      ∃ ptr a', o = .returned (some ptr) a' ∧ a'.Invariant (⟨ptr, size, requested⟩ :: blocks) := by
  have hcase := h.roundCase
  rw [hround] at hcase
  cases hcase with
  | served hfits =>
      right
      have hhonest := h.wrapFree 0 a.current candidate_zero fun j hj =>
        absurd hj (Nat.not_lt_zero j)
      exact ⟨_, _, rfl, h.invariant.bump hsize hvalid hrequested hhonest hfits⟩
  | exhausted hfits hafter => exact .inl ⟨a, rfl, h.invariant⟩

theorem alloc_cases {fuel : ℕ} {o : Outcome}
    (h : a.alloc calloc fuel size alignment = some o) :
    o = .returned none a ∨ (size ≠ 0 ∧ ValidAlignment (effective alignment) ∧
      Ends (allocRound calloc size (effective alignment)) a o) := by
  by_cases hsize : size = 0
  · rw [alloc, if_pos hsize] at h
    exact .inl (Option.some.inj h).symm
  rw [alloc, if_neg hsize] at h
  by_cases hcheck : effective alignment > maxAlign ∨
      effective alignment &&& (effective alignment - 1) ≠ 0
  · left
    exact (Option.some.inj ((if_pos hcheck).symm.trans h)).symm
  · right
    have hrun := (if_neg hcheck).symm.trans h
    have hne : effective alignment ≠ 0 := by
      unfold effective
      split
      · decide
      · next h => exact h
    refine ⟨hsize, ⟨hne, ?_, ?_⟩, fuel, hrun⟩
    · exact BitVec.not_lt.mp fun hlarge => hcheck (.inl hlarge)
    · by_contra hmask
      exact hcheck (.inr hmask)

/-- A lawful call without wrap-around keeps the invariant and does not overrun. -/
theorem Invariant.alloc (h : a.Invariant blocks)
    (hlawful : LawfulMemory calloc a (headerSize + freshCap size (effective alignment)))
    (hwrap : size ≠ 0 → ValidAlignment (effective alignment) →
      WrapFree calloc size (effective alignment) a) {fuel : ℕ} {o : Outcome}
    (hcall : a.alloc calloc fuel size alignment = some o) :
    (∃ a', o = .returned none a' ∧ a'.Invariant blocks) ∨
      ∃ ptr a', o = .returned (some ptr) a' ∧ a'.Invariant (⟨ptr, size, alignment⟩ :: blocks) := by
  cases alloc_cases hcall with
  | inl hrefused => exact .inl ⟨a, hrefused, h⟩
  | inr hloop =>
      obtain ⟨hsize, hvalid, hends⟩ := hloop
      have hrequested : alignment = 0 ∨ alignment = effective alignment := by
        unfold effective
        split
        · next hzero => exact .inl hzero
        · exact .inr rfl
      apply hends.invariant (Walking calloc size (effective alignment) blocks)
        (fun o => (∃ a', o = .returned none a' ∧ a'.Invariant blocks) ∨
          ∃ ptr a', o = .returned (some ptr) a' ∧
            a'.Invariant (⟨ptr, size, alignment⟩ :: blocks))
      · exact ⟨h, hlawful, hwrap hsize hvalid⟩
      · intro b b' hb hround
        exact hb.next hround
      · intro b o hb hround
        exact hb.leave hsize hvalid hrequested hround

end Call

/-! ## Runs -/

theorem exists_of_slabNew_eq {calloc : Word → Option Word} {minCap : Word} {s : Slab}
    (h : slabNew calloc minCap = .slab s) :
    calloc (headerSize + s.cap) = some s.addr ∧ s.used = 0 ∧
      (headerSize + s.cap).toNat = 24 + s.cap.toNat := by
  simp only [slabNew] at h
  generalize (if minCap < defaultCap then defaultCap else minCap) = cap at h
  cases haddr : calloc (headerSize + cap) with
  | none =>
      rw [haddr] at h
      cases h
  | some addr =>
      rw [haddr] at h
      dsimp only at h
      split at h
      · cases h
      · next hheader =>
          cases h
          refine ⟨haddr, rfl, ?_⟩
          rw [BitVec.not_lt, BitVec.le_def] at hheader
          have hlt := cap.isLt
          change 24 ≤ (24 + cap.toNat) % 2 ^ 64 at hheader
          change (24 + cap.toNat) % 2 ^ 64 = 24 + cap.toNat
          omega

theorem Invariant.of_create {calloc : ℕ → Word → Option Word} {initialCap : Word} {a : Arena}
    (hspace : InSpace calloc) (h : arenaCreate calloc initialCap = .arena a) :
    a.Invariant [] := by
  simp only [arenaCreate] at h
  generalize (if initialCap = 0 then defaultCap else initialCap) = cap at h
  cases hrecord : calloc 0 24 with
  | none =>
      rw [hrecord] at h
      cases h
  | some record =>
      rw [hrecord] at h
      cases hslab : slabNew (calloc 1) cap with
      | null =>
          rw [hslab] at h
          cases h
      | overrun =>
          rw [hslab] at h
          cases h
      | slab s =>
          rw [hslab] at h
          cases h
          obtain ⟨haddr, hused, hrequest⟩ := exists_of_slabNew_eq hslab
          constructor
          · intro t ht
            rw [List.mem_singleton.mp ht, Slab.block, Region.stop, ← hrequest]
            exact hspace _ _ _ haddr
          · intro t ht
            rw [List.mem_singleton.mp ht, hused]
            exact Nat.zero_le _
          · exact List.pairwise_singleton _ _
          · intro b hb
            cases hb
          · intro b hb
            cases hb
          · exact List.Pairwise.nil

theorem Invariant.step {a : Arena} {blocks : List Block} (h : a.Invariant blocks) {c : Call}
    (hlawful : c.Lawful (.running a blocks)) (hwrap : c.WrapFree (.running a blocks))
    {m : Machine} (hstep : Step (.running a blocks) c m) :
    ∃ a' blocks', m = .running a' blocks' ∧ a'.Invariant blocks' := by
  cases hstep with
  | served hcall =>
      cases h.alloc hlawful hwrap hcall with
      | inl hnone =>
          obtain ⟨b, heq, -⟩ := hnone
          cases heq
      | inr hsome =>
          obtain ⟨ptr, b, heq, hinv⟩ := hsome
          cases heq
          exact ⟨_, _, rfl, hinv⟩
  | refused hcall =>
      cases h.alloc hlawful hwrap hcall with
      | inl hnone =>
          obtain ⟨b, heq, hinv⟩ := hnone
          cases heq
          exact ⟨_, _, rfl, hinv⟩
      | inr hsome =>
          obtain ⟨ptr, b, heq, -⟩ := hsome
          cases heq
  | overrun hcall =>
      cases h.alloc hlawful hwrap hcall with
      | inl hnone =>
          obtain ⟨b, heq, -⟩ := hnone
          cases heq
      | inr hsome =>
          obtain ⟨ptr, b, heq, -⟩ := hsome
          cases heq
  | reset => exact ⟨a.reset, [], rfl, h.reset⟩

/-- A run of calls on a new arena in which no sum wraps around stays sound. -/
theorem sound_of_wrapFree {calloc : ℕ → Word → Option Word} {initialCap : Word} {a : Arena}
    (hspace : InSpace calloc) (hcreate : arenaCreate calloc initialCap = .arena a) {m : Machine}
    (hrun : Reach Step (fun m c => c.Lawful m ∧ c.WrapFree m) (.running a []) m) :
    ∃ a' blocks, m = .running a' blocks ∧ a'.Sound blocks := by
  have hinv : ∃ a' blocks, m = .running a' blocks ∧ a'.Invariant blocks := by
    apply hrun.invariant (fun m => ∃ a' blocks, m = .running a' blocks ∧ a'.Invariant blocks)
    · exact ⟨a, [], rfl, Invariant.of_create hspace hcreate⟩
    · intro m c m' hm hc hstep
      obtain ⟨a', blocks, rfl, hinv⟩ := hm
      exact hinv.step hc.1 hc.2 hstep
  obtain ⟨a', blocks, heq, hinv⟩ := hinv
  exact ⟨a', blocks, heq, hinv.sound⟩

/-! ## An allocation near the largest size -/

/-- Memory with room for one arena, whose slab lies at the address 65536. -/
def oneSlab (n : ℕ) (request : Word) : Option Word :=
  if n = 0 ∧ request = 24 then some 16
  else if n = 1 ∧ request = 65560 then some 65536 else none

/-- The arena made in that memory. -/
def oneSlabArena : Arena :=
  { before := [], current := ⟨65536, 65536, 0⟩, after := [], allocCount := 0 }

theorem oneSlab_inSpace : InSpace oneSlab := by
  intro n request addr h
  unfold oneSlab at h
  split at h
  · next hrecord =>
      cases h
      rw [hrecord.2]
      decide
  · split at h
    · next hslab =>
        cases h
        rw [hslab.2]
        decide
    · cases h

theorem oneSlab_create : arenaCreate oneSlab 0 = .arena oneSlabArena := rfl

/-- Memory without room for a further slab. -/
def exhausted (_ : ℕ) (_ : Word) : Option Word :=
  none

theorem lawful_exhausted (a : Arena) (request : Word) :
    LawfulMemory exhausted a request := by
  constructor
  · intro n request addr h
    cases h
  · intro n addr _ h
    cases h
  · intro n m addr addr' _ _ h
    cases h

theorem wrapFree_of_fits {calloc : ℕ → Word → Option Word} {size alignment : Word} {a : Arena}
    (hfits : a.current.Fits size alignment) (hhonest : a.current.Honest size alignment) :
    WrapFree calloc size alignment a := by
  intro i s hs hbefore
  cases i with
  | zero =>
      rw [candidate_zero] at hs
      cases hs
      exact hhonest
  | succ i =>
      obtain ⟨t, ht, hnot⟩ := hbefore 0 (Nat.succ_pos i)
      rw [candidate_zero] at ht
      cases ht
      exact absurd hfits hnot

/-- Memory with room for a second slab, at the address 196608. -/
def secondSlab (n : ℕ) (request : Word) : Option Word :=
  if n = 1 ∧ request = 65560 then some 196608 else none

theorem secondSlab_eq_some {n : ℕ} {request addr : Word}
    (h : secondSlab n request = some addr) : n = 1 ∧ request = 65560 ∧ addr = 196608 := by
  unfold secondSlab at h
  split at h
  · next hroom =>
      cases h
      exact ⟨hroom.1, hroom.2, rfl⟩
  · cases h

theorem lawful_secondSlab {a : Arena} (hbelow : ∀ s ∈ a.slabs, s.block.stop ≤ 196608)
    (request : Word) : LawfulMemory secondSlab a request := by
  constructor
  · intro n request addr h
    obtain ⟨-, rfl, rfl⟩ := secondSlab_eq_some h
    decide
  · intro n addr _ h s hs
    obtain ⟨-, -, rfl⟩ := secondSlab_eq_some h
    exact .inl (hbelow s hs)
  · intro n m addr addr' _ hlt h h'
    obtain ⟨rfl, -⟩ := secondSlab_eq_some h
    obtain ⟨rfl, -⟩ := secondSlab_eq_some h'
    exact absurd hlt (lt_irrefl 1)

theorem wrapFree_of_second {size alignment : Word} {a : Arena} (hbefore : a.before = [])
    (hafter : a.after = []) (hcurrent : a.current.Honest size alignment)
    (hsecond : (⟨196608, 65536, 0⟩ : Slab).Honest size alignment)
    (hcap : freshCap size alignment = 65536) :
    WrapFree secondSlab size alignment a := by
  intro i s hs _
  cases i with
  | zero =>
      rw [candidate_zero] at hs
      cases hs
      exact hcurrent
  | succ i =>
      rw [candidate, hafter, hbefore, hcap] at hs
      obtain ⟨addr, haddr, rfl⟩ := Option.map_eq_some_iff.mp hs
      obtain ⟨-, -, rfl⟩ := secondSlab_eq_some haddr
      exact hsecond

/-- The arena after two requests, the second of which takes a second slab. -/
def twoSlabArena : Arena :=
  { before := [⟨65536, 65536, 100⟩], current := ⟨196608, 65536, 65520⟩, after := []
    allocCount := 2 }

/-- Two requests, a reset and two more requests. -/
theorem sound_of_wrapFree_small :
    ∃ a' blocks, Machine.running ((twoSlabArena.reset.bump 200 16).bump 32 1)
      [⟨65768, 32, 0⟩, ⟨65568, 200, 16⟩] = .running a' blocks ∧ a'.Sound blocks := by
  apply sound_of_wrapFree oneSlab_inSpace oneSlab_create
  have hfirst : oneSlabArena.alloc exhausted 1 100 8 =
      some (.returned (some 65560) (oneSlabArena.bump 100 8)) := rfl
  have hsecond : (oneSlabArena.bump 100 8).alloc secondSlab 3 65480 64 =
      some (.returned (some 196672) twoSlabArena) := rfl
  have hthird : twoSlabArena.reset.alloc exhausted 1 200 16 =
      some (.returned (some 65568) (twoSlabArena.reset.bump 200 16)) := rfl
  have hfourth : (twoSlabArena.reset.bump 200 16).alloc exhausted 1 32 0 =
      some (.returned (some 65768) ((twoSlabArena.reset.bump 200 16).bump 32 1)) := rfl
  have hchain : Reach Step (fun m c => c.Lawful m ∧ c.WrapFree m) (.running oneSlabArena [])
      (.running twoSlabArena [⟨196672, 65480, 64⟩, ⟨65560, 100, 8⟩]) := by
    refine .tail (a := .alloc secondSlab 65480 64) (.tail (a := .alloc exhausted 100 8) .refl
      ⟨lawful_exhausted _ _, fun _ _ => ?_⟩ (.served hfirst))
      ⟨lawful_secondSlab (by decide) _, fun _ _ => ?_⟩ (.served hsecond)
    · exact wrapFree_of_fits (by decide) (by decide)
    · exact wrapFree_of_second rfl rfl (by decide) (by decide) (by decide)
  refine .tail (a := .alloc exhausted 32 0) (.tail (a := .alloc exhausted 200 16)
    (.tail (a := .reset) hchain ⟨trivial, trivial⟩ .reset)
    ⟨lawful_exhausted _ _, fun _ _ => ?_⟩ (.served hthird))
    ⟨lawful_exhausted _ _, fun _ _ => ?_⟩ (.served hfourth)
  · exact wrapFree_of_fits (by decide) (by decide)
  · exact wrapFree_of_fits (by decide) (by decide)

/-- A block of `2 ^ 64 - 8` bytes at an alignment of 16 is handed out from a slab of
64 KiB, since its size and its padding of 8 bytes add up to zero, and the next block
overlaps it. -/
theorem exists_unsound :
    InSpace oneSlab ∧ arenaCreate oneSlab 0 = .arena oneSlabArena ∧
      ∃ a' blocks, Reach Step (fun m c => c.Lawful m) (.running oneSlabArena [])
        (.running a' blocks) ∧ ¬ a'.Sound blocks := by
  refine ⟨oneSlab_inSpace, oneSlab_create, (oneSlabArena.bump (-8) 16).bump 8 16,
    [⟨65568, 8, 16⟩, ⟨65568, -8, 16⟩], ?_, fun hsound => ?_⟩
  · have hfirst : oneSlabArena.alloc exhausted 1 (-8) 16 =
        some (.returned (some 65568) (oneSlabArena.bump (-8) 16)) := rfl
    have hsecond : (oneSlabArena.bump (-8) 16).alloc exhausted 1 8 16 =
        some (.returned (some 65568) ((oneSlabArena.bump (-8) 16).bump 8 16)) := rfl
    refine .tail (a := .alloc exhausted 8 16) (.tail (a := .alloc exhausted (-8) 16) .refl ?_
      (.served hfirst)) ?_ (.served hsecond)
    · exact lawful_exhausted _ _
    · exact lawful_exhausted _ _
  · have hapart := List.rel_of_pairwise_cons hsound.apart (List.mem_singleton.mpr rfl)
    cases hapart with
    | inl h =>
        change 65568 + 8 ≤ 65568 at h
        omega
    | inr h =>
        change 65568 + (2 ^ 64 - 8) ≤ 65568 at h
        omega

end Arena

end Kernel

end InfinityOS
