import InfinityOS.Transition.Loop
import InfinityOS.Words.Align

/-!
# The arena allocator

The bump allocator of the kernel over a chain of slabs. `size_t` and `uintptr_t`
are 64-bit words, so every sum is taken modulo `2 ^ 64`. The chain is kept as the
slabs before the current one, the current slab and those after it. Memory itself
is an address for each slab: `calloc n size` is the answer to the request of
`size` bytes made when the chain has `n` slabs.
-/

namespace InfinityOS

namespace Kernel

open Words

abbrev Word := BitVec 64

/-- `IFY_ARENA_DEFAULT_CAP`. -/
def defaultCap : Word := 64 * 1024

/-- `IFY_ARENA_MAX_ALIGN`. -/
def maxAlign : Word := 4096

/-- `sizeof(ify_arena_slab_t)`. -/
def headerSize : Word := 24

structure Slab where
  addr : Word
  cap : Word
  used : Word
  deriving DecidableEq

namespace Slab

/-- `slab_data`: the first byte behind the header. -/
def data (s : Slab) : Word :=
  s.addr + headerSize

/-- The address of the first free byte. -/
def ptrVal (s : Slab) : Word :=
  s.data + s.used

def aligned (s : Slab) (alignment : Word) : Word :=
  alignUp s.ptrVal alignment

def pad (s : Slab) (alignment : Word) : Word :=
  s.aligned alignment - s.ptrVal

def needed (s : Slab) (size alignment : Word) : Word :=
  s.pad alignment + size

/-- The test of `ify_arena_alloc`. -/
def Fits (s : Slab) (size alignment : Word) : Prop :=
  s.used + s.needed size alignment ≤ s.cap

instance (s : Slab) (size alignment : Word) : Decidable (s.Fits size alignment) :=
  inferInstanceAs (Decidable (_ ≤ _))

/-- The slab after `ify_arena_reset`. -/
def clear (s : Slab) : Slab :=
  { s with used := 0 }

end Slab

/-- How `slab_new` ends: without memory, with a header that is written beyond its
block because the sum of header and capacity wrapped around, or with a slab. -/
inductive SlabNew where
  | null
  | overrun
  | slab (s : Slab)

def slabNew (calloc : Word → Option Word) (minCap : Word) : SlabNew :=
  let cap := if minCap < defaultCap then defaultCap else minCap
  match calloc (headerSize + cap) with
  | none => .null
  | some addr =>
      if headerSize + cap < headerSize then .overrun else .slab { addr, cap, used := 0 }

structure Arena where
  before : List Slab
  current : Slab
  after : List Slab
  allocCount : UInt64

/-- How a call ends: with a pointer or `NULL` and the arena after it, or in
`slab_new` with a header written beyond its block. -/
inductive Outcome where
  | returned (ptr : Option Word) (arena : Arena)
  | overrun

namespace Arena

/-- The chain from the head on. -/
def slabs (a : Arena) : List Slab :=
  a.before ++ a.current :: a.after

/-- The current slab becomes `s`, which is followed by `rest`. -/
def moveTo (a : Arena) (s : Slab) (rest : List Slab) : Arena :=
  { a with before := a.before ++ [a.current], current := s, after := rest }

def bump (a : Arena) (size alignment : Word) : Arena :=
  { a with
    current := { a.current with used := a.current.used + a.current.needed size alignment }
    allocCount := a.allocCount + 1 }

/-- The capacity asked of `slab_new` when the chain is at its end. -/
def newCap (size alignment : Word) : Word :=
  if size > defaultCap then size + alignment else defaultCap

/-- One round of the loop of `ify_arena_alloc`. -/
def allocRound (calloc : ℕ → Word → Option Word) (size alignment : Word) (a : Arena) :
    Outcome ⊕ Arena :=
  if a.current.Fits size alignment then
    .inl (.returned (some (a.current.aligned alignment)) (a.bump size alignment))
  else
    match a.after with
    | s :: rest => .inr (a.moveTo s rest)
    | [] =>
        match slabNew (calloc a.slabs.length) (newCap size alignment) with
        | .null => .inl (.returned none a)
        | .overrun => .inl .overrun
        | .slab s => .inr (a.moveTo s [])

/-- `ify_arena_alloc` on an arena, cut off after `fuel` rounds of its loop. -/
def alloc (calloc : ℕ → Word → Option Word) (fuel : ℕ) (a : Arena)
    (size alignment : Word) : Option Outcome :=
  if size = 0 then
    some (.returned none a)
  else
    let alignment := if alignment = 0 then 1 else alignment
    if alignment > maxAlign ∨ alignment &&& (alignment - 1) ≠ 0 then
      some (.returned none a)
    else
      Loop.run (allocRound calloc size alignment) fuel a

/-- `ify_arena_reset`. -/
def reset (a : Arena) : Arena :=
  match a.before with
  | [] =>
      { before := [], current := a.current.clear, after := a.after.map Slab.clear
        allocCount := 0 }
  | head :: rest =>
      { before := [], current := head.clear
        after := (rest ++ a.current :: a.after).map Slab.clear, allocCount := 0 }

end Arena

/-- How `ify_arena_create` ends. -/
inductive Created where
  | null
  | overrun
  | arena (a : Arena)

/-- `ify_arena_create`; the arena record is 24 bytes, its slab is asked for next. -/
def arenaCreate (calloc : ℕ → Word → Option Word) (initialCap : Word) : Created :=
  let initialCap := if initialCap = 0 then defaultCap else initialCap
  match calloc 0 24 with
  | none => .null
  | some _ =>
      match slabNew (calloc 1) initialCap with
      | .null => .null
      | .overrun => .overrun
      | .slab s => .arena { before := [], current := s, after := [], allocCount := 0 }

end Kernel

end InfinityOS
