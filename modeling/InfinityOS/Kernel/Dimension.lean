import InfinityOS.Kernel.Arena
import InfinityOS.Transition.Run

/-!
# Dimensions and their task ids

The global table of dimensions of the kernel, and the task ids generated for them.
A free slot has the id 0. Each call is one section under the kernel lock; the clock
reading of a call is part of it.
-/

namespace InfinityOS

namespace Kernel

def dimTableMax : ℕ := 1024

structure DimSlot where
  id : Word
  taskSeq : Word
  deriving DecidableEq

/-- `ify_task_id_t`. -/
structure KernelTaskId where
  hi : Word
  lo : Word
  deriving DecidableEq

/-- The codes of `ify_status_t` that the calls answer with. -/
inductive Status where
  | invalidArg
  | notInitialized
  | notFound
  | overflow
  deriving DecidableEq

structure Dimensions where
  running : Bool
  dims : List DimSlot
  dimCounter : Word
  deriving DecidableEq

namespace Dimensions

/-- The state after the start of the kernel. -/
def initial : Dimensions :=
  { running := true, dims := List.replicate dimTableMax ⟨0, 0⟩, dimCounter := 1 }

def dimFind (k : Dimensions) (id : Word) : Option ℕ :=
  k.dims.findIdx? fun slot => slot.id = id

def dimAllocSlot (k : Dimensions) : Option ℕ :=
  k.dims.findIdx? fun slot => slot.id = 0

/-- The id that `ify_task_id_generate` packs from the clock and the sequence number. -/
def packTaskId (ts seq : Word) : KernelTaskId where
  hi := ts &&& 0xFFFFFFFFFFFF0000 ||| 0x7000 ||| (seq >>> 16 &&& 0x0FFF)
  lo := 0x8000000000000000 ||| (seq &&& 0x3FFFFFFFFFFFFFFF)

/-- `ify_dimension_create`. -/
def dimensionCreate (k : Dimensions) : Except Status Word × Dimensions :=
  if k.running = false then
    (.error .notInitialized, k)
  else
    match k.dimAllocSlot with
    | none => (.error .overflow, k)
    | some i =>
        (.ok k.dimCounter,
          { k with dims := k.dims.set i ⟨k.dimCounter, 0⟩, dimCounter := k.dimCounter + 1 })

/-- `ify_dimension_destroy`. -/
def dimensionDestroy (k : Dimensions) (id : Word) : Except Status Unit × Dimensions :=
  if id = 0 then
    (.error .invalidArg, k)
  else if k.running = false then
    (.error .notInitialized, k)
  else
    match k.dimFind id with
    | none => (.error .notFound, k)
    | some i => (.ok (), { k with dims := k.dims.set i ⟨0, 0⟩ })

/-- `ify_task_id_generate` at the clock reading `ts`. -/
def taskIdGenerate (k : Dimensions) (dimensionId ts : Word) :
    Except Status KernelTaskId × Dimensions :=
  if k.running = false then
    (.error .notInitialized, k)
  else
    match k.dimFind dimensionId with
    | none => (.error .notFound, k)
    | some i =>
        let seq := (k.dims.getD i ⟨0, 0⟩).taskSeq + 1
        (.ok (packTaskId ts seq),
          { k with dims := k.dims.modify i fun slot => { slot with taskSeq := seq } })

inductive Call where
  | create
  | destroy (id : Word)
  | generate (dimensionId ts : Word)

inductive Answer where
  | created (result : Except Status Word)
  | destroyed (result : Except Status Unit)
  | generated (result : Except Status KernelTaskId)

def step (k : Dimensions) : Call → Answer × Dimensions
  | .create => (.created k.dimensionCreate.1, k.dimensionCreate.2)
  | .destroy id => (.destroyed (k.dimensionDestroy id).1, (k.dimensionDestroy id).2)
  | .generate dimensionId ts =>
      (.generated (k.taskIdGenerate dimensionId ts).1, (k.taskIdGenerate dimensionId ts).2)

/-! ## The counter of a dimension -/

section Slots

variable {α : Type*} {slots : List α} {p q : α → Bool} {i : ℕ}

theorem findIdx?_cons_cases {slot : α} (h : (slot :: slots).findIdx? p = some i) :
    p slot = true ∧ i = 0 ∨
      ¬ p slot = true ∧ ∃ j, slots.findIdx? p = some j ∧ i = j + 1 := by
  rw [List.findIdx?_cons] at h
  split at h
  · next hp =>
      cases h
      exact .inl ⟨hp, rfl⟩
  · next hnot =>
      obtain ⟨j, hj, rfl⟩ := Option.map_eq_some_iff.mp h
      exact .inr ⟨hnot, j, hj, rfl⟩

theorem find?_modify_self {f : α → α} (h : slots.findIdx? p = some i)
    (hf : ∀ slot, p slot → p (f slot)) :
    (slots.modify i f).find? p = (slots.find? p).map f := by
  induction slots generalizing i with
  | nil => cases h
  | cons slot rest ih =>
      rcases findIdx?_cons_cases h with ⟨hp, rfl⟩ | ⟨hnot, j, hj, rfl⟩
      · rw [List.modify_zero_cons, List.find?_cons_of_pos (hf slot hp),
          List.find?_cons_of_pos hp]
        rfl
      · rw [List.modify_succ_cons, List.find?_cons_of_neg hnot,
          List.find?_cons_of_neg hnot, ih hj]

theorem find?_modify_other {f : α → α} (h : slots.findIdx? p = some i)
    (hp : ∀ slot, p slot → ¬ q slot) (hf : ∀ slot, p slot → ¬ q (f slot)) :
    (slots.modify i f).find? q = slots.find? q := by
  induction slots generalizing i with
  | nil => cases h
  | cons slot rest ih =>
      rcases findIdx?_cons_cases h with ⟨hslot, rfl⟩ | ⟨-, j, hj, rfl⟩
      · rw [List.modify_zero_cons, List.find?_cons_of_neg (hf slot hslot),
          List.find?_cons_of_neg (hp slot hslot)]
      · rw [List.modify_succ_cons, List.find?_cons, List.find?_cons, ih hj]

theorem getD_eq_of_findIdx? (h : slots.findIdx? p = some i) (default : α) :
    slots.find? p = some (slots.getD i default) := by
  induction slots generalizing i with
  | nil => cases h
  | cons slot rest ih =>
      rcases findIdx?_cons_cases h with ⟨hp, rfl⟩ | ⟨hnot, j, hj, rfl⟩
      · exact List.find?_cons_of_pos hp
      · rw [List.find?_cons_of_neg hnot, ih hj]
        rfl

end Slots

/-- The sequence number that the next id of a dimension is made from. -/
def counter (k : Dimensions) (d : Word) : Option Word :=
  (k.dims.find? fun slot => slot.id = d).map DimSlot.taskSeq

theorem counter_modify_other {k : Dimensions} {i : ℕ} {e : Word} {f : DimSlot → DimSlot}
    (hi : k.dimFind e = some i) {d : Word} (hd : d ≠ e)
    (hf : ∀ slot : DimSlot, slot.id = e → (f slot).id ≠ d) :
    { k with dims := k.dims.modify i f }.counter d = k.counter d := by
  unfold counter
  rw [find?_modify_other hi]
  · intro slot hslot hsame
    exact hd ((of_decide_eq_true hsame).symm.trans (of_decide_eq_true hslot))
  · intro slot hslot hsame
    exact hf slot (of_decide_eq_true hslot) (of_decide_eq_true hsame)

theorem set_eq_modify {k : Dimensions} {i : ℕ} {slot : DimSlot} :
    k.dims.set i slot = k.dims.modify i fun _ => slot :=
  List.set_eq_modify _ _ _

section Calls

variable {k : Dimensions} {d : Word}

theorem counter_create (hd : d ≠ 0) (hother : k.dimensionCreate.1 ≠ .ok d) :
    k.dimensionCreate.2.counter d = k.counter d := by
  unfold dimensionCreate at hother ⊢
  by_cases hrunning : k.running = false
  · rw [if_pos hrunning]
  rw [if_neg hrunning] at hother ⊢
  cases hi : k.dimAllocSlot with
  | none => rfl
  | some i =>
      rw [hi] at hother
      have hne : k.dimCounter ≠ d := fun h => hother (congrArg Except.ok h)
      dsimp only
      rw [set_eq_modify]
      exact counter_modify_other hi hd fun _ _ => hne

theorem counter_destroy {e : Word} (hd : d ≠ 0)
    (hother : (k.dimensionDestroy e).1 = .ok () → e ≠ d) :
    (k.dimensionDestroy e).2.counter d = k.counter d := by
  unfold dimensionDestroy at hother ⊢
  by_cases hzero : e = 0
  · rw [if_pos hzero]
  rw [if_neg hzero] at hother ⊢
  by_cases hrunning : k.running = false
  · rw [if_pos hrunning]
  rw [if_neg hrunning] at hother ⊢
  cases hi : k.dimFind e with
  | none => rfl
  | some i =>
      rw [hi] at hother
      have hne : e ≠ d := hother rfl
      dsimp only
      rw [set_eq_modify]
      exact counter_modify_other hi hne.symm fun _ _ => hd.symm

theorem taskIdGenerate_fst (e ts : Word) :
    (k.taskIdGenerate e ts).1 =
      if k.running = false then .error .notInitialized
      else match k.counter e with
        | none => .error .notFound
        | some seq => .ok (packTaskId ts (seq + 1)) := by
  unfold taskIdGenerate
  by_cases hrunning : k.running = false
  · rw [if_pos hrunning, if_pos hrunning]
  rw [if_neg hrunning, if_neg hrunning]
  cases hi : k.dimFind e with
  | none =>
      have hnone : k.counter e = none := by
        rw [counter, List.find?_eq_none.mpr]
        · rfl
        · intro slot hslot
          rw [List.findIdx?_eq_none_iff.mp hi slot hslot]
          exact Bool.false_ne_true
      rw [hnone]
  | some i =>
      have hsome : k.counter e = some (k.dims.getD i ⟨0, 0⟩).taskSeq := by
        rw [counter, getD_eq_of_findIdx? hi ⟨0, 0⟩]
        rfl
      rw [hsome]

theorem counter_generate_self {e ts : Word} {id : KernelTaskId}
    (h : (k.taskIdGenerate e ts).1 = .ok id) :
    (k.taskIdGenerate e ts).2.counter e = (k.counter e).map (· + 1) := by
  unfold taskIdGenerate at h ⊢
  by_cases hrunning : k.running = false
  · rw [if_pos hrunning] at h
    cases h
  rw [if_neg hrunning]
  cases hi : k.dimFind e with
  | none =>
      rw [if_neg hrunning, hi] at h
      cases h
  | some i =>
      have hself := find?_modify_self
        (f := fun slot => { slot with taskSeq := (k.dims.getD i ⟨0, 0⟩).taskSeq + 1 }) hi
        fun slot hslot => hslot
      dsimp only
      rw [counter, counter, hself, getD_eq_of_findIdx? hi ⟨0, 0⟩]
      rfl

theorem counter_generate_other {e ts : Word} (hd : d ≠ e) :
    (k.taskIdGenerate e ts).2.counter d = k.counter d := by
  unfold taskIdGenerate
  by_cases hrunning : k.running = false
  · rw [if_pos hrunning]
  rw [if_neg hrunning]
  cases hi : k.dimFind e with
  | none => rfl
  | some i =>
      apply counter_modify_other hi hd
      intro slot hslot hsame
      exact hd (hsame.symm.trans hslot)

end Calls

end Dimensions

end Kernel

end InfinityOS
