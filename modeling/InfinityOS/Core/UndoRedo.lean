import Mathlib

/-!
# Undo and redo by inverse commands

An editor need not keep its past states: it can keep for each of them the command
that leads back to it, and take a command back by its inverse. `History` is the editor
that does keep the states; `Tracks` relates the two, and there is one rule for each
thing an editor does. A `Zipper` is the list of the entries alone, of which only the newest
are kept.
-/

namespace UndoRedo

variable {σ κ : Type*}

/-- The states before the present one, the last first, and the undone ones, the next
first. -/
structure History (σ : Type*) where
  past : List σ
  present : σ
  future : List σ

namespace History

def new (s : σ) : History σ :=
  { past := [], present := s, future := [] }

/-- A new state; what had been undone is forgotten. -/
def record (h : History σ) (s : σ) : History σ :=
  { past := h.present :: h.past, present := s, future := [] }

def undo (h : History σ) : Option (History σ) :=
  match h.past with
  | [] => none
  | s :: past => some { past, present := s, future := h.present :: h.future }

def redo (h : History σ) : Option (History σ) :=
  match h.future with
  | [] => none
  | s :: future => some { past := h.present :: h.past, present := s, future }

end History

/-- The commands lead from `s` through the states, one after the other, and the inverse
of each leads back. -/
inductive Retraces (execute : κ → σ → σ) (inverse : κ → κ) : List κ → List σ → σ → Prop
  | nil (s : σ) : Retraces execute inverse [] [] s
  | cons {c : κ} {cs : List κ} {s t : σ} {ts : List σ} (hto : execute c s = t)
      (hback : execute (inverse c) t = s) (h : Retraces execute inverse cs ts t) :
      Retraces execute inverse (c :: cs) (t :: ts) s

structure Tracks (execute : κ → σ → σ) (inverse : κ → κ) (undoStack redoStack : List κ)
    (state : σ) (h : History σ) : Prop where
  present : state = h.present
  past : Retraces execute inverse undoStack h.past state
  future : Retraces execute inverse redoStack h.future state

variable {execute : κ → σ → σ} {inverse : κ → κ} {undoStack redoStack : List κ} {s : σ}
  {c : κ} {h : History σ}

theorem Retraces.length_eq {cs : List κ} {ts : List σ}
    (hr : Retraces execute inverse cs ts s) : cs.length = ts.length := by
  induction hr with
  | nil s => rfl
  | cons _ _ _ ih => rw [List.length_cons, List.length_cons, ih]

theorem tracks_new (s : σ) : Tracks execute inverse [] [] s (.new s) :=
  ⟨rfl, .nil s, .nil s⟩

namespace Tracks

theorem record (ht : Tracks execute inverse undoStack redoStack s h)
    (hinverse : ∀ c, inverse (inverse c) = c)
    (hback : execute (inverse c) (execute c s) = s) :
    Tracks execute inverse (inverse c :: undoStack) [] (execute c s)
      (h.record (execute c s)) := by
  refine ⟨rfl, ?_, .nil _⟩
  rw [History.record, ← ht.present]
  refine .cons hback ?_ ht.past
  rw [hinverse]

theorem undo (ht : Tracks execute inverse (c :: undoStack) redoStack s h)
    (hinverse : ∀ c, inverse (inverse c) = c) :
    ∃ h', h.undo = some h' ∧
      Tracks execute inverse undoStack (inverse c :: redoStack) (execute c s) h' := by
  obtain ⟨hpresent, hpast, hfuture⟩ := ht
  obtain ⟨past, present, future⟩ := h
  obtain rfl : s = present := hpresent
  cases hpast with
  | cons hto hback hrest =>
      subst hto
      refine ⟨_, rfl, rfl, hrest, .cons hback ?_ hfuture⟩
      rw [hinverse]

theorem undo_nil (ht : Tracks execute inverse [] redoStack s h) : h.undo = none := by
  obtain ⟨past, present, future⟩ := h
  cases ht.past
  rfl

theorem redo (ht : Tracks execute inverse undoStack (c :: redoStack) s h)
    (hinverse : ∀ c, inverse (inverse c) = c) :
    ∃ h', h.redo = some h' ∧
      Tracks execute inverse (inverse c :: undoStack) redoStack (execute c s) h' := by
  obtain ⟨hpresent, hpast, hfuture⟩ := ht
  obtain ⟨past, present, future⟩ := h
  obtain rfl : s = present := hpresent
  cases hfuture with
  | cons hto hback hrest =>
      subst hto
      refine ⟨_, rfl, rfl, .cons hback ?_ hpast, hrest⟩
      rw [hinverse]

theorem redo_nil (ht : Tracks execute inverse undoStack [] s h) : h.redo = none := by
  obtain ⟨past, present, future⟩ := h
  cases ht.future
  rfl

end Tracks

/-! ## The entries alone -/

/-- The entries that are done, the last first, and those taken back, the next first. -/
structure Zipper (α : Type*) where
  past : List α
  future : List α

namespace Zipper

variable {α : Type*}

def new : Zipper α :=
  { past := [], future := [] }

/-- A new entry; of those done only the `capacity` newest are kept, and what had been taken back
is forgotten. -/
def push (capacity : ℕ) (z : Zipper α) (x : α) : Zipper α :=
  { past := (x :: z.past).take capacity, future := [] }

def undo (z : Zipper α) : Option α × Zipper α :=
  match z.past with
  | [] => (none, z)
  | x :: past => (some x, { past, future := x :: z.future })

def redo (z : Zipper α) : Option α × Zipper α :=
  match z.future with
  | [] => (none, z)
  | x :: future => (some x, { past := x :: z.past, future })

def depth (z : Zipper α) : ℕ :=
  z.past.length + z.future.length

theorem depth_push_le (capacity : ℕ) (z : Zipper α) (x : α) :
    (z.push capacity x).depth ≤ capacity :=
  List.length_take_le _ _

@[simp] theorem depth_undo (z : Zipper α) : z.undo.2.depth = z.depth := by
  obtain ⟨past, future⟩ := z
  cases past with
  | nil => rfl
  | cons x past =>
      change past.length + (future.length + 1) = past.length + 1 + future.length
      omega

@[simp] theorem depth_redo (z : Zipper α) : z.redo.2.depth = z.depth := by
  obtain ⟨past, future⟩ := z
  cases future with
  | nil => rfl
  | cons x future =>
      change past.length + 1 + future.length = past.length + (future.length + 1)
      omega

end Zipper

end UndoRedo
