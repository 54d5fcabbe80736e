import InfinityOS.Canvas.Collaboration
import InfinityOS.Core.UndoRedo
import InfinityOS.Transition.Run

/-!
# The undo stack of the canvas

Two deques of edits with their newest one at the back. A push drops the oldest edit where the
deque has exactly the length of the capacity, so with any capacity but 0 the two are a zipper of
the newest edits. With the capacity 0 the first push passes that length, and nothing is dropped
from then on.
-/

namespace InfinityOS

namespace Canvas

open Transition UndoRedo

inductive UndoEntry where
  | addNode (nodeId : String)
  | moveNode (nodeId : String) (fromPoint toPoint : Point)
  | deleteNode (nodeId : String)

/-- The front of each deque first. -/
structure UndoStack where
  undo : List UndoEntry
  redo : List UndoEntry
  capacity : ℕ

namespace UndoStack

def new (capacity : ℕ) : UndoStack :=
  { undo := [], redo := [], capacity }

def push (s : UndoStack) (entry : UndoEntry) : UndoStack :=
  let undo := if s.undo.length = s.capacity then s.undo.tail else s.undo
  { s with undo := undo ++ [entry], redo := [] }

/-- `UndoStack::undo`. -/
def undoLast (s : UndoStack) : Option UndoEntry × UndoStack :=
  match s.undo.getLast? with
  | none => (none, s)
  | some entry => (some entry, { s with undo := s.undo.dropLast, redo := s.redo ++ [entry] })

/-- `UndoStack::redo`. -/
def redoLast (s : UndoStack) : Option UndoEntry × UndoStack :=
  match s.redo.getLast? with
  | none => (none, s)
  | some entry => (some entry, { s with redo := s.redo.dropLast, undo := s.undo ++ [entry] })

def undoDepth (s : UndoStack) : ℕ :=
  s.undo.length

def redoDepth (s : UndoStack) : ℕ :=
  s.redo.length

end UndoStack

inductive UndoCall where
  | push (entry : UndoEntry)
  | undo
  | redo

def UndoStack.step (s : UndoStack) : UndoCall → Option UndoEntry × UndoStack
  | .push entry => (none, s.push entry)
  | .undo => s.undoLast
  | .redo => s.redoLast

def zipperStep (capacity : ℕ) (z : Zipper UndoEntry) :
    UndoCall → Option UndoEntry × Zipper UndoEntry
  | .push entry => (none, z.push capacity entry)
  | .undo => z.undo
  | .redo => z.redo

/-- The stacks have the entries of the zipper. -/
structure Agrees (s : UndoStack) (z : Zipper UndoEntry) : Prop where
  undo : s.undo = z.past.reverse
  redo : s.redo = z.future.reverse

/-- In every state of the run the two stacks have together no more entries than the capacity and
are those of the bounded zipper, and every call has its answer. -/
structure BoundedHistory (capacity : ℕ) (calls : List UndoCall) : Prop where
  bounded : ∀ past, past <+: calls →
    (final UndoStack.step (.new capacity) past).undoDepth +
      (final UndoStack.step (.new capacity) past).redoDepth ≤ capacity
  agrees : ∀ past, past <+: calls →
    Agrees (final UndoStack.step (.new capacity) past) (final (zipperStep capacity) .new past)
  answers : trace UndoStack.step (.new capacity) calls = trace (zipperStep capacity) .new calls

/-- The stack keeps its capacity, and has the entries of a zipper within it. -/
structure Follows (capacity : ℕ) (s : UndoStack) (z : Zipper UndoEntry) : Prop
    extends Agrees s z where
  capacity_eq : s.capacity = capacity
  depth_le : z.depth ≤ capacity

def Admissible (capacity : ℕ) (call : UndoCall) : Prop :=
  capacity ≠ 0 ∨ ∀ entry, call ≠ .push entry

variable {capacity : ℕ} {s : UndoStack} {z : Zipper UndoEntry} {calls : List UndoCall}

theorem follows_new (capacity : ℕ) : Follows capacity (.new capacity) .new :=
  ⟨⟨rfl, rfl⟩, rfl, Nat.zero_le capacity⟩

theorem Agrees.depth (h : Agrees s z) : s.undoDepth + s.redoDepth = z.depth := by
  rw [UndoStack.undoDepth, UndoStack.redoDepth, h.undo, h.redo, List.length_reverse,
    List.length_reverse, Zipper.depth]

theorem Follows.push (h : Follows capacity s z) (hcapacity : capacity ≠ 0) (entry : UndoEntry) :
    Follows capacity (s.push entry) (z.push capacity entry) := by
  refine ⟨⟨?_, rfl⟩, h.capacity_eq, Zipper.depth_push_le capacity z entry⟩
  obtain ⟨c, rfl⟩ := Nat.exists_eq_succ_of_ne_zero hcapacity
  have hle : z.past.length ≤ c + 1 := (Nat.le_add_right _ _).trans h.depth_le
  change (if s.undo.length = s.capacity then s.undo.tail else s.undo) ++ [entry] =
    ((entry :: z.past).take (c + 1)).reverse
  rw [List.take_succ_cons, List.reverse_cons, h.undo, h.capacity_eq, List.length_reverse]
  congr 1
  split
  · next hfull =>
      rw [List.tail_reverse, List.dropLast_eq_take, hfull]
      rfl
  · next hroom => rw [List.take_of_length_le (by omega)]

theorem UndoStack.undoLast_of_concat {entries : List UndoEntry} {entry : UndoEntry}
    (h : s.undo = entries ++ [entry]) :
    s.undoLast = (some entry, { s with undo := entries, redo := s.redo ++ [entry] }) := by
  rw [undoLast, h, List.getLast?_concat, List.dropLast_concat]

theorem UndoStack.redoLast_of_concat {entries : List UndoEntry} {entry : UndoEntry}
    (h : s.redo = entries ++ [entry]) :
    s.redoLast = (some entry, { s with redo := entries, undo := s.undo ++ [entry] }) := by
  rw [redoLast, h, List.getLast?_concat, List.dropLast_concat]

theorem Follows.undoLast (h : Follows capacity s z) :
    s.undoLast.1 = z.undo.1 ∧ Follows capacity s.undoLast.2 z.undo.2 := by
  have hdepth : z.undo.2.depth ≤ capacity := z.depth_undo.trans_le h.depth_le
  obtain ⟨⟨hundo, hredo⟩, hcapacity, hle⟩ := h
  obtain ⟨past, future⟩ := z
  cases past with
  | nil =>
      rw [UndoStack.undoLast, hundo]
      exact ⟨rfl, ⟨hundo, hredo⟩, hcapacity, hle⟩
  | cons entry past =>
      rw [UndoStack.undoLast_of_concat (hundo.trans List.reverse_cons), hredo]
      exact ⟨rfl, ⟨rfl, List.reverse_cons.symm⟩, hcapacity, hdepth⟩

theorem Follows.redoLast (h : Follows capacity s z) :
    s.redoLast.1 = z.redo.1 ∧ Follows capacity s.redoLast.2 z.redo.2 := by
  have hdepth : z.redo.2.depth ≤ capacity := z.depth_redo.trans_le h.depth_le
  obtain ⟨⟨hundo, hredo⟩, hcapacity, hle⟩ := h
  obtain ⟨past, future⟩ := z
  cases future with
  | nil =>
      rw [UndoStack.redoLast, hredo]
      exact ⟨rfl, ⟨hundo, hredo⟩, hcapacity, hle⟩
  | cons entry future =>
      rw [UndoStack.redoLast_of_concat (hredo.trans List.reverse_cons), hundo]
      exact ⟨rfl, ⟨List.reverse_cons.symm, rfl⟩, hcapacity, hdepth⟩

theorem Follows.step (h : Follows capacity s z) {call : UndoCall}
    (hcall : Admissible capacity call) :
    (s.step call).1 = (zipperStep capacity z call).1 ∧
      Follows capacity (s.step call).2 (zipperStep capacity z call).2 := by
  cases call with
  | push entry =>
      rcases hcall with hcapacity | hnot
      · exact ⟨rfl, h.push hcapacity entry⟩
      · exact absurd rfl (hnot entry)
  | undo => exact h.undoLast
  | redo => exact h.redoLast

theorem follows_final (hcalls : ∀ call ∈ calls, Admissible capacity call) :
    trace UndoStack.step (.new capacity) calls = trace (zipperStep capacity) .new calls ∧
      Follows capacity (final UndoStack.step (.new capacity) calls)
        (final (zipperStep capacity) .new calls) :=
  simulation_along (fun _ _ _ hs => hs.step) (follows_new capacity) (along_const.mpr hcalls)

theorem undoDepth_push_pos (s : UndoStack) (entry : UndoEntry) :
    0 < (s.push entry).undoDepth := by
  rw [UndoStack.undoDepth, UndoStack.push, List.length_append]
  exact Nat.succ_pos _

/-- The undo history is bounded, and the zipper of the newest entries, exactly if the capacity
is not 0 or nothing is pushed. -/
theorem bounded_history_iff (capacity : ℕ) (calls : List UndoCall) :
    BoundedHistory capacity calls ↔ capacity ≠ 0 ∨ ∀ entry, .push entry ∉ calls := by
  constructor
  · intro h
    by_contra hnot
    push Not at hnot
    obtain ⟨rfl, entry, hpush⟩ := hnot
    obtain ⟨past, later, rfl⟩ := List.append_of_mem hpush
    have hbound := h.bounded (past ++ [.push entry]) ⟨later, by simp⟩
    rw [final_concat] at hbound
    have hpos := undoDepth_push_pos (final UndoStack.step (.new 0) past) entry
    change (UndoStack.push _ entry).undoDepth + _ ≤ 0 at hbound
    omega
  · intro h
    have hcalls (call : UndoCall) (hcall : call ∈ calls) : Admissible capacity call := by
      refine h.imp_right fun hnone entry heq => ?_
      rw [heq] at hcall
      exact hnone entry hcall
    have hpast {past : List UndoCall} (hp : past <+: calls) :
        Follows capacity (final UndoStack.step (.new capacity) past)
          (final (zipperStep capacity) .new past) :=
      (follows_final fun call hcall => hcalls call (hp.subset hcall)).2
    refine ⟨fun past hp => ?_, fun past hp => (hpast hp).toAgrees, (follows_final hcalls).1⟩
    rw [(hpast hp).toAgrees.depth]
    exact (hpast hp).depth_le

/-- A stack that is to keep nothing keeps its first entry. -/
theorem bounded_history_fails :
    ¬ ∀ (capacity : ℕ) (calls : List UndoCall), BoundedHistory capacity calls := by
  intro h
  have hbound := (h 0 [.push (.addNode "node-1")]).bounded _ List.prefix_rfl
  exact absurd hbound (by decide)

end Canvas

end InfinityOS
