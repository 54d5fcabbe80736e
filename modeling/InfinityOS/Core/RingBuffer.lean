import Mathlib

/-!
# Ring buffers

A ring keeps a queue in the slots of a list: the element `i` places behind the first one
is in the slot `(start + i) % length`. `window` reads the queue off the slots, and there
is one rule for each thing a ring does: it goes past its first elements, writes behind the
last one, or writes over the first one when it is full.
-/

namespace RingBuffer

variable {α : Type*} {slots : List α} {n k : ℕ}

/-- The `n` elements from `start` on. -/
def window (slots : List α) (start n : ℕ) : List α :=
  (slots.rotate start).take n

/-- The queue that keeps only its newest elements. -/
def pushBounded (capacity : ℕ) (q : List α) (x : α) : List α :=
  (q ++ [x]).rtake capacity

theorem length_window (start : ℕ) (hn : n ≤ slots.length) : (window slots start n).length = n := by
  rw [window, List.length_take, List.length_rotate, min_eq_left hn]

theorem window_congr {start start' : ℕ} (h : start % slots.length = start' % slots.length) :
    window slots start n = window slots start' n := by
  rw [window, ← List.rotate_mod, h, List.rotate_mod, window]

theorem getElem?_window (start : ℕ) (hn : n ≤ slots.length) {i : ℕ} (hi : i < n) :
    (window slots start n)[i]? = slots[(start + i) % slots.length]? := by
  rw [window, List.getElem?_take_of_lt hi, List.getElem?_rotate (hi.trans_le hn), add_comm]

theorem drop_window (start : ℕ) (hn : n ≤ slots.length) (k : ℕ) :
    (window slots start n).drop k = window slots (start + k) (n - k) := by
  apply List.ext_getElem?
  intro i
  rw [List.getElem?_drop]
  by_cases hi : i < n - k
  · rw [getElem?_window start hn (by omega), getElem?_window _ (by omega) hi, add_assoc]
  · have hleft := length_window start hn
    have hright := length_window (start + k) ((Nat.sub_le n k).trans hn)
    rw [List.getElem?_eq_none (by omega), List.getElem?_eq_none (by omega)]

theorem slot_ne (start : ℕ) {len i j : ℕ} (hi : i < len) (hj : j < len) (hij : i ≠ j) :
    (start + i) % len ≠ (start + j) % len := by
  intro h
  have hmod : i ≡ j [MOD len] := Nat.ModEq.add_left_cancel' start h
  exact hij (hmod.eq_of_lt_of_lt hi hj)

theorem window_push (start : ℕ) (hn : n < slots.length) (x : α) :
    window (slots.set ((start + n) % slots.length) x) start (n + 1) =
      window slots start n ++ [x] := by
  have hlen : n + 1 ≤ (slots.set ((start + n) % slots.length) x).length := by
    rw [List.length_set]
    exact hn
  have hold := length_window start hn.le
  have hpos : 0 < slots.length := by omega
  apply List.ext_getElem?
  intro i
  rcases lt_trichotomy i n with hi | rfl | hi
  · have hne := slot_ne start hn (hi.trans hn) hi.ne'
    rw [getElem?_window start hlen (by omega), List.length_set, List.getElem?_set_ne hne,
      List.getElem?_append_left (by omega), getElem?_window start hn.le hi]
  · rw [getElem?_window start hlen (by omega), List.length_set,
      List.getElem?_set_self (Nat.mod_lt _ hpos), List.getElem?_append_right (by omega), hold,
      Nat.sub_self, List.getElem?_singleton, if_pos rfl]
  · have hnew := length_window start hlen
    rw [List.getElem?_eq_none (by omega), List.getElem?_eq_none]
    rw [List.length_append, hold, List.length_singleton]
    omega

/-- The ring is full: the new element takes the slot of the first one. -/
theorem window_overwrite (start : ℕ) (hpos : 0 < slots.length) (x : α) :
    window (slots.set (start % slots.length) x) (start + 1) slots.length =
      (window slots start slots.length).drop 1 ++ [x] := by
  have hslot : start % slots.length = (start + 1 + (slots.length - 1)) % slots.length := by
    rw [show start + 1 + (slots.length - 1) = start + slots.length by omega,
      Nat.add_mod_right]
  have hpush := window_push (start + 1) (Nat.sub_lt hpos Nat.one_pos) x
  rw [Nat.sub_add_cancel hpos, ← hslot] at hpush
  rw [hpush, drop_window start le_rfl]

theorem pushBounded_of_lt {capacity : ℕ} {q : List α} (h : q.length < capacity) (x : α) :
    pushBounded capacity q x = q ++ [x] := by
  rw [pushBounded, List.rtake, List.length_append, List.length_singleton,
    Nat.sub_eq_zero_of_le h, List.drop_zero]

theorem pushBounded_of_length_eq {capacity : ℕ} (hpos : 0 < capacity) {q : List α}
    (h : q.length = capacity) (x : α) : pushBounded capacity q x = q.drop 1 ++ [x] := by
  rw [pushBounded, List.rtake, List.length_append, List.length_singleton, h,
    Nat.add_sub_cancel_left, List.drop_append_of_le_length (by omega)]

end RingBuffer
