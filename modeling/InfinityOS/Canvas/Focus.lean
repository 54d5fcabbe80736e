import Mathlib.Data.List.Cycle
import InfinityOS.Transition.Run

/-!
# Keyboard focus

The focus is an index into the list of the nodes, which is kept in the order of their
registration. Where each node is registered once at a time, the index stays within the list and
on its node while other nodes go, and it moves along the cycle of the list.
-/

namespace InfinityOS

namespace Canvas

open Transition

structure FocusManager where
  nodes : List String
  focused : Option ℕ

namespace FocusManager

def new : FocusManager :=
  { nodes := [], focused := none }

def registerNode (f : FocusManager) (nodeId : String) : FocusManager :=
  { f with nodes := f.nodes ++ [nodeId] }

def unregisterNode (f : FocusManager) (nodeId : String) : FocusManager :=
  match f.nodes.idxOf? nodeId with
  | none => f
  | some pos =>
      { nodes := f.nodes.eraseIdx pos
        focused :=
          match f.focused with
          | none => none
          | some i => if i = pos then none else if i > pos then some (i - 1) else some i }

def focusNext (f : FocusManager) : Option String × FocusManager :=
  if f.nodes.isEmpty then
    (none, f)
  else
    let next := match f.focused with
      | none => 0
      | some i => (i + 1) % f.nodes.length
    (f.nodes[next]?, { f with focused := some next })

def focusPrevious (f : FocusManager) : Option String × FocusManager :=
  if f.nodes.isEmpty then
    (none, f)
  else
    let prev := match f.focused with
      | none => f.nodes.length - 1
      | some 0 => f.nodes.length - 1
      | some (i + 1) => i
    (f.nodes[prev]?, { f with focused := some prev })

def focusedNode (f : FocusManager) : Option String :=
  f.focused.bind fun i => f.nodes[i]?

def clearFocus (f : FocusManager) : FocusManager :=
  { f with focused := none }

end FocusManager

inductive FocusCall where
  | register (nodeId : String)
  | unregister (nodeId : String)
  | next
  | previous
  | clear

def FocusManager.step (f : FocusManager) : FocusCall → Option String × FocusManager
  | .register nodeId => (none, f.registerNode nodeId)
  | .unregister nodeId => (none, f.unregisterNode nodeId)
  | .next => f.focusNext
  | .previous => f.focusPrevious
  | .clear => (none, f.clearFocus)

/-- A node is registered only while it is not. -/
def FreshCall (f : FocusManager) : FocusCall → Prop
  | .register nodeId => nodeId ∉ f.nodes
  | _ => True

instance (f : FocusManager) : (call : FocusCall) → Decidable (FreshCall f call)
  | .register nodeId => inferInstanceAs (Decidable (nodeId ∉ f.nodes))
  | .unregister _ | .next | .previous | .clear => inferInstanceAs (Decidable True)

def registerIn (order : List String) : FocusCall → List String
  | .register nodeId => order ++ [nodeId]
  | .unregister nodeId => order.filter (· != nodeId)
  | _ => order

def registered (calls : List FocusCall) : List String :=
  calls.foldl registerIn []

/-- The answers of so many calls of `focus_next`. -/
def tour : ℕ → FocusManager → List (Option String)
  | 0, _ => []
  | n + 1, f => f.focusNext.1 :: tour n f.focusNext.2

/-- What the focus does in a state whose registered nodes are `order`. -/
structure FocusLaws (order : List String) (f : FocusManager) : Prop where
  nodup : order.Nodup
  points : ∀ i, f.focused = some i → ∃ node ∈ order, f.nodes[i]? = some node
  unregister_other : ∀ a b, f.focusedNode = some a → b ≠ a →
    (f.unregisterNode b).focusedNode = some a
  unregister_focused : ∀ a, f.focusedNode = some a → (f.unregisterNode a).focused = none
  next : ∀ a, f.focusedNode = some a → ∀ ha : a ∈ order,
    f.focusNext.1 = some (order.next a ha) ∧
      f.focusNext.2.focusedNode = some (order.next a ha)
  previous : ∀ a, f.focusedNode = some a → ∀ ha : a ∈ order,
    f.focusPrevious.1 = some (order.prev a ha) ∧
      f.focusPrevious.2.focusedNode = some (order.prev a ha)
  first : f.focused = none →
    f.focusNext.1 = order.head? ∧ f.focusPrevious.1 = order.getLast?
  next_previous : f.focused ≠ none → f.focusNext.2.focusPrevious.2 = f
  previous_next : f.focused ≠ none → f.focusPrevious.2.focusNext.2 = f
  tour_perm : (tour order.length f).Perm (order.map some)

/-- The list of the manager is the order of the registration, without repetition, and the
focus is within it. -/
structure KeepsOrder (order : List String) (f : FocusManager) : Prop where
  nodes : f.nodes = order
  nodup : order.Nodup
  inRange : ∀ i, f.focused = some i → i < order.length

variable {f : FocusManager} {order : List String} {i : ℕ} {node : String}

/-! ## Each call -/

namespace FocusManager

theorem unregisterNode_of_notMem (h : node ∉ f.nodes) : f.unregisterNode node = f := by
  rw [unregisterNode, List.idxOf?_eq_none_iff.mpr h]

theorem nodes_unregisterNode (f : FocusManager) (node : String) :
    (f.unregisterNode node).nodes = f.nodes.erase node := by
  rw [unregisterNode, List.erase_eq_eraseIdx]
  cases f.nodes.idxOf? node <;> rfl

/-- The index of the focus after the removal of another slot. -/
def shifted (i pos : ℕ) : ℕ :=
  if i > pos then i - 1 else i

theorem getElem?_eraseIdx_shifted {α : Type*} {l : List α} {i pos : ℕ} (h : i ≠ pos) :
    (l.eraseIdx pos)[shifted i pos]? = l[i]? := by
  unfold shifted
  rw [List.getElem?_eraseIdx]
  split
  · next hgt =>
      rw [if_neg (by omega)]
      congr 1
      omega
  · next hle => rw [if_pos (by omega)]

theorem unregisterNode_eq {pos : ℕ} (hpos : f.nodes.idxOf? node = some pos) :
    f.unregisterNode node =
      { nodes := f.nodes.eraseIdx pos
        focused := f.focused.bind fun i => if i = pos then none else some (shifted i pos) } := by
  rw [unregisterNode, hpos]
  cases f.focused with
  | none => rfl
  | some i =>
      simp only [Option.bind_some, shifted]
      split
      · rfl
      · rw [apply_ite some]

/-- The slot behind the focus, or the first one. -/
def upcoming (f : FocusManager) : ℕ :=
  match f.focused with
  | none => 0
  | some i => i + 1

/-- The slot before the focus around the cycle, or the last one. -/
def preceding (f : FocusManager) : ℕ :=
  match f.focused with
  | none => f.nodes.length - 1
  | some 0 => f.nodes.length - 1
  | some (i + 1) => i

theorem focusNext_eq (h : f.nodes ≠ []) :
    f.focusNext = (f.nodes[f.upcoming % f.nodes.length]?,
      { f with focused := some (f.upcoming % f.nodes.length) }) := by
  rw [focusNext, if_neg (by simpa using h), upcoming]
  cases f.focused with
  | none =>
      dsimp only
      rw [Nat.zero_mod]
  | some i => rfl

theorem focusPrevious_eq (h : f.nodes ≠ []) :
    f.focusPrevious = (f.nodes[f.preceding]?, { f with focused := some f.preceding }) := by
  rw [focusPrevious, if_neg (by simpa using h)]
  rfl

theorem tour_eq (n : ℕ) (h : f.nodes ≠ []) :
    tour n f = (List.range n).map fun k => f.nodes[(f.upcoming + k) % f.nodes.length]? := by
  induction n generalizing f with
  | zero => rfl
  | succ n ih =>
      rw [tour, focusNext_eq h, List.range_succ_eq_map, List.map_cons, List.map_map]
      dsimp only
      rw [ih (f := { f with focused := some (f.upcoming % f.nodes.length) }) h, Nat.add_zero]
      congr 2
      funext k
      change f.nodes[(f.upcoming % f.nodes.length + 1 + k) % f.nodes.length]? =
        f.nodes[(f.upcoming + (k + 1)) % f.nodes.length]?
      rw [add_assoc, Nat.mod_add_mod, add_comm 1]

end FocusManager

namespace KeepsOrder

theorem new : KeepsOrder [] .new := by
  refine ⟨rfl, List.nodup_nil, fun i hi => ?_⟩
  cases hi

theorem focusedNode_eq_some (h : KeepsOrder order f) :
    f.focusedNode = some node ↔
      ∃ i, f.focused = some i ∧ ∃ hi : i < order.length, order[i] = node := by
  rw [FocusManager.focusedNode, Option.bind_eq_some_iff, h.nodes]
  simp only [List.getElem?_eq_some_iff]

theorem idxOf?_getElem (h : KeepsOrder order f) (hi : i < order.length) :
    f.nodes.idxOf? order[i] = some i := by
  rw [h.nodes]
  refine List.idxOf?_eq_some_iff.mpr ⟨hi, rfl, fun j hj hsame => ?_⟩
  exact hj.ne ((h.nodup.getElem_inj_iff).mp hsame)

theorem unregister_focused (h : KeepsOrder order f) (hnode : f.focusedNode = some node) :
    (f.unregisterNode node).focused = none := by
  obtain ⟨i, hfocused, hi, rfl⟩ := h.focusedNode_eq_some.mp hnode
  rw [FocusManager.unregisterNode_eq (h.idxOf?_getElem hi), hfocused, Option.bind_some,
    if_pos rfl]

theorem unregister_other {other : String} (h : KeepsOrder order f)
    (hnode : f.focusedNode = some node) (hother : other ≠ node) :
    (f.unregisterNode other).focusedNode = some node := by
  by_cases hmem : other ∈ f.nodes
  · obtain ⟨i, hfocused, hi, rfl⟩ := h.focusedNode_eq_some.mp hnode
    obtain ⟨pos, hpos, rfl⟩ := List.getElem_of_mem (h.nodes ▸ hmem)
    have hne : i ≠ pos := by
      rintro rfl
      exact hother rfl
    rw [FocusManager.unregisterNode_eq (h.idxOf?_getElem hpos), hfocused, Option.bind_some,
      if_neg hne, h.nodes]
    change (order.eraseIdx pos)[FocusManager.shifted i pos]? = _
    rw [FocusManager.getElem?_eraseIdx_shifted hne, List.getElem?_eq_getElem hi]
  · rw [FocusManager.unregisterNode_of_notMem hmem, hnode]

theorem unregisterNode (h : KeepsOrder order f) (node : String) :
    KeepsOrder (order.filter (· != node)) (f.unregisterNode node) := by
  have hnodes : (f.unregisterNode node).nodes = order.filter (· != node) := by
    rw [f.nodes_unregisterNode, h.nodes, h.nodup.erase_eq_filter]
  refine ⟨hnodes, h.nodup.filter _, fun i hi => ?_⟩
  rw [← hnodes]
  by_cases hmem : node ∈ f.nodes
  · obtain ⟨pos, hpos, rfl⟩ := List.getElem_of_mem (h.nodes ▸ hmem)
    rw [FocusManager.unregisterNode_eq (h.idxOf?_getElem hpos)] at hi ⊢
    obtain ⟨j, hj, hshift⟩ := Option.bind_eq_some_iff.mp hi
    have hrange := h.inRange j hj
    rw [List.length_eraseIdx_of_lt (h.nodes ▸ hpos), h.nodes]
    split at hshift
    · cases hshift
    · next hne =>
        cases hshift
        unfold FocusManager.shifted
        split <;> omega
  · rw [FocusManager.unregisterNode_of_notMem hmem] at hi ⊢
    rw [h.nodes]
    exact h.inRange i hi

theorem registerNode (h : KeepsOrder order f) (hfresh : node ∉ f.nodes) :
    KeepsOrder (order ++ [node]) (f.registerNode node) := by
  rw [h.nodes] at hfresh
  refine ⟨congrArg (· ++ [node]) h.nodes, ?_, fun i hi => ?_⟩
  · rw [← List.concat_eq_append]
    exact h.nodup.concat hfresh
  · rw [List.length_append]
    exact Nat.lt_add_right _ (h.inRange i hi)

theorem ne_nil_of_focused (h : KeepsOrder order f) (hi : f.focused = some i) : f.nodes ≠ [] := by
  rw [h.nodes]
  exact List.ne_nil_of_length_pos (Nat.zero_lt_of_lt (h.inRange i hi))

theorem focusNext (h : KeepsOrder order f) : KeepsOrder order f.focusNext.2 := by
  by_cases hnil : f.nodes = []
  · rw [FocusManager.focusNext, if_pos (by simp [hnil])]
    exact h
  · rw [FocusManager.focusNext_eq hnil]
    refine ⟨h.nodes, h.nodup, fun i hi => ?_⟩
    cases hi
    rw [← h.nodes]
    exact Nat.mod_lt _ (List.length_pos_of_ne_nil hnil)

theorem preceding_lt (h : KeepsOrder order f) (hnil : f.nodes ≠ []) :
    f.preceding < order.length := by
  have hpos : 0 < order.length := h.nodes ▸ List.length_pos_of_ne_nil hnil
  unfold FocusManager.preceding
  rw [h.nodes]
  split
  · exact Nat.sub_one_lt_of_lt hpos
  · exact Nat.sub_one_lt_of_lt hpos
  · next i hi => exact Nat.lt_of_succ_lt (h.inRange _ hi)

theorem focusPrevious (h : KeepsOrder order f) : KeepsOrder order f.focusPrevious.2 := by
  by_cases hnil : f.nodes = []
  · rw [FocusManager.focusPrevious, if_pos (by simp [hnil])]
    exact h
  · rw [FocusManager.focusPrevious_eq hnil]
    refine ⟨h.nodes, h.nodup, fun i hi => ?_⟩
    cases hi
    exact h.preceding_lt hnil

/-! ## Around the cycle -/

theorem next (h : KeepsOrder order f) (hnode : f.focusedNode = some node) (hmem : node ∈ order) :
    f.focusNext.1 = some (order.next node hmem) ∧
      f.focusNext.2.focusedNode = some (order.next node hmem) := by
  obtain ⟨i, hfocused, hi, rfl⟩ := h.focusedNode_eq_some.mp hnode
  have hpos : 0 < order.length := Nat.zero_lt_of_lt hi
  have hslot : f.nodes[f.upcoming % f.nodes.length]? = some (order.next order[i] hmem) := by
    rw [FocusManager.upcoming, hfocused, h.nodes, List.next_getElem order h.nodup i hi,
      List.getElem?_eq_getElem (Nat.mod_lt _ hpos)]
  rw [FocusManager.focusNext_eq (h.ne_nil_of_focused hfocused)]
  exact ⟨hslot, hslot⟩

theorem previous (h : KeepsOrder order f) (hnode : f.focusedNode = some node)
    (hmem : node ∈ order) :
    f.focusPrevious.1 = some (order.prev node hmem) ∧
      f.focusPrevious.2.focusedNode = some (order.prev node hmem) := by
  obtain ⟨i, hfocused, hi, rfl⟩ := h.focusedNode_eq_some.mp hnode
  have hpos : 0 < order.length := Nat.zero_lt_of_lt hi
  have hback : (i + (order.length - 1)) % order.length = f.preceding := by
    rw [FocusManager.preceding, hfocused, h.nodes]
    cases i with
    | zero => rw [Nat.zero_add, Nat.mod_eq_of_lt (Nat.sub_one_lt_of_lt hpos)]
    | succ i =>
        have hlen : i + 1 + (order.length - 1) = i + order.length := by omega
        rw [hlen, Nat.add_mod_right, Nat.mod_eq_of_lt (by omega)]
  have hslot : f.nodes[f.preceding]? = some (order.prev order[i] hmem) := by
    rw [List.prev_getElem order h.nodup i hi, ← List.getElem?_eq_getElem, hback, h.nodes]
  rw [FocusManager.focusPrevious_eq (h.ne_nil_of_focused hfocused)]
  exact ⟨hslot, hslot⟩

theorem first (h : KeepsOrder order f) (hnone : f.focused = none) :
    f.focusNext.1 = order.head? ∧ f.focusPrevious.1 = order.getLast? := by
  by_cases hnil : f.nodes = []
  · rw [FocusManager.focusNext, FocusManager.focusPrevious, if_pos (by simp [hnil]),
      if_pos (by simp [hnil]), ← h.nodes, hnil]
    exact ⟨rfl, rfl⟩
  · rw [FocusManager.focusNext_eq hnil, FocusManager.focusPrevious_eq hnil,
      FocusManager.upcoming, FocusManager.preceding, hnone, Nat.zero_mod, h.nodes]
    exact ⟨List.head?_eq_getElem?.symm, List.getLast?_eq_getElem?.symm⟩

theorem next_previous (h : KeepsOrder order f) (hi : f.focused = some i) :
    f.focusNext.2.focusPrevious.2 = f := by
  have hnil := h.ne_nil_of_focused hi
  have hlt : i < f.nodes.length := h.nodes ▸ h.inRange i hi
  obtain ⟨nodes, focused⟩ := f
  cases hi
  rw [FocusManager.focusNext_eq hnil]
  have hback : FocusManager.preceding ⟨nodes, some ((i + 1) % nodes.length)⟩ = i := by
    rcases Nat.lt_or_ge (i + 1) nodes.length with hnext | hlast
    · rw [Nat.mod_eq_of_lt hnext]
      rfl
    · obtain heq : i + 1 = nodes.length := le_antisymm hlt hlast
      rw [heq, Nat.mod_self]
      exact (Nat.eq_sub_of_add_eq heq).symm
  change (FocusManager.focusPrevious ⟨nodes, some ((i + 1) % nodes.length)⟩).2 = _
  rw [FocusManager.focusPrevious_eq (f := ⟨nodes, some ((i + 1) % nodes.length)⟩) hnil, hback]

theorem previous_next (h : KeepsOrder order f) (hi : f.focused = some i) :
    f.focusPrevious.2.focusNext.2 = f := by
  have hnil := h.ne_nil_of_focused hi
  have hlt : i < f.nodes.length := h.nodes ▸ h.inRange i hi
  obtain ⟨nodes, focused⟩ := f
  cases hi
  rw [FocusManager.focusPrevious_eq hnil]
  change (FocusManager.focusNext ⟨nodes, some (FocusManager.preceding ⟨nodes, some i⟩)⟩).2 = _
  rw [FocusManager.focusNext_eq
    (f := ⟨nodes, some (FocusManager.preceding ⟨nodes, some i⟩)⟩) hnil]
  have hforth : (FocusManager.preceding ⟨nodes, some i⟩ + 1) % nodes.length = i := by
    cases i with
    | zero =>
        change (nodes.length - 1 + 1) % nodes.length = 0
        rw [Nat.sub_add_cancel hlt, Nat.mod_self]
    | succ i => exact Nat.mod_eq_of_lt hlt
  exact congrArg (fun k => FocusManager.mk nodes (some k)) hforth

theorem tour_perm (h : KeepsOrder order f) : (tour order.length f).Perm (order.map some) := by
  by_cases hnil : f.nodes = []
  · rw [h.nodes] at hnil
    rw [hnil]
    exact List.Perm.nil
  · have hrotate : tour order.length f = (order.rotate f.upcoming).map some := by
      rw [FocusManager.tour_eq _ hnil, h.nodes]
      apply List.ext_getElem
      · simp
      · intro k hk hk'
        rw [h.nodes] at hnil
        have hpos := List.length_pos_of_ne_nil hnil
        rw [List.getElem_map, List.getElem_map, List.getElem_range, List.getElem_rotate,
          add_comm k, List.getElem?_eq_getElem (Nat.mod_lt _ hpos)]
    rw [hrotate]
    exact (List.rotate_perm order f.upcoming).map some

theorem laws (h : KeepsOrder order f) : FocusLaws order f where
  nodup := h.nodup
  points i hi := by
    have hlt := h.inRange i hi
    exact ⟨order[i], List.getElem_mem hlt, by rw [h.nodes, List.getElem?_eq_getElem hlt]⟩
  unregister_other _ _ hnode hother := h.unregister_other hnode hother
  unregister_focused _ hnode := h.unregister_focused hnode
  next _ hnode hmem := h.next hnode hmem
  previous _ hnode hmem := h.previous hnode hmem
  first hnone := h.first hnone
  next_previous hsome := by
    obtain ⟨i, hi⟩ := Option.ne_none_iff_exists'.mp hsome
    exact h.next_previous hi
  previous_next hsome := by
    obtain ⟨i, hi⟩ := Option.ne_none_iff_exists'.mp hsome
    exact h.previous_next hi
  tour_perm := h.tour_perm

theorem step (h : KeepsOrder order f) {call : FocusCall} (hfresh : FreshCall f call) :
    KeepsOrder (registerIn order call) (f.step call).2 := by
  cases call with
  | register nodeId => exact h.registerNode hfresh
  | unregister nodeId => exact h.unregisterNode nodeId
  | next => exact h.focusNext
  | previous => exact h.focusPrevious
  | clear =>
      refine ⟨h.nodes, h.nodup, fun i hi => ?_⟩
      cases hi

theorem final (h : KeepsOrder order f) {calls : List FocusCall}
    (hcalls : Along FreshCall FocusManager.step f calls) :
    KeepsOrder (calls.foldl registerIn order) (Transition.final FocusManager.step f calls) := by
  induction calls generalizing order f with
  | nil => exact h
  | cons call calls ih => exact ih (h.step hcalls.1) hcalls.2

end KeepsOrder

/-- In every state of a run in which each node is registered only while it is not, the focus
stays on its node and goes around the registered nodes in the order of their registration. -/
theorem keyboard_focus (calls : List FocusCall)
    (h : Along FreshCall FocusManager.step .new calls) :
    FocusLaws (registered calls) (final FocusManager.step .new calls) :=
  (KeepsOrder.new.final h).laws

/-- Two nodes are registered, the second one has the focus when the first one goes. -/
def focusCalls : List FocusCall :=
  [.register "a", .register "b", .previous, .unregister "a", .register "c"]

theorem keyboard_focus_kept :
    FocusLaws (registered focusCalls) (final FocusManager.step .new focusCalls) :=
  keyboard_focus focusCalls (by simp only [focusCalls, Along]; decide)

end Canvas

end InfinityOS
