import InfinityOS.Graph.Types

/-!
# Ranges of a sample

`&v[start..end]` panics unless `start ≤ end` and `end` is at most the length. `range` clamps
both indices to the length of the sample, which settles the second condition and not the
first.
-/

namespace InfinityOS

namespace Graph

/-- `&v[start..end]`, `none` being the panic. -/
def sliceRange {α : Type} (v : List α) (start stop : ℕ) : Option (List α) :=
  if start ≤ stop ∧ stop ≤ v.length then some ((v.take stop).drop start) else none

/-- The elements with an index in `[start, stop)`, in order. -/
def elementsBetween {α : Type} (v : List α) (start stop : ℕ) : List α :=
  (v.zipIdx.filter fun p => decide (start ≤ p.2) && decide (p.2 < stop)).map Prod.fst

structure NodeSample where
  nodes : List GraphNode

namespace NodeSample

def count (s : NodeSample) : ℕ :=
  s.nodes.length

/-- `range`; an index is any number, those of a `usize` among them. -/
def range (s : NodeSample) (start stop : ℕ) : Option NodeSample :=
  let start := min start s.nodes.length
  let stop := min stop s.nodes.length
  (sliceRange s.nodes start stop).map fun nodes => { nodes }

end NodeSample

section Elements

variable {α : Type} (v : List α)

theorem filter_zipIdx (start stop k : ℕ) :
    ((v.zipIdx k).filter fun p => decide (start ≤ p.2) && decide (p.2 < stop)).map Prod.fst =
      (v.take (stop - k)).drop (start - k) := by
  induction v generalizing k with
  | nil => simp
  | cons a v ih =>
      have htail := ih (k + 1)
      rw [List.zipIdx_cons]
      rcases Nat.lt_or_ge k stop with hstop | hstop
      · have hlen : stop - k = (stop - (k + 1)) + 1 := by omega
        rw [hlen, List.take_succ_cons]
        rcases Nat.lt_or_ge k start with hstart | hstart
        · have hdrop : start - k = (start - (k + 1)) + 1 := by omega
          rw [hdrop, List.drop_succ_cons, ← htail, List.filter_cons_of_neg]
          simp [hstart.not_ge]
        · have hzero : start - k = 0 := by omega
          have hnext : start - (k + 1) = 0 := by omega
          rw [hnext, List.drop_zero] at htail
          rw [hzero, List.drop_zero, ← htail, List.filter_cons_of_pos, List.map_cons]
          simpa using ⟨hstart, hstop⟩
      · have hzero : stop - k = 0 := by omega
        have hnext : stop - (k + 1) = 0 := by omega
        rw [hnext, List.take_zero, List.drop_nil] at htail
        rw [hzero, List.take_zero, List.drop_nil, List.filter_cons_of_neg, htail]
        simpa using fun _ => hstop

theorem elementsBetween_eq (start stop : ℕ) :
    elementsBetween v start stop = (v.take stop).drop start :=
  filter_zipIdx v start stop 0

theorem elementsBetween_clamp (start stop : ℕ) :
    elementsBetween v (min start v.length) (min stop v.length) = elementsBetween v start stop := by
  rw [elementsBetween_eq, elementsBetween_eq, List.take_eq_take_min]
  rw [show min (min stop v.length) v.length = min stop v.length by omega,
    ← List.take_eq_take_min]
  rcases Nat.lt_or_ge v.length start with hlong | hshort
  · have hlen : (v.take stop).length ≤ v.length := by simp
    rw [min_eq_right hlong.le, List.drop_of_length_le hlen,
      List.drop_of_length_le (hlen.trans hlong.le)]
  · rw [min_eq_left hshort]

theorem sliceRange_eq (start stop : ℕ) :
    sliceRange v start stop =
      if start ≤ stop ∧ stop ≤ v.length then some (elementsBetween v start stop) else none := by
  rw [sliceRange, elementsBetween_eq]

end Elements

/-- The range is the elements between the indices, and there is no panic, exactly if the
start is not beyond the end or the end is not within the sample. -/
theorem range_exact_iff (s : NodeSample) (start stop : ℕ) :
    s.range start stop = some { nodes := elementsBetween s.nodes start stop } ↔
      start ≤ stop ∨ s.count ≤ stop := by
  have hclamped : min start s.nodes.length ≤ min stop s.nodes.length ↔
      start ≤ stop ∨ s.count ≤ stop := by
    unfold NodeSample.count
    omega
  rw [NodeSample.range, sliceRange_eq, elementsBetween_clamp, ← hclamped]
  constructor
  · intro h
    by_contra hbad
    rw [if_neg fun hboth => hbad hboth.1] at h
    cases h
  · intro h
    rw [if_pos ⟨h, Nat.min_le_right _ _⟩]
    rfl

theorem range_eq_none_iff (s : NodeSample) (start stop : ℕ) :
    s.range start stop = none ↔ stop < start ∧ stop < s.count := by
  unfold NodeSample.range NodeSample.count sliceRange
  rw [Option.map_eq_none_iff, ite_eq_right_iff]
  constructor
  · intro h
    by_contra hgood
    exact absurd (h ⟨by omega, Nat.min_le_right _ _⟩) (by simp)
  · rintro ⟨hstart, hstop⟩ ⟨hle, -⟩
    omega

def twoNodes : NodeSample :=
  { nodes := [.new 1 "http.request" "fetch" 0, .new 2 "ml.predict" "score" 0] }

theorem range_reversed_panics :
    ¬ twoNodes.range 1 0 = some { nodes := elementsBetween twoNodes.nodes 1 0 } := by
  intro h
  cases h

end Graph

end InfinityOS
