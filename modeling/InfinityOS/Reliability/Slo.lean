import InfinityOS.Core.Arithmetic
import InfinityOS.Core.Maps
import InfinityOS.Core.OrderStatistics
import InfinityOS.Core.Types

/-!
# Service level objectives

A registry of objectives, each with a window of the last samples. `evaluate` reports a
percentile or the mean of the window as the measured value, and decides by the fraction of the
samples that meet the threshold, against a target of its own. The arithmetic is a parameter; the
result about the verdict reads values and ratios as exact rational numbers.
-/

namespace InfinityOS

namespace Reliability

open Arithmetic OrderStatistics

inductive SloError where
  | duplicate (name : String)
  | notFound (name : String)
  | emptySamples (name : String)
  deriving DecidableEq

inductive SloKind where
  | taskLatency
  | taskQueueWait
  | taskAvailability
  | uiFrameTime
  | uiInteractionLatency
  deriving DecidableEq

structure SloThreshold (F : Type) where
  name : String
  kind : SloKind
  threshold : F
  percentile : UInt8
  targetRatio : F
  deriving DecidableEq

structure SloSample (F : Type) where
  sloName : String
  value : F
  timestampSecs : UInt64

structure SloStatus (F : Type) where
  name : String
  passing : Bool
  measuredValue : F
  threshold : F
  complianceRatio : F
  sampleCount : ℕ
  deriving DecidableEq

structure SloRegistry (F : Type) where
  thresholds : HashMap String (SloThreshold F)
  windows : HashMap String (List F)
  windowSize : ℕ

section Registry

variable {F : Type} [Arithmetic F]

namespace SloThreshold

def latency (name : String) (kind : SloKind) (percentile : UInt8) (thresholdMs targetRatio : F) :
    SloThreshold F :=
  { name, kind, threshold := thresholdMs, percentile, targetRatio := clamp targetRatio }

def availability (name : String) (kind : SloKind) (targetRatio : F) : SloThreshold F :=
  { name, kind, threshold := clamp targetRatio, percentile := 0,
    targetRatio := clamp targetRatio }

end SloThreshold

namespace SloRegistry

def new (windowSize : ℕ) : SloRegistry F where
  thresholds := ∅
  windows := ∅
  windowSize := max windowSize 1

def register (reg : SloRegistry F) (slo : SloThreshold F) : Except SloError Unit × SloRegistry F :=
  if reg.thresholds.contains slo.name then (.error (.duplicate slo.name), reg)
  else
    (.ok (), { reg with
      windows := reg.windows.insert slo.name []
      thresholds := reg.thresholds.insert slo.name slo })

/-- The objectives of `with_defaults`. -/
def defaults : List (SloThreshold F) :=
  [.latency "task.p50_latency_ms" .taskLatency 50 200.0 0.999,
    .latency "task.p99_latency_ms" .taskLatency 99 2000.0 0.999,
    .availability "task.availability" .taskAvailability 0.999,
    .latency "ui.frame_time_ms" .uiFrameTime 99 16.0 0.999,
    .latency "ui.interaction_latency_ms" .uiInteractionLatency 99 100.0 0.999]

def record (reg : SloRegistry F) (sample : SloSample F) : Except SloError Unit × SloRegistry F :=
  match reg.windows[sample.sloName]? with
  | none => (.error (.notFound sample.sloName), reg)
  | some window =>
      let window := if window.length ≥ reg.windowSize then window.tail else window
      (.ok (), { reg with windows := reg.windows.insert sample.sloName (window ++ [sample.value]) })

/-- The index of the percentile in the sorted window of `n` samples, before it is capped. -/
def percentileIndex (F : Type) [Arithmetic F] (percentile : UInt8) (n : ℕ) : ℕ :=
  nearest ((ofNat percentile.toNat : F) / 100.0 * ofNat (n - 1))

/-- The test that a sample complies. -/
def complies (threshold : SloThreshold F) (v : F) : Bool :=
  if threshold.kind = .taskAvailability then decide (v ≥ threshold.threshold)
  else decide (v ≤ threshold.threshold)

/-- The value that is reported for a sorted window. -/
def measure (threshold : SloThreshold F) (sorted : List F) : F :=
  if threshold.kind = .taskAvailability then mean sorted
  else
    let idx := percentileIndex F threshold.percentile sorted.length
    sorted[min idx (sorted.length - 1)]?.getD 0.0

def evaluate (reg : SloRegistry F) (name : String) : Except SloError (SloStatus F) :=
  match reg.thresholds[name]? with
  | none => .error (.notFound name)
  | some threshold =>
      match reg.windows[name]? with
      | none => .error (.notFound name)
      | some window =>
          if window.isEmpty then .error (.emptySamples name)
          else
            let sorted := window.insertionSort fun a b => totalLe a b = true
            let measured := measure threshold sorted
            let compliant := sorted.countP (complies threshold)
            let complianceRatio := ofNat compliant / ofNat sorted.length
            .ok
              { name
                passing := decide (complianceRatio ≥ threshold.targetRatio)
                measuredValue := measured
                threshold := threshold.threshold
                complianceRatio
                sampleCount := window.length }

end SloRegistry

end Registry

/-! ## What the verdict is about -/

/-- The measured value meets the threshold. -/
def SloThreshold.Meets (threshold : SloThreshold ℚ) (measured : ℚ) : Prop :=
  if threshold.kind = .taskAvailability then threshold.threshold ≤ measured
  else measured ≤ threshold.threshold

/-- The place of the percentile among `n` samples, counted from one. -/
def SloThreshold.percentileRank (threshold : SloThreshold ℚ) (n : ℕ) : ℕ :=
  min (SloRegistry.percentileIndex ℚ threshold.percentile n) (n - 1) + 1

/-- The least number of `n` samples that has the target ratio. -/
def SloThreshold.requiredCount (threshold : SloThreshold ℚ) (n : ℕ) : ℤ :=
  ⌈threshold.targetRatio * n⌉

def SloThreshold.meetingCount (threshold : SloThreshold ℚ) (window : List ℚ) : ℕ :=
  if threshold.kind = .taskAvailability then window.countP (threshold.threshold ≤ ·)
  else window.countP (· ≤ threshold.threshold)

/-- The number of samples that the measured value needs: the place of the percentile, or for
availability as many as break even with the others. -/
def SloThreshold.neededCount (threshold : SloThreshold ℚ) (window : List ℚ) : ℤ :=
  if threshold.kind = .taskAvailability then ⌈breakEven window threshold.threshold⌉
  else threshold.percentileRank window.length

/-- The number of samples that meet the threshold is not between the one that the measured value
needs and the one that the target requires. -/
def SloThreshold.Coherent (threshold : SloThreshold ℚ) (window : List ℚ) : Prop :=
  ¬ (min (threshold.neededCount window) (threshold.requiredCount window.length) ≤
        threshold.meetingCount window ∧
      threshold.meetingCount window <
        max (threshold.neededCount window) (threshold.requiredCount window.length))

instance (threshold : SloThreshold ℚ) (window : List ℚ) : Decidable (threshold.Coherent window) :=
  inferInstanceAs (Decidable (¬ (_ ∧ _)))

/-! ## The verdict and the measured value -/

section Verdict

variable {threshold : SloThreshold ℚ} {window : List ℚ}

theorem targetRatio_le_iff {n c : ℕ} (hn : 0 < n) :
    (c : ℚ) / n ≥ threshold.targetRatio ↔ threshold.requiredCount n ≤ c := by
  have hpos : (0 : ℚ) < n := by exact_mod_cast hn
  rw [ge_iff_le, le_div_iff₀ hpos, SloThreshold.requiredCount, Int.ceil_le, Int.cast_natCast]

theorem meets_percentile_iff (hkind : threshold.kind ≠ .taskAvailability) (hne : window ≠ []) :
    threshold.Meets (SloRegistry.measure threshold (window.insertionSort (· ≤ ·))) ↔
      threshold.percentileRank window.length ≤ window.countP (· ≤ threshold.threshold) := by
  have hpos := List.length_pos_iff.mpr hne
  have hlength := List.length_insertionSort (· ≤ ·) window
  have hindex : min (SloRegistry.percentileIndex ℚ threshold.percentile window.length)
      (window.length - 1) < (window.insertionSort (· ≤ ·)).length := by
    omega
  have hrank := getElem_le_iff (List.pairwise_insertionSort (· ≤ ·) window) hindex
    threshold.threshold
  rw [SloThreshold.Meets, if_neg hkind, SloRegistry.measure, if_neg hkind, hlength]
  dsimp only
  rw [List.getElem?_eq_getElem hindex, Option.getD_some, hrank,
    (List.perm_insertionSort _ window).countP_eq]
  exact Iff.rfl

theorem meets_mean_iff (hkind : threshold.kind = .taskAvailability) (hne : window ≠ []) :
    threshold.Meets (SloRegistry.measure threshold (window.insertionSort (· ≤ ·))) ↔
      ⌈breakEven window threshold.threshold⌉ ≤ window.countP (threshold.threshold ≤ ·) := by
  rw [SloThreshold.Meets, if_pos hkind, SloRegistry.measure, if_pos hkind, mean_eq,
    (List.perm_insertionSort _ window).sum_eq, List.length_insertionSort,
    le_mean_iff_breakEven hne, Int.ceil_le, Int.cast_natCast]

theorem meets_measure_iff (hne : window ≠ []) :
    threshold.Meets (SloRegistry.measure threshold (window.insertionSort (· ≤ ·))) ↔
      threshold.neededCount window ≤ threshold.meetingCount window := by
  unfold SloThreshold.neededCount SloThreshold.meetingCount
  by_cases hkind : threshold.kind = .taskAvailability
  · rw [if_pos hkind, if_pos hkind, meets_mean_iff hkind hne]
  · rw [if_neg hkind, if_neg hkind, meets_percentile_iff hkind hne, Int.ofNat_le]

theorem coherent_iff (hne : window ≠ []) :
    threshold.Coherent window ↔
      (threshold.requiredCount window.length ≤ threshold.meetingCount window ↔
        threshold.Meets (SloRegistry.measure threshold (window.insertionSort (· ≤ ·)))) := by
  rw [meets_measure_iff hne, SloThreshold.Coherent]
  omega

theorem sum_outcomes {x : ℚ} (hx : 0 < x) (hone : x ≤ 1) (hwindow : ∀ v ∈ window, v = 0 ∨ v = 1) :
    window.sum = window.countP (x ≤ ·) := by
  induction window with
  | nil => rfl
  | cons v window ih =>
      rw [List.forall_mem_cons] at hwindow
      rw [List.sum_cons, ih hwindow.2, List.countP_cons]
      rcases hwindow.1 with rfl | rfl
      · simp [not_le.mpr hx]
      · simp [hone, add_comm]

theorem coherent_of_outcomes (name : String) (ratio : ℚ) (hne : window ≠ [])
    (hwindow : ∀ v ∈ window, v = 0 ∨ v = 1) :
    (SloThreshold.availability name .taskAvailability ratio).Coherent window := by
  have hpos := List.length_pos_iff.mpr hne
  have hkind : (SloThreshold.availability name .taskAvailability ratio).kind =
      .taskAvailability := rfl
  rw [coherent_iff hne, ← targetRatio_le_iff hpos, SloThreshold.Meets, if_pos hkind,
    SloRegistry.measure, if_pos hkind, mean_eq, (List.perm_insertionSort _ window).sum_eq,
    List.length_insertionSort, SloThreshold.meetingCount, if_pos hkind, ge_iff_le]
  change clamp ratio ≤ (window.countP (clamp ratio ≤ ·) : ℚ) / window.length ↔
    clamp ratio ≤ window.sum / window.length
  rcases (clamp_nonneg ratio).eq_or_lt with hzero | hlt
  · rw [← hzero]
    apply iff_of_true
    · positivity
    · apply div_nonneg _ (Nat.cast_nonneg _)
      apply List.sum_nonneg
      intro v hv
      rcases hwindow v hv with rfl | rfl
      · exact le_rfl
      · exact zero_le_one
  · rw [sum_outcomes hlt (clamp_le_one ratio) hwindow]

end Verdict

end Reliability

end InfinityOS
