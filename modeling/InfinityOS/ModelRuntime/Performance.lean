import InfinityOS.Core.Checks
import InfinityOS.Registry.ActionLog

/-!
# Tuning a model by its performance

`record_performance` counts the sample, evaluates all tuning rules before it applies one,
logs each adjustment that it applies, and then looks at the reload policy. Both the rules and
the reload policy fail on a metric that the sample does not have, when the sample has been
counted and, in the case of the reload policy, the adjustments have been made.
-/

namespace InfinityOS

namespace ModelRuntime

open Registry (Stamp)

inductive ComparisonOperator where
  | atLeast
  | atMost
  | equal
  deriving DecidableEq

/-- The derived debug text. -/
def ComparisonOperator.debug : ComparisonOperator → String
  | atLeast => "AtLeast"
  | atMost => "AtMost"
  | equal => "Equal"

/-- `f64::max`, which passes over a NaN. -/
def fmax (a b : Float) : Float :=
  if a.isNaN then b else if b.isNaN then a else if a < b then b else a

def comparisonTolerance : Float := 1e-9

def compareMetric (value : Float) (operator : ComparisonOperator) (threshold : Float) : Bool :=
  match operator with
  | .atLeast => decide (value ≥ threshold)
  | .atMost => decide (value ≤ threshold)
  | .equal =>
      let diff := (value - threshold).abs
      let scale := fmax (fmax value.abs threshold.abs) 1
      decide (diff ≤ scale * comparisonTolerance)

inductive ModelKind where
  | ml
  | ai
  deriving DecidableEq

/-- The derived debug text. -/
def ModelKind.debug : ModelKind → String
  | ml => "Ml"
  | ai => "Ai"

abbrev Hyperparameters := HashMap String Json

structure PerformanceSample where
  capturedAtMs : UInt64
  metrics : HashMap String Float

structure HyperparameterAdjustment where
  modelId : String
  metric : String
  observed : Float
  threshold : Float
  operator : ComparisonOperator
  reason : String
  changes : Hyperparameters

structure HyperparameterRule where
  metric : String
  operator : ComparisonOperator
  threshold : Float
  changes : Hyperparameters
  reason : String

structure ModelReloadPolicy where
  metric : String
  operator : ComparisonOperator
  threshold : Float
  minSamples : UInt64
  cooldownMs : UInt64

def ModelReloadPolicy.immediate (metric : String) (operator : ComparisonOperator)
    (threshold : Float) : ModelReloadPolicy :=
  { metric, operator, threshold, minSamples := 1, cooldownMs := 0 }

structure ModelReloadRequest where
  modelId : String
  reloadGeneration : UInt64
  observed : Float
  threshold : Float
  metric : String
  reason : String
  requestedAtMs : UInt64

structure ModelOptimizationDecision where
  adjustments : List HyperparameterAdjustment
  reload : Option ModelReloadRequest

structure ModelProfile where
  modelId : String
  dimensionId : DimensionId
  taskId : TaskId
  kind : ModelKind
  version : String
  hyperparameters : Hyperparameters
  tuningPolicy : List HyperparameterRule
  reloadPolicy : ModelReloadPolicy

structure ModelState where
  profile : ModelProfile
  sampleCount : UInt64
  reloadGeneration : UInt64
  lastReloadAtMs : Option UInt64

inductive ModelRuntimeError where
  | modelNotFound (modelId : String)
  | modelAlreadyRegistered (modelId : String)
  | missingMetric (metric : String)
  deriving DecidableEq

def saturatingSub (a b : UInt64) : UInt64 :=
  if a < b then 0 else a - b

/-! ## Rules and the reload policy -/

def HyperparameterRule.evaluateSample (modelId : String) (sample : PerformanceSample)
    (rule : HyperparameterRule) : Except ModelRuntimeError (Option HyperparameterAdjustment) :=
  match sample.metrics[rule.metric]? with
  | none => .error (.missingMetric rule.metric)
  | some value =>
      if compareMetric value rule.operator rule.threshold then
        .ok (some
          { modelId, metric := rule.metric, observed := value, threshold := rule.threshold,
            operator := rule.operator, reason := rule.reason, changes := rule.changes })
      else .ok none

def applyAdjustment (state : ModelState) (adjustment : HyperparameterAdjustment) : ModelState :=
  let hyperparameters := adjustment.changes.toList.foldl (fun m p => m.insert p.1 p.2)
    state.profile.hyperparameters
  { state with profile := { state.profile with hyperparameters } }

def checkReloadPolicy (state : ModelState) (sample : PerformanceSample) :
    Except ModelRuntimeError (Option ModelReloadRequest) × ModelState :=
  let policy := state.profile.reloadPolicy
  if state.sampleCount < policy.minSamples then (.ok none, state)
  else
    match sample.metrics[policy.metric]? with
    | none => (.error (.missingMetric policy.metric), state)
    | some value =>
        if !compareMetric value policy.operator policy.threshold then (.ok none, state)
        else if state.lastReloadAtMs.any fun last =>
            saturatingSub sample.capturedAtMs last < policy.cooldownMs then
          (.ok none, state)
        else
          let state :=
            { state with
              reloadGeneration := state.reloadGeneration + 1
              lastReloadAtMs := some sample.capturedAtMs }
          (.ok (some
            { modelId := state.profile.modelId, reloadGeneration := state.reloadGeneration,
              observed := value, threshold := policy.threshold, metric := policy.metric,
              reason := "performance threshold breached",
              requestedAtMs := sample.capturedAtMs }), state)

/-- The entry of `log_hyperparameter_adjustment`. -/
def adjustmentEntry (state : ModelState) (adjustment : HyperparameterAdjustment)
    (stamp : Stamp) : ActionLog.Entry :=
  .new .modelHyperparametersAdjusted .system (some state.profile.dimensionId)
    (some state.profile.taskId)
    (.object [("changes", .object adjustment.changes.toList),
      ("metric", .string adjustment.metric), ("model_id", .string adjustment.modelId),
      ("observed", .ofFloat adjustment.observed),
      ("operator", .string adjustment.operator.debug), ("reason", .string adjustment.reason),
      ("threshold", .ofFloat adjustment.threshold), ("version", .string state.profile.version)])
    stamp

/-- The entry of `log_reload`. -/
def reloadEntry (state : ModelState) (reload : ModelReloadRequest) (stamp : Stamp) :
    ActionLog.Entry :=
  .new .modelReloadRequested .system (some state.profile.dimensionId)
    (some state.profile.taskId)
    (.object [("metric", .string reload.metric), ("model_id", .string reload.modelId),
      ("observed", .ofFloat reload.observed), ("reason", .string reload.reason),
      ("reload_generation", .number (.posInt reload.reloadGeneration)),
      ("requested_at_ms", .number (.posInt reload.requestedAtMs)),
      ("threshold", .ofFloat reload.threshold), ("version", .string state.profile.version)])
    stamp

/-! ## The manager -/

structure ModelPerformanceManager where
  models : HashMap String ModelState
  actionLog : List ActionLog.Entry

namespace ModelPerformanceManager

def new : ModelPerformanceManager :=
  { models := ∅, actionLog := [] }

def registerModel (m : ModelPerformanceManager) (profile : ModelProfile) :
    Except ModelRuntimeError Unit × ModelPerformanceManager :=
  if m.models.contains profile.modelId then
    (.error (.modelAlreadyRegistered profile.modelId), m)
  else
    let state := { profile, sampleCount := 0, reloadGeneration := 0, lastReloadAtMs := none }
    (.ok (), { m with models := m.models.insert profile.modelId state })

/-- The loop that applies and logs the adjustments; the `k`-th draws `stamps k`. -/
def adjust (stamps : ℕ → Stamp) : ℕ → List HyperparameterAdjustment →
    ModelState × List ActionLog.Entry → ModelState × List ActionLog.Entry
  | _, [], s => s
  | k, adjustment :: rest, (state, log) =>
      let state := applyAdjustment state adjustment
      adjust stamps (k + 1) rest (state, log ++ [adjustmentEntry state adjustment (stamps k)])

def recordPerformance (m : ModelPerformanceManager) (modelId : String)
    (sample : PerformanceSample) (stamps : ℕ → Stamp) :
    Except ModelRuntimeError ModelOptimizationDecision × ModelPerformanceManager :=
  match m.models[modelId]? with
  | none => (.error (.modelNotFound modelId), m)
  | some state =>
      let state := { state with sampleCount := state.sampleCount + 1 }
      match state.profile.tuningPolicy.mapM (HyperparameterRule.evaluateSample modelId sample) with
      | .error e => (.error e, { m with models := m.models.insert modelId state })
      | .ok found =>
          let adjustments := found.filterMap id
          let (state, log) := adjust stamps 0 adjustments (state, m.actionLog)
          match checkReloadPolicy state sample with
          | (.error e, state) =>
              (.error e, { models := m.models.insert modelId state, actionLog := log })
          | (.ok none, state) =>
              (.ok { adjustments, reload := none },
                { models := m.models.insert modelId state, actionLog := log })
          | (.ok (some reload), state) =>
              (.ok { adjustments, reload := some reload },
                { models := m.models.insert modelId state
                  actionLog := log ++ [reloadEntry state reload (stamps adjustments.length)] })

end ModelPerformanceManager

/-! ## Which samples are recorded -/

def PerformanceSample.has (sample : PerformanceSample) (metric : String) : Prop :=
  sample.metrics.contains metric = true

theorem PerformanceSample.has_iff {sample : PerformanceSample} {metric : String} :
    sample.has metric ↔ ∃ value, sample.metrics[metric]? = some value := by
  rw [PerformanceSample.has, Std.ExtTreeMap.contains_eq_isSome_getElem?, Option.isSome_iff_exists]

theorem evaluateSample_ok_iff {modelId : String} {sample : PerformanceSample}
    {rule : HyperparameterRule} :
    (∃ found, rule.evaluateSample modelId sample = .ok found) ↔ sample.has rule.metric := by
  rw [PerformanceSample.has_iff, HyperparameterRule.evaluateSample]
  cases sample.metrics[rule.metric]? with
  | none => simp
  | some value =>
      dsimp only
      split <;> simp

theorem checkReloadPolicy_fails_iff {state : ModelState} {sample : PerformanceSample} :
    (∃ e, (checkReloadPolicy state sample).1 = .error e) ↔
      ¬ (state.sampleCount < state.profile.reloadPolicy.minSamples ∨
        sample.has state.profile.reloadPolicy.metric) := by
  rw [PerformanceSample.has_iff, checkReloadPolicy]
  dsimp only
  split
  · next hfew => simp [hfew]
  · next hmany =>
      cases sample.metrics[state.profile.reloadPolicy.metric]? with
      | none => simp [hmany]
      | some value =>
          dsimp only
          split
          · simp
          · split <;> simp

theorem sampleCount_checkReloadPolicy (state : ModelState) (sample : PerformanceSample) :
    (checkReloadPolicy state sample).2.sampleCount = state.sampleCount := by
  rw [checkReloadPolicy]
  dsimp only
  split
  · rfl
  · split
    · rfl
    · split
      · rfl
      · split <;> rfl

theorem adjust_frame (stamps : ℕ → Stamp) (k : ℕ) (adjustments : List HyperparameterAdjustment)
    (state : ModelState) (log : List ActionLog.Entry) :
    (ModelPerformanceManager.adjust stamps k adjustments (state, log)).1.sampleCount =
        state.sampleCount ∧
      (ModelPerformanceManager.adjust stamps k adjustments
        (state, log)).1.profile.reloadPolicy = state.profile.reloadPolicy := by
  induction adjustments generalizing k state log with
  | nil => exact ⟨rfl, rfl⟩
  | cons adjustment rest ih => exact ih (k + 1) (applyAdjustment state adjustment) _

theorem checkReloadPolicy_adjust (stamps : ℕ → Stamp) (k : ℕ)
    (adjustments : List HyperparameterAdjustment) (state : ModelState)
    (log : List ActionLog.Entry) (sample : PerformanceSample) :
    let tuned := (ModelPerformanceManager.adjust stamps k adjustments (state, log)).1
    (checkReloadPolicy tuned sample).2.sampleCount = state.sampleCount ∧
      ((∃ e, (checkReloadPolicy tuned sample).1 = .error e) ↔
        ¬ (state.sampleCount < state.profile.reloadPolicy.minSamples ∨
          sample.has state.profile.reloadPolicy.metric)) := by
  intro tuned
  obtain ⟨hcount, hpolicy⟩ := adjust_frame stamps k adjustments state log
  constructor
  · rw [sampleCount_checkReloadPolicy, hcount]
  · rw [checkReloadPolicy_fails_iff, hcount, hpolicy]

/-- The sample has the metric of every rule, and that of the reload policy unless there are
too few samples, this one among them. -/
def MetricsSuffice (state : ModelState) (sample : PerformanceSample) : Prop :=
  (∀ rule ∈ state.profile.tuningPolicy, sample.has rule.metric) ∧
    (state.sampleCount + 1 < state.profile.reloadPolicy.minSamples ∨
      sample.has state.profile.reloadPolicy.metric)

section Record

variable {m : ModelPerformanceManager} {modelId : String} {state : ModelState}

theorem sampleCount_recordPerformance (hget : m.models[modelId]? = some state)
    (sample : PerformanceSample) (stamps : ℕ → Stamp) :
    ((m.recordPerformance modelId sample stamps).2.models[modelId]?).map
      ModelState.sampleCount = some (state.sampleCount + 1) := by
  unfold ModelPerformanceManager.recordPerformance
  rw [hget]
  dsimp only
  cases state.profile.tuningPolicy.mapM (HyperparameterRule.evaluateSample modelId sample) with
  | error e =>
      dsimp only
      rw [Maps.getElem?_insert_ite, if_pos rfl]
      rfl
  | ok found =>
      dsimp only
      have hcheck := (checkReloadPolicy_adjust stamps 0 (found.filterMap id)
        { state with sampleCount := state.sampleCount + 1 } m.actionLog sample).1
      split
      all_goals
        next heq =>
          rw [heq] at hcheck
          rw [Maps.getElem?_insert_ite, if_pos rfl, Option.map_some, hcheck]

theorem recordPerformance_fails_iff (hget : m.models[modelId]? = some state)
    (sample : PerformanceSample) (stamps : ℕ → Stamp) :
    (∃ e, (m.recordPerformance modelId sample stamps).1 = .error e) ↔
      ¬ MetricsSuffice state sample := by
  have hrules := @Checks.exists_mapM_eq_ok _ _ _
    (HyperparameterRule.evaluateSample modelId sample) state.profile.tuningPolicy
  simp only [evaluateSample_ok_iff] at hrules
  unfold ModelPerformanceManager.recordPerformance MetricsSuffice
  rw [hget]
  dsimp only
  cases hfound :
      state.profile.tuningPolicy.mapM (HyperparameterRule.evaluateSample modelId sample) with
  | error e =>
      refine iff_of_true ⟨e, rfl⟩ fun h => ?_
      obtain ⟨found, hok⟩ := hrules.mpr h.1
      rw [hfound] at hok
      cases hok
  | ok found =>
      dsimp only
      rw [and_iff_right (hrules.mp ⟨found, hfound⟩)]
      have hcheck := (checkReloadPolicy_adjust stamps 0 (found.filterMap id)
        { state with sampleCount := state.sampleCount + 1 } m.actionLog sample).2
      rw [← hcheck]
      split
      all_goals
        next heq =>
          rw [heq]
          simp

end Record

/-- A failed call leaves the models and the log as they were exactly if the model is not
registered, or the call cannot fail because every metric that is looked up is there. -/
theorem recordPerformance_atomic_iff (m : ModelPerformanceManager) (modelId : String)
    (sample : PerformanceSample) (stamps : ℕ → Stamp) :
    ((∃ e, (m.recordPerformance modelId sample stamps).1 = .error e) →
        (m.recordPerformance modelId sample stamps).2 = m) ↔
      ∀ state, m.models[modelId]? = some state → MetricsSuffice state sample := by
  cases hget : m.models[modelId]? with
  | none =>
      refine iff_of_true (fun _ => ?_) (fun state h => by cases h)
      rw [ModelPerformanceManager.recordPerformance, hget]
  | some state =>
      simp only [Option.some.injEq, forall_eq']
      rw [recordPerformance_fails_iff hget]
      have hcount := sampleCount_recordPerformance hget sample stamps
      constructor
      · intro h
        by_contra hmissing
        rw [h hmissing, hget] at hcount
        simp at hcount
      · intro h hmissing
        exact absurd h hmissing

def accuracyProfile : ModelProfile :=
  { modelId := "model-a", dimensionId := 7, taskId := 9, kind := .ml, version := "v1",
    hyperparameters := ∅, tuningPolicy := [],
    reloadPolicy := .immediate "accuracy" .atMost 0.9 }

def emptySample : Except ModelRuntimeError ModelOptimizationDecision × ModelPerformanceManager :=
  (ModelPerformanceManager.new.registerModel accuracyProfile).2.recordPerformance "model-a"
    { capturedAtMs := 0, metrics := ∅ } fun _ => { eventId := 3, occurredAtMs := 0 }

theorem empty_sample_counted :
    ¬ ((∃ e, emptySample.1 = .error e) →
      emptySample.2 = (ModelPerformanceManager.new.registerModel accuracyProfile).2) := by
  intro h
  have hmodels := congrArg ModelPerformanceManager.models (h ⟨.missingMetric "accuracy", rfl⟩)
  have hcount := congrArg
    (fun models : HashMap String ModelState => models["model-a"]?.map ModelState.sampleCount)
    hmodels
  revert hcount
  decide

end ModelRuntime

end InfinityOS
