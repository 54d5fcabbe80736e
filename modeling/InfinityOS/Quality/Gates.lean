import InfinityOS.Core.Types

/-!
# Quality gates

The gates of a merge request, each comparing one named metric of a report with a
threshold, and the verdict of a set of gates. Metrics are read as exact rational numbers.
-/

namespace InfinityOS

namespace Quality

inductive GateError where
  | duplicateName (name : String)
  | missingMetric (metric : String)
  deriving DecidableEq

inductive GateCategory where
  | testPassing
  | coverage
  | security
  | performance
  | contractConformance
  | documentation
  deriving DecidableEq

structure MergeReadinessReport where
  metrics : HashMap String ℚ

namespace MergeReadinessReport

def new : MergeReadinessReport where
  metrics := ∅

def record (report : MergeReadinessReport) (name : String) (value : ℚ) :
    MergeReadinessReport :=
  { report with metrics := report.metrics.insert name value }

def get (report : MergeReadinessReport) (name : String) : Option ℚ :=
  report.metrics[name]?

/-- Every one of these metrics is in the report with its value. -/
def Carries (report : MergeReadinessReport) (metrics : HashMap String ℚ) : Prop :=
  ∀ (name : String) (value : ℚ), metrics[name]? = some value → report.get name = some value

end MergeReadinessReport

inductive GateOp where
  | atLeast
  | atMost
  | equal
  deriving DecidableEq

structure QualityGate where
  name : String
  category : GateCategory
  metric : String
  op : GateOp
  threshold : ℚ
  rationale : String

structure GateOutcome where
  gateName : String
  passed : Bool
  metricValue : ℚ
  threshold : ℚ

namespace QualityGate

def accepts (gate : QualityGate) (value : ℚ) : Bool :=
  match gate.op with
  | .atLeast => decide (gate.threshold ≤ value)
  | .atMost => decide (value ≤ gate.threshold)
  | .equal => decide (|value - gate.threshold| < 1 / 1000000000)

def evaluate (gate : QualityGate) (report : MergeReadinessReport) :
    Except GateError GateOutcome :=
  match report.get gate.metric with
  | none => .error (.missingMetric gate.metric)
  | some value => .ok
      { gateName := gate.name
        passed := gate.accepts value
        metricValue := value
        threshold := gate.threshold }

/-- The outcome of a gate in a set: one that cannot be evaluated fails. -/
def outcome (gate : QualityGate) (report : MergeReadinessReport) : GateOutcome :=
  match gate.evaluate report with
  | .ok outcome => outcome
  | .error _ =>
      { gateName := gate.name
        passed := false
        metricValue := 0
        threshold := gate.threshold }

theorem outcome_passed_iff (gate : QualityGate) (report : MergeReadinessReport) :
    (gate.outcome report).passed = true ↔
      ∃ value, report.get gate.metric = some value ∧ gate.accepts value = true := by
  unfold outcome evaluate
  cases report.get gate.metric with
  | none => simp
  | some value => simp

theorem accepts_threshold (gate : QualityGate) : gate.accepts gate.threshold = true := by
  unfold accepts
  cases gate.op <;> simp

end QualityGate

/-- The gates of a set have different names. -/
structure QualityGateSet where
  gates : List QualityGate
  distinct : (gates.map QualityGate.name).Nodup

structure GateSetVerdict where
  allPassed : Bool
  outcomes : List GateOutcome

namespace QualityGateSet

def empty : QualityGateSet where
  gates := []
  distinct := List.nodup_nil

def add (gs : QualityGateSet) (gate : QualityGate) : Except GateError Unit × QualityGateSet :=
  if h : gs.gates.any (fun g => g.name == gate.name) = true then
    (.error (.duplicateName gate.name), gs)
  else
    (.ok (),
      { gates := gs.gates ++ [gate]
        distinct := by
          rw [List.map_append, List.nodup_append]
          refine ⟨gs.distinct, List.nodup_singleton _, ?_⟩
          intro name hname other hother heq
          rw [List.map_singleton, List.mem_singleton] at hother
          obtain ⟨g, hg, rfl⟩ := List.mem_map.mp hname
          exact h (List.any_eq_true.mpr ⟨g, hg, beq_iff_eq.mpr (heq.trans hother)⟩) })

/-- The gates of `canonical`, in the order in which it adds them. -/
def canonicalGates : List QualityGate :=
  [{ name := "all-unit-tests-pass"
     category := .testPassing
     metric := "unit_tests_passed"
     op := .equal
     threshold := 1
     rationale := "All unit tests must pass (1.0 = pass, 0.0 = failure)" },
   { name := "all-integration-tests-pass"
     category := .testPassing
     metric := "integration_tests_passed"
     op := .equal
     threshold := 1
     rationale := "All integration tests must pass" },
   { name := "line-coverage-min-80"
     category := .coverage
     metric := "line_coverage_pct"
     op := .atLeast
     threshold := 80
     rationale := "Line coverage must be at least 80 %" },
   { name := "branch-coverage-min-70"
     category := .coverage
     metric := "branch_coverage_pct"
     op := .atLeast
     threshold := 70
     rationale := "Branch coverage must be at least 70 %" },
   { name := "no-critical-security-findings"
     category := .security
     metric := "critical_security_findings"
     op := .atMost
     threshold := 0
     rationale := "Zero critical security findings allowed" },
   { name := "no-high-security-findings"
     category := .security
     metric := "high_security_findings"
     op := .atMost
     threshold := 0
     rationale := "Zero high-severity security findings allowed" },
   { name := "p99-latency-regression-max-20pct"
     category := .performance
     metric := "p99_latency_regression_pct"
     op := .atMost
     threshold := 20
     rationale := "p99 latency must not regress by more than 20 % vs baseline" },
   { name := "throughput-regression-max-10pct"
     category := .performance
     metric := "throughput_regression_pct"
     op := .atMost
     threshold := 10
     rationale := "Throughput must not regress by more than 10 % vs baseline" },
   { name := "contract-conformance-pass"
     category := .contractConformance
     metric := "contract_conformance_passed"
     op := .equal
     threshold := 1
     rationale := "All IDL contract conformance tests must pass" },
   { name := "changelog-present"
     category := .documentation
     metric := "changelog_entry_present"
     op := .equal
     threshold := 1
     rationale := "A CHANGELOG entry describing the change must be present" }]

def canonical : QualityGateSet :=
  canonicalGates.foldl (fun gs gate => (gs.add gate).2) empty

def evaluateAll (gs : QualityGateSet) (report : MergeReadinessReport) : GateSetVerdict :=
  let outcomes := gs.gates.map fun gate => gate.outcome report
  { allPassed := outcomes.all fun outcome => outcome.passed, outcomes := outcomes }

theorem gates_add {gs : QualityGateSet} {gate : QualityGate}
    (h : gate.name ∉ gs.gates.map QualityGate.name) :
    (gs.add gate).2.gates = gs.gates ++ [gate] := by
  unfold add
  rw [dif_neg]
  intro hany
  obtain ⟨g, hg, heq⟩ := List.any_eq_true.mp hany
  exact h (List.mem_map.mpr ⟨g, hg, beq_iff_eq.mp heq⟩)

theorem gates_foldl_add (gates : List QualityGate) (gs : QualityGateSet)
    (h : ((gs.gates ++ gates).map QualityGate.name).Nodup) :
    (gates.foldl (fun gs gate => (gs.add gate).2) gs).gates = gs.gates ++ gates := by
  induction gates generalizing gs with
  | nil => simp
  | cons gate gates ih =>
      have hnew : gate.name ∉ gs.gates.map QualityGate.name := by
        rw [List.map_append, List.nodup_append] at h
        intro hmem
        exact h.2.2 _ hmem _ (List.mem_map_of_mem List.mem_cons_self) rfl
      have hgates := gates_add hnew
      rw [List.foldl_cons, ih, hgates, List.append_assoc, List.singleton_append]
      rwa [hgates, List.append_assoc, List.singleton_append]

theorem gates_canonical : canonical.gates = canonicalGates := by
  unfold canonical
  rw [gates_foldl_add]
  · rfl
  · decide

/-- The verdict: every gate reads a value that it accepts. -/
theorem allPassed_iff (gs : QualityGateSet) (report : MergeReadinessReport) :
    (gs.evaluateAll report).allPassed = true ↔
      ∀ gate ∈ gs.gates, ∃ value, report.get gate.metric = some value ∧
        gate.accepts value = true := by
  unfold evaluateAll
  simp only [List.all_map, List.all_eq_true, Function.comp_apply,
    QualityGate.outcome_passed_iff]

theorem exists_passing_iff (gs : QualityGateSet)
    (hmetrics : gs.gates.Pairwise fun g g' => g.metric ≠ g'.metric)
    (metrics : HashMap String ℚ) :
    (∃ report : MergeReadinessReport, report.Carries metrics ∧
        (gs.evaluateAll report).allPassed = true) ↔
      ∀ gate ∈ gs.gates, ∀ value, metrics[gate.metric]? = some value →
        gate.accepts value = true := by
  constructor
  · rintro ⟨report, hcarries, hpassed⟩ gate hgate value hvalue
    obtain ⟨value', hget, haccepts⟩ := (gs.allPassed_iff report).mp hpassed gate hgate
    rw [hcarries _ _ hvalue] at hget
    obtain rfl := Option.some.inj hget
    exact haccepts
  · intro h
    -- The other metrics take the values of the thresholds.
    let thresholds : HashMap String ℚ :=
      .ofList (gs.gates.map fun gate => (gate.metric, gate.threshold))
    refine ⟨⟨thresholds ∪ metrics⟩, fun name value hvalue => ?_, ?_⟩
    · unfold MergeReadinessReport.get
      rw [Std.ExtTreeMap.getElem?_union, hvalue, Option.some_or]
    · rw [allPassed_iff]
      intro gate hgate
      cases hvalue : metrics[gate.metric]? with
      | some value =>
          refine ⟨value, ?_, h gate hgate value hvalue⟩
          unfold MergeReadinessReport.get
          rw [Std.ExtTreeMap.getElem?_union, hvalue, Option.some_or]
      | none =>
          refine ⟨gate.threshold, ?_, gate.accepts_threshold⟩
          unfold MergeReadinessReport.get
          rw [Std.ExtTreeMap.getElem?_union, hvalue, Option.none_or]
          apply Std.ExtTreeMap.getElem?_ofList_of_mem
            (k := gate.metric) Std.ReflCmp.compare_self
          · rw [List.pairwise_map]
            exact hmetrics.imp fun hne heq => hne (Std.LawfulEqCmp.eq_of_compare heq)
          · exact List.mem_map_of_mem hgate

end QualityGateSet

end Quality

end InfinityOS
