import InfinityOS.Quality.Gates
import InfinityOS.Quality.Report

/-!
# Merge readiness

The suites that the canonical strategy requires, the metrics derived from a snapshot and
the canonical gates are three tables that only names connect. A passing verdict is about
the unit and integration suites that reported, whichever they are: it misses the required
suites that did not report, and no gate reads the number of fuzz crashes.
-/

namespace InfinityOS

namespace Quality

inductive PyramidLevel where
  | unit
  | integration
  | performance
  deriving DecidableEq

inductive TestedLayer where
  | kernel
  | runtimeCore
  | controller
  | canvas
  | reliability
  | security
  | crossLayer
  deriving DecidableEq

structure CoverageThreshold where
  lineCoveragePct : ℚ
  branchCoveragePct : ℚ

structure TimingBudget where
  maxPerTestMs : UInt64
  maxSuiteSecs : UInt64

namespace TimingBudget

def unit : TimingBudget where
  maxPerTestMs := 100
  maxSuiteSecs := 60

def integration : TimingBudget where
  maxPerTestMs := 10000
  maxSuiteSecs := 300

/-- No limit for the single test. -/
def performance : TimingBudget where
  maxPerTestMs := UInt64.ofNat (2 ^ 64 - 1)
  maxSuiteSecs := 600

end TimingBudget

structure TestSuiteDescriptor where
  name : String
  level : PyramidLevel
  layer : TestedLayer
  budget : TimingBudget
  coverage : Option CoverageThreshold
  requiredForMerge : Bool

structure TestStrategy where
  suites : List TestSuiteDescriptor

namespace TestStrategy

def empty : TestStrategy where
  suites := []

def register (s : TestStrategy) (suite : TestSuiteDescriptor) : TestStrategy :=
  { s with suites := s.suites ++ [suite] }

def registerAll (s : TestStrategy) (suites : List (String × TestedLayer)) (level : PyramidLevel)
    (budget : TimingBudget) (coverage : Option CoverageThreshold) (requiredForMerge : Bool) :
    TestStrategy :=
  suites.foldl (fun s suite => s.register
    { name := suite.1
      level := level
      layer := suite.2
      budget := budget
      coverage := coverage
      requiredForMerge := requiredForMerge }) s

def canonical : TestStrategy :=
  let line80 : CoverageThreshold := { lineCoveragePct := 80, branchCoveragePct := 70 }
  let line70 : CoverageThreshold := { lineCoveragePct := 70, branchCoveragePct := 60 }
  let s := empty.registerAll
    [("kernel-unit", .kernel), ("runtime-core-unit", .runtimeCore),
      ("controller-unit", .controller), ("canvas-unit", .canvas),
      ("reliability-unit", .reliability), ("security-unit", .security)]
    .unit .unit (some line80) true
  let s := s.registerAll
    [("kernel-runtime-ffi-integration", .crossLayer),
      ("actionlog-completeness-integration", .crossLayer),
      ("mesh-provenance-integration", .crossLayer)]
    .integration .integration (some line70) true
  s.registerAll
    [("scheduler-throughput-perf", .kernel), ("executor-latency-perf", .runtimeCore),
      ("actionlog-write-throughput-perf", .controller),
      ("mesh-artifact-write-throughput-perf", .controller)]
    .performance .performance none false

def requiredSuites (s : TestStrategy) : List TestSuiteDescriptor :=
  s.suites.filter fun suite => suite.requiredForMerge

end TestStrategy

theorem kind_of_required {suite : TestSuiteDescriptor}
    (h : suite ∈ TestStrategy.canonical.requiredSuites) :
    isUnit suite.name = true ∨ isIntegration suite.name = true := by
  have hall : ∀ name ∈ TestStrategy.canonical.requiredSuites.map TestSuiteDescriptor.name,
      isUnit name = true ∨ isIntegration name = true := by decide
  exact hall _ (List.mem_map_of_mem h)

namespace TestReportSnapshot

/-- What a passing verdict should mean for the snapshot it is about. -/
structure MergeReady (s : TestReportSnapshot) : Prop where
  suites : ∀ suite ∈ TestStrategy.canonical.requiredSuites,
    ∃ r ∈ s.suiteReports.values, r.name = suite.name ∧ r.status = .passed
  critical : s.security.critical = 0
  high : s.security.high = 0
  fuzz : ∀ f ∈ s.fuzzCampaigns, f.crashes = 0

/-- The data of the snapshot fail none of the gates. A metric that is not derived keeps its
earlier value. -/
structure FailsNoGate (average : List ℚ → ℚ) (s : TestReportSnapshot) : Prop where
  unit : AllPassed isUnit s.suiteReports.values
  integration : AllPassed isIntegration s.suiteReports.values
  line : s.lineCovValues ≠ [] → 80 ≤ average s.lineCovValues
  branch : s.branchCovValues ≠ [] → 70 ≤ average s.branchCovValues
  critical : s.security.critical = 0
  high : s.security.high = 0
  earlier : ∀ gate ∈ QualityGateSet.canonical.gates, gate.metric ∉ s.rewritten average →
    ∀ value, s.metrics[gate.metric]? = some value → gate.accepts value = true

/-- Every required suite has reported, with whatever status, and no campaign has found a
crash. -/
structure Covers (s : TestReportSnapshot) : Prop where
  suites : ∀ suite ∈ TestStrategy.canonical.requiredSuites,
    ∃ r ∈ s.suiteReports.values, r.name = suite.name
  fuzz : ∀ f ∈ s.fuzzCampaigns, f.crashes = 0

variable {average : List ℚ → ℚ} {s : TestReportSnapshot}

theorem flag_accepted_iff {b : Bool} :
    |(if b = true then 1 else 0) - (1 : ℚ)| < 1000000000⁻¹ ↔ b = true := by
  cases b with
  | false => norm_num
  | true => norm_num

theorem derived_accepted_iff :
    (∀ gate ∈ QualityGateSet.canonicalGates, ∀ value, (gate.metric, value) ∈ s.derivedMetrics average →
        gate.accepts value = true) ↔
      AllPassed isUnit s.suiteReports.values ∧ AllPassed isIntegration s.suiteReports.values ∧
        (s.lineCovValues ≠ [] → 80 ≤ average s.lineCovValues) ∧
        (s.branchCovValues ≠ [] → 70 ≤ average s.branchCovValues) ∧
        s.security.critical = 0 ∧ s.security.high = 0 := by
  rw [← scanSuites_unit_iff, ← scanSuites_integration_iff]
  unfold derivedMetrics QualityGateSet.canonicalGates
  simp [QualityGate.accepts, mem_averageMetric, flag_accepted_iff]

theorem failsNoGate_iff :
    s.FailsNoGate average ↔ ∀ gate ∈ QualityGateSet.canonical.gates, ∀ value,
      (s.deriveMetrics average).metrics[gate.metric]? = some value → gate.accepts value = true := by
  have hsplit : (∀ gate ∈ QualityGateSet.canonical.gates, ∀ value,
      (s.deriveMetrics average).metrics[gate.metric]? = some value → gate.accepts value = true) ↔
        (∀ gate ∈ QualityGateSet.canonical.gates, ∀ value,
          (gate.metric, value) ∈ s.derivedMetrics average → gate.accepts value = true) ∧
        ∀ gate ∈ QualityGateSet.canonical.gates, gate.metric ∉ s.rewritten average →
          ∀ value, s.metrics[gate.metric]? = some value → gate.accepts value = true := by
    rw [← forall₂_and]
    refine forall₂_congr fun gate _ => ?_
    exact s.forall_metric_iff average (p := fun _ value => gate.accepts value = true)
  rw [hsplit, QualityGateSet.gates_canonical, derived_accepted_iff]
  constructor
  · rintro ⟨hunit, hintegration, hline, hbranch, hcritical, hhigh, hearlier⟩
    rw [QualityGateSet.gates_canonical] at hearlier
    exact ⟨⟨hunit, hintegration, hline, hbranch, hcritical, hhigh⟩, hearlier⟩
  · rintro ⟨⟨hunit, hintegration, hline, hbranch, hcritical, hhigh⟩, hearlier⟩
    rw [← QualityGateSet.gates_canonical] at hearlier
    exact ⟨hunit, hintegration, hline, hbranch, hcritical, hhigh, hearlier⟩

theorem failsNoGate_iff_exists_passing :
    s.FailsNoGate average ↔ ∃ report : MergeReadinessReport, report.Carries (s.deriveMetrics average).metrics ∧
      (QualityGateSet.canonical.evaluateAll report).allPassed = true := by
  rw [failsNoGate_iff, QualityGateSet.exists_passing_iff]
  rw [QualityGateSet.gates_canonical]
  decide

theorem FailsNoGate.mergeReady_iff (h : s.FailsNoGate average) : s.MergeReady ↔ s.Covers := by
  constructor
  · intro hready
    refine ⟨fun suite hsuite => ?_, hready.fuzz⟩
    obtain ⟨r, hr, hname, -⟩ := hready.suites suite hsuite
    exact ⟨r, hr, hname⟩
  · intro hcovers
    refine ⟨fun suite hsuite => ?_, h.critical, h.high, hcovers.fuzz⟩
    obtain ⟨r, hr, hname⟩ := hcovers.suites suite hsuite
    refine ⟨r, hr, hname, ?_⟩
    rcases kind_of_required hsuite with hkind | hkind
    · exact h.unit.2 r hr (hname ▸ hkind)
    · exact h.integration.2 r hr (hname ▸ hkind)

end TestReportSnapshot

/-- A passing verdict about the metrics of a snapshot means that it is ready to merge,
unless the required suites have not all reported or a campaign has found a crash, however
averages are rounded. -/
theorem gates_sound_iff (average : List ℚ → ℚ) (s : TestReportSnapshot) :
    (∀ report : MergeReadinessReport, report.Carries (s.deriveMetrics average).metrics →
        (QualityGateSet.canonical.evaluateAll report).allPassed = true → s.MergeReady) ↔
      ¬ s.FailsNoGate average ∨ s.Covers := by
  constructor
  · intro hsound
    by_cases hopen : s.FailsNoGate average
    · obtain ⟨report, hcarries, hpassed⟩ :=
        TestReportSnapshot.failsNoGate_iff_exists_passing.mp hopen
      exact .inr (hopen.mergeReady_iff.mp (hsound report hcarries hpassed))
    · exact .inl hopen
  · rintro hcond report hcarries hpassed
    have hopen : s.FailsNoGate average :=
      TestReportSnapshot.failsNoGate_iff_exists_passing.mpr ⟨report, hcarries, hpassed⟩
    rcases hcond with hfails | hcovers
    · exact absurd hopen hfails
    · exact hopen.mergeReady_iff.mpr hcovers

/-- Of the required suites one of each kind has reported, and a campaign has crashed. -/
def partialSnapshot : TestReportSnapshot where
  suiteReports := ((∅ : HashMap String SuiteReport).insert "kernel-unit"
    ⟨"kernel-unit", .passed, some 85, some 72⟩).insert "mesh-provenance-integration"
    ⟨"mesh-provenance-integration", .passed, none, none⟩
  security := ⟨0, 0⟩
  fuzzCampaigns := [⟨"scheduler", 1⟩]
  metrics := ∅

theorem values_partialSnapshot :
    partialSnapshot.suiteReports.values =
      [⟨"kernel-unit", .passed, some 85, some 72⟩,
        ⟨"mesh-provenance-integration", .passed, none, none⟩] := by
  decide

/-- The average without rounding. -/
def exactAverage (values : List ℚ) : ℚ :=
  values.sum / values.length

theorem failsNoGate_partialSnapshot : partialSnapshot.FailsNoGate exactAverage := by
  have hline : partialSnapshot.lineCovValues = [85] := by
    unfold TestReportSnapshot.lineCovValues
    rw [values_partialSnapshot]
    rfl
  have hbranch : partialSnapshot.branchCovValues = [72] := by
    unfold TestReportSnapshot.branchCovValues
    rw [values_partialSnapshot]
    rfl
  refine ⟨?_, ?_, fun _ => ?_, fun _ => ?_, rfl, rfl, fun gate _ _ value hvalue => ?_⟩
  · rw [values_partialSnapshot]
    exact ⟨by decide, by decide⟩
  · rw [values_partialSnapshot]
    exact ⟨by decide, by decide⟩
  · rw [hline]
    norm_num [exactAverage]
  · rw [hbranch]
    norm_num [exactAverage]
  · simp [partialSnapshot] at hvalue

/-- All gates pass without the other required suites, and with the crash. -/
theorem gates_pass_partialSnapshot :
    ¬ ∀ (s : TestReportSnapshot) (report : MergeReadinessReport),
      report.Carries (s.deriveMetrics exactAverage).metrics →
        (QualityGateSet.canonical.evaluateAll report).allPassed = true → s.MergeReady := by
  intro h
  obtain ⟨report, hcarries, hpassed⟩ :=
    TestReportSnapshot.failsNoGate_iff_exists_passing.mp failsNoGate_partialSnapshot
  have hready := h partialSnapshot report hcarries hpassed
  exact absurd (hready.fuzz ⟨"scheduler", 1⟩ List.mem_cons_self) (by decide)

end Quality

end InfinityOS
