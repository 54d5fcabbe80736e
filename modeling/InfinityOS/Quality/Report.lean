import InfinityOS.Core.Types

/-!
# Test reports

The results of one CI run and the metrics that are derived from them. Coverage values and
counts are read as exact numbers; the average of coverage values is a parameter, since the
source rounds it. The counts that no metric is derived from are left out.
-/

namespace InfinityOS

namespace Quality

inductive SuiteStatus where
  | passed
  | failed
  | skipped
  | inProgress
  deriving DecidableEq

structure SuiteReport where
  name : String
  status : SuiteStatus
  lineCoveragePct : Option ℚ
  branchCoveragePct : Option ℚ
  deriving DecidableEq

def isUnit (name : String) : Bool :=
  decide ("-unit".toList <:+ name.toList) || decide ("-unit-".toList <:+: name.toList)

def isIntegration (name : String) : Bool :=
  decide ("-integration".toList <:+: name.toList)

structure SecurityScanSummary where
  critical : ℕ
  high : ℕ

structure FuzzCampaignSummary where
  target : String
  crashes : ℕ

/-- What the scan of the suite reports remembers of one kind of suites. -/
structure SuiteFlags where
  any : Bool
  allPassed : Bool
  deriving DecidableEq

namespace SuiteFlags

def initial : SuiteFlags where
  any := false
  allPassed := true

/-- The flags after a report; `matching` tells whether its suite is of this kind. -/
def see (flags : SuiteFlags) (matching : Bool) (r : SuiteReport) : SuiteFlags :=
  if matching then
    { any := true
      allPassed := if r.status ≠ .passed then false else flags.allPassed }
  else flags

def ok (flags : SuiteFlags) : Bool :=
  flags.any && flags.allPassed

def after (flags : SuiteFlags) (kind : String → Bool) (reports : List SuiteReport) : SuiteFlags :=
  reports.foldl (fun flags r => flags.see (kind r.name) r) flags

end SuiteFlags

def scanSuites (reports : List SuiteReport) : SuiteFlags × SuiteFlags :=
  reports.foldl
    (fun flags r => (flags.1.see (isUnit r.name) r, flags.2.see (isIntegration r.name) r))
    (.initial, .initial)

def averageMetric (average : List ℚ → ℚ) (name : String) (values : List ℚ) :
    List (String × ℚ) :=
  if values.isEmpty then [] else [(name, average values)]

structure TestReportSnapshot where
  suiteReports : HashMap String SuiteReport
  security : SecurityScanSummary
  fuzzCampaigns : List FuzzCampaignSummary
  metrics : HashMap String ℚ

namespace TestReportSnapshot

def lineCovValues (s : TestReportSnapshot) : List ℚ :=
  s.suiteReports.values.filterMap SuiteReport.lineCoveragePct

def branchCovValues (s : TestReportSnapshot) : List ℚ :=
  s.suiteReports.values.filterMap SuiteReport.branchCoveragePct

/-- The metrics that `deriveMetrics` writes, in order. -/
def derivedMetrics (average : List ℚ → ℚ) (s : TestReportSnapshot) : List (String × ℚ) :=
  let flags := scanSuites s.suiteReports.values
  [("unit_tests_passed", if flags.1.ok then 1 else 0),
    ("integration_tests_passed", if flags.2.ok then 1 else 0)] ++
  averageMetric average "line_coverage_pct" s.lineCovValues ++
  averageMetric average "branch_coverage_pct" s.branchCovValues ++
  [("critical_security_findings", (s.security.critical : ℚ)),
    ("high_security_findings", (s.security.high : ℚ)),
    ("fuzz_crashes", ((s.fuzzCampaigns.map FuzzCampaignSummary.crashes).sum : ℚ))]

def deriveMetrics (average : List ℚ → ℚ) (s : TestReportSnapshot) : TestReportSnapshot :=
  { s with metrics := s.metrics.insertMany (s.derivedMetrics average) }

/-- The names of the metrics that `deriveMetrics` writes. -/
def rewritten (average : List ℚ → ℚ) (s : TestReportSnapshot) : List String :=
  (s.derivedMetrics average).map Prod.fst

end TestReportSnapshot

def AllPassed (kind : String → Bool) (reports : List SuiteReport) : Prop :=
  (∃ r ∈ reports, kind r.name = true) ∧ ∀ r ∈ reports, kind r.name = true → r.status = .passed

theorem mem_averageMetric {average : List ℚ → ℚ} {name name' : String} {values : List ℚ}
    {value : ℚ} : (name', value) ∈ averageMetric average name values ↔
      name' = name ∧ values ≠ [] ∧ value = average values := by
  unfold averageMetric
  cases values with
  | nil => simp
  | cons a values => simp

section Scan

variable (kind : String → Bool) (reports : List SuiteReport)

theorem after_eq (flags : SuiteFlags) :
    flags.after kind reports =
      { any := flags.any || reports.any fun r => kind r.name
        allPassed := flags.allPassed &&
          reports.all fun r => !kind r.name || decide (r.status = .passed) } := by
  unfold SuiteFlags.after
  induction reports generalizing flags with
  | nil => simp
  | cons r reports ih =>
      rw [List.foldl_cons, ih, List.any_cons, List.all_cons]
      unfold SuiteFlags.see
      cases kind r.name with
      | false => simp
      | true => cases h : r.status <;> simp

theorem ok_after_iff :
    (SuiteFlags.initial.after kind reports).ok = true ↔ AllPassed kind reports := by
  rw [after_eq]
  unfold SuiteFlags.ok SuiteFlags.initial AllPassed
  rw [Bool.and_eq_true, Bool.false_or, Bool.true_and, List.any_eq_true, List.all_eq_true]
  refine and_congr_right fun _ => forall₂_congr fun r _ => ?_
  cases kind r.name with
  | false => simp
  | true => simp

theorem scanSuites_eq :
    scanSuites reports = (SuiteFlags.initial.after isUnit reports,
      SuiteFlags.initial.after isIntegration reports) := by
  have hfold : ∀ flags : SuiteFlags × SuiteFlags,
      reports.foldl (fun flags r =>
          (flags.1.see (isUnit r.name) r, flags.2.see (isIntegration r.name) r)) flags =
        (flags.1.after isUnit reports, flags.2.after isIntegration reports) := by
    induction reports with
    | nil => exact fun flags => rfl
    | cons r reports ih =>
        intro flags
        rw [List.foldl_cons, ih]
        rfl
  exact hfold _

theorem scanSuites_unit_iff : (scanSuites reports).1.ok = true ↔ AllPassed isUnit reports := by
  rw [scanSuites_eq]
  exact ok_after_iff isUnit reports

theorem scanSuites_integration_iff :
    (scanSuites reports).2.ok = true ↔ AllPassed isIntegration reports := by
  rw [scanSuites_eq]
  exact ok_after_iff isIntegration reports

end Scan

namespace TestReportSnapshot

variable (average : List ℚ → ℚ) (s : TestReportSnapshot)

theorem derivedMetrics_pairwise :
    (s.derivedMetrics average).Pairwise fun p q => ¬ compare p.1 q.1 = .eq := by
  have hnodup : (s.rewritten average).Nodup := by
    unfold rewritten derivedMetrics averageMetric
    cases s.lineCovValues.isEmpty <;> cases s.branchCovValues.isEmpty <;> simp
  unfold rewritten at hnodup
  rw [List.Nodup, List.pairwise_map] at hnodup
  exact hnodup.imp fun hne heq => hne (Std.LawfulEqCmp.eq_of_compare heq)

theorem metric_of_mem {name : String} {value : ℚ} (h : (name, value) ∈ s.derivedMetrics average) :
    (s.deriveMetrics average).metrics[name]? = some value :=
  Std.ExtTreeMap.getElem?_insertMany_list_of_mem Std.ReflCmp.compare_self
    (s.derivedMetrics_pairwise average) h

theorem metric_of_not_mem {name : String} (h : name ∉ s.rewritten average) :
    (s.deriveMetrics average).metrics[name]? = s.metrics[name]? := by
  apply Std.ExtTreeMap.getElem?_insertMany_list_of_contains_eq_false
  rw [List.contains_eq_any_beq, List.any_eq_false]
  intro other hother heq
  exact h (beq_iff_eq.mp heq ▸ hother)

/-- The metrics afterwards: those that were written, and the earlier ones of other names. -/
theorem forall_metric_iff {p : String → ℚ → Prop} {name : String} :
    (∀ value, (s.deriveMetrics average).metrics[name]? = some value → p name value) ↔
      (∀ value, (name, value) ∈ s.derivedMetrics average → p name value) ∧
        (name ∉ s.rewritten average → ∀ value, s.metrics[name]? = some value → p name value) := by
  constructor
  · intro h
    refine ⟨fun value hmem => h value (s.metric_of_mem average hmem), fun hname value hvalue => ?_⟩
    exact h value ((s.metric_of_not_mem average hname).trans hvalue)
  · rintro ⟨hwritten, hearlier⟩ value hvalue
    by_cases hname : name ∈ s.rewritten average
    · obtain ⟨⟨name', value'⟩, hmem, rfl⟩ := List.mem_map.mp hname
      rw [s.metric_of_mem average hmem] at hvalue
      obtain rfl := Option.some.inj hvalue
      exact hwritten _ hmem
    · exact hearlier hname value ((s.metric_of_not_mem average hname).symm.trans hvalue)

end TestReportSnapshot

end Quality

end InfinityOS
