import InfinityOS.Core.Maps
import InfinityOS.Core.Types
import InfinityOS.Transition.Run

/-!
# Triage of regressions

A report is submitted once, gets an owner and labels, and is then moved by `start_fix` and
`resolve`, which do not look at its state. The state, the label of the status and the time of the
resolution are written by each of them, but `start_fix` leaves the time, so they agree until a
resolved report is fixed again.

The id and the time that are drawn are arguments; measured values are exact rational numbers.
-/

namespace InfinityOS

namespace Reliability

open Transition

inductive TriageError where
  | duplicate (id : String)
  | notFound (id : String)
  | duplicateRule (id : String)
  deriving DecidableEq

inductive SlaTier where
  | p0
  | p1
  | p2
  | p3
  deriving DecidableEq

structure TriageLabel where
  key : String
  value : String
  deriving DecidableEq

structure TriageOwner where
  owner : String
  contact : Option String
  deriving DecidableEq

inductive TriageState where
  | untriaged
  | triaged
  | inProgress
  | resolved
  | wontFix
  deriving DecidableEq

def TriageState.name : TriageState → String
  | untriaged => "untriaged"
  | triaged => "triaged"
  | inProgress => "in_progress"
  | resolved => "resolved"
  | wontFix => "wont_fix"

structure RegressionReport where
  id : String
  title : String
  component : String
  cycleId : String
  measuredValue : ℚ
  baselineValue : ℚ
  state : TriageState
  labels : List TriageLabel
  owner : Option TriageOwner
  sla : Option SlaTier
  detectedAt : UInt64
  resolvedAt : Option UInt64

namespace RegressionReport

/-- `RegressionReport::new` with the generated id and the time. -/
def new (id : String) (now : UInt64) (title component cycleId : String)
    (measuredValue baselineValue : ℚ) : RegressionReport :=
  { id, title, component, cycleId, measuredValue, baselineValue, state := .untriaged, labels := [],
    owner := none, sla := none, detectedAt := now, resolvedAt := none }

/-- Infinite where the baseline is zero. -/
def regressionRatio (r : RegressionReport) : WithTop ℚ :=
  if r.baselineValue = 0 then ⊤
  else (((r.measuredValue - r.baselineValue) / r.baselineValue : ℚ) : WithTop ℚ)

def severity (r : RegressionReport) : String :=
  if r.regressionRatio ≥ ((1 / 2 : ℚ) : WithTop ℚ) then "critical"
  else if r.regressionRatio ≥ ((1 / 5 : ℚ) : WithTop ℚ) then "high"
  else if r.regressionRatio ≥ ((1 / 10 : ℚ) : WithTop ℚ) then "medium"
  else "low"

def relabel (r : RegressionReport) (status : String) : List TriageLabel :=
  r.labels.filter (fun l => l.key ≠ "status") ++ [⟨"status", status⟩]

/-- The report after `start_fix`. -/
def fixing (r : RegressionReport) : RegressionReport :=
  { r with state := .inProgress, labels := r.relabel "in_progress" }

/-- The report after `resolve` at the time `now`. -/
def resolved (r : RegressionReport) (now : UInt64) : RegressionReport :=
  { r with state := .resolved, resolvedAt := some now, labels := r.relabel "resolved" }

end RegressionReport

structure OwnerRule where
  id : String
  componentPrefix : String
  owner : TriageOwner
  defaultSla : SlaTier

structure RegressionTriageEngine where
  reports : HashMap String RegressionReport
  ownerRules : List OwnerRule

namespace RegressionTriageEngine

def new : RegressionTriageEngine :=
  { reports := ∅, ownerRules := [] }

def addOwnerRule (e : RegressionTriageEngine) (rule : OwnerRule) :
    Except TriageError Unit × RegressionTriageEngine :=
  if e.ownerRules.any (fun r => r.id = rule.id) then (.error (.duplicateRule rule.id), e)
  else (.ok (), { e with ownerRules := e.ownerRules ++ [rule] })

/-- The report with the owner of the first rule that matches its component, if one does. -/
def assignOwner (e : RegressionTriageEngine) (report : RegressionReport) : RegressionReport :=
  match e.ownerRules.find? fun r => r.componentPrefix.toList.isPrefixOf report.component.toList with
  | none => report
  | some rule =>
      { report with
        owner := some rule.owner
        sla := if report.sla.isNone then some rule.defaultSla else report.sla }

def submit (e : RegressionTriageEngine) (report : RegressionReport) :
    Except TriageError String × RegressionTriageEngine :=
  if e.reports.contains report.id then (.error (.duplicate report.id), e)
  else
    let report := e.assignOwner report
    let report := { report with
      labels := report.labels ++ [⟨"severity", report.severity⟩, ⟨"component", report.component⟩,
        ⟨"status", "triaged"⟩]
      state := .triaged }
    (.ok report.id, { e with reports := e.reports.insert report.id report })

def startFix (e : RegressionTriageEngine) (id : String) :
    Except TriageError Unit × RegressionTriageEngine :=
  match e.reports[id]? with
  | none => (.error (.notFound id), e)
  | some report => (.ok (), { e with reports := e.reports.insert id report.fixing })

def resolve (e : RegressionTriageEngine) (id : String) (now : UInt64) :
    Except TriageError Unit × RegressionTriageEngine :=
  match e.reports[id]? with
  | none => (.error (.notFound id), e)
  | some report => (.ok (), { e with reports := e.reports.insert id (report.resolved now) })

end RegressionTriageEngine

/-- A call of the engine; a report is made by `RegressionReport::new` and submitted. -/
inductive TriageCall where
  | addOwnerRule (rule : OwnerRule)
  | submit (id : String) (now : UInt64) (title component cycleId : String)
      (measuredValue baselineValue : ℚ)
  | startFix (id : String)
  | resolve (id : String) (now : UInt64)

/-- The answer of a call: that of `submit` has the id of the report. -/
inductive TriageAnswer where
  | done (result : Except TriageError Unit)
  | submitted (result : Except TriageError String)

def RegressionTriageEngine.step (e : RegressionTriageEngine) :
    TriageCall → TriageAnswer × RegressionTriageEngine
  | .addOwnerRule rule => (.done (e.addOwnerRule rule).1, (e.addOwnerRule rule).2)
  | .submit id now title component cycleId measuredValue baselineValue =>
      let answer := e.submit (.new id now title component cycleId measuredValue baselineValue)
      (.submitted answer.1, answer.2)
  | .startFix id => (.done (e.startFix id).1, (e.startFix id).2)
  | .resolve id now => (.done (e.resolve id now).1, (e.resolve id now).2)

/-- The state, the label of the status and the time of the resolution say the same. -/
structure Consistent (r : RegressionReport) : Prop where
  status : r.labels.filter (fun l => l.key = "status") = [⟨"status", r.state.name⟩]
  resolvedAt : r.resolvedAt.isSome ↔ r.state = .resolved

/-- Every stored report is consistent. -/
def TriageConsistent (e : RegressionTriageEngine) : Prop :=
  ∀ (id : String) (r : RegressionReport), e.reports[id]? = some r → Consistent r

/-- No report is fixed again after its resolution. -/
def NoReopening (e : RegressionTriageEngine) : TriageCall → Prop
  | .startFix id => ∀ r, e.reports[id]? = some r → r.state ≠ .resolved
  | _ => True

variable {e : RegressionTriageEngine} {r : RegressionReport}

theorem filter_relabel (r : RegressionReport) (status : String) :
    (r.relabel status).filter (fun l => l.key = "status") = [⟨"status", status⟩] := by
  have hnone : (r.labels.filter fun l => l.key ≠ "status").filter (fun l => l.key = "status") =
      [] := by
    rw [List.filter_filter, List.filter_eq_nil_iff]
    intro l _
    simp
  rw [RegressionReport.relabel, List.filter_append, hnone]
  rfl

theorem consistent_resolved (r : RegressionReport) (now : UInt64) :
    Consistent (r.resolved now) :=
  ⟨filter_relabel r "resolved", by simp [RegressionReport.resolved]⟩

theorem consistent_fixing_iff (r : RegressionReport) :
    Consistent r.fixing ↔ r.resolvedAt = none := by
  have hstate : r.fixing.state ≠ .resolved := TriageState.noConfusion
  constructor
  · intro h
    by_contra hsome
    exact hstate (h.resolvedAt.mp (Option.isSome_iff_ne_none.mpr hsome))
  · intro hnone
    refine ⟨filter_relabel r "in_progress", ?_⟩
    change r.resolvedAt.isSome ↔ _
    simp [hnone, hstate]

theorem Consistent.resolvedAt_eq_none_iff (h : Consistent r) :
    r.resolvedAt = none ↔ r.state ≠ .resolved := by
  rw [ne_eq, ← h.resolvedAt, Option.not_isSome_iff_eq_none]

theorem triageConsistent_insert (h : TriageConsistent e) {id : String} (hr : Consistent r) :
    TriageConsistent { e with reports := e.reports.insert id r } := by
  intro i r' hget
  change (e.reports.insert id r)[i]? = some r' at hget
  rw [Maps.getElem?_insert_ite] at hget
  split at hget
  · cases hget
    exact hr
  · exact h i r' hget

theorem triageConsistent_new : TriageConsistent .new := by
  intro id r hget
  change (∅ : HashMap String RegressionReport)[id]? = some r at hget
  simp at hget

theorem triageConsistent_submit (h : TriageConsistent e) (id : String) (now : UInt64)
    (title component cycleId : String) (measuredValue baselineValue : ℚ) :
    TriageConsistent
      (e.submit (.new id now title component cycleId measuredValue baselineValue)).2 := by
  rw [RegressionTriageEngine.submit]
  split
  · exact h
  · apply triageConsistent_insert h
    rw [RegressionTriageEngine.assignOwner]
    split
    · constructor <;> simp [RegressionReport.new, TriageState.name]
    · constructor <;> simp [RegressionReport.new, TriageState.name]

theorem triageConsistent_startFix_iff (h : TriageConsistent e) (id : String) :
    TriageConsistent (e.startFix id).2 ↔
      ∀ r, e.reports[id]? = some r → r.state ≠ .resolved := by
  rw [RegressionTriageEngine.startFix]
  cases hget : e.reports[id]? with
  | none => simpa using h
  | some report =>
      have hreport := h id report hget
      simp only [Option.some.injEq, forall_eq']
      rw [← hreport.resolvedAt_eq_none_iff, ← consistent_fixing_iff]
      refine ⟨fun hnext => hnext id report.fixing ?_, fun hfixing =>
        triageConsistent_insert h hfixing⟩
      exact Std.ExtTreeMap.getElem?_insert_self

theorem triageConsistent_resolve (h : TriageConsistent e) (id : String) (now : UInt64) :
    TriageConsistent (e.resolve id now).2 := by
  rw [RegressionTriageEngine.resolve]
  split
  · exact h
  · exact triageConsistent_insert h (consistent_resolved _ now)

theorem triageConsistent_step_iff (e : RegressionTriageEngine) (call : TriageCall)
    (h : TriageConsistent e) : TriageConsistent (e.step call).2 ↔ NoReopening e call := by
  cases call with
  | addOwnerRule rule =>
      refine iff_of_true ?_ trivial
      change TriageConsistent (e.addOwnerRule rule).2
      rw [RegressionTriageEngine.addOwnerRule]
      split <;> exact h
  | submit id now title component cycleId measuredValue baselineValue =>
      exact iff_of_true (triageConsistent_submit h _ _ _ _ _ _ _) trivial
  | startFix id => exact triageConsistent_startFix_iff h id
  | resolve id now => exact iff_of_true (triageConsistent_resolve h id now) trivial

/-- All stored reports are consistent in every state of a run exactly if no call of it fixes a
report that is resolved. -/
theorem regression_triage_iff (calls : List TriageCall) :
    (∀ past, past <+: calls →
        TriageConsistent (final RegressionTriageEngine.step .new past)) ↔
      Along NoReopening RegressionTriageEngine.step .new calls :=
  forall_reached_iff_along TriageConsistent triageConsistent_step_iff calls triageConsistent_new

def reopeningCalls : List TriageCall :=
  [.submit "r1" 100 "p99 latency regression" "scheduler" "2026-W11" 300 200, .resolve "r1" 200,
    .startFix "r1"]

theorem regression_triage_fails :
    ¬ ∀ calls : List TriageCall, ∀ past, past <+: calls →
      TriageConsistent (final RegressionTriageEngine.step .new past) := by
  intro h
  have hstate : ((final RegressionTriageEngine.step .new reopeningCalls).reports["r1"]?.map
      fun r => (r.state, r.resolvedAt)) = some (.inProgress, some 200) := by decide +kernel
  obtain ⟨r, hget, hr⟩ := Option.map_eq_some_iff.mp hstate
  have hconsistent := h reopeningCalls reopeningCalls List.prefix_rfl "r1" r hget
  obtain ⟨hinProgress, hat⟩ := Prod.mk.inj hr
  rw [hconsistent.resolvedAt_eq_none_iff.mpr (by rw [hinProgress]; decide)] at hat
  cases hat

end Reliability

end InfinityOS
