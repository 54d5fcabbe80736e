import InfinityOS.Reliability.Incidents
import InfinityOS.Reliability.Regression
import InfinityOS.Reliability.Slo

/-!
# The reliability dashboard

A snapshot builds five panels from the states that it is given and appends events to those of the
dashboard. An event is to say that something has changed since the snapshot before, but a snapshot
looks at the present states only: it reports every objective that fails and every budget that is
low, each time again, and never a recovery.

The clock and the order in which a map is visited are arguments, and so is the arithmetic: the
result holds however numbers are rounded, in particular for `Float`.
-/

namespace InfinityOS

namespace Reliability

open Arithmetic Transition

/-! ## The metrics -/

structure IncidentRecord where
  id : String
  openedAt : UInt64
  resolvedAt : Option UInt64
  title : String
  severity : IncidentSeverity

/-- The time to recovery; the subtraction saturates. -/
def IncidentRecord.ttrSecs (r : IncidentRecord) : Option UInt64 :=
  r.resolvedAt.map fun resolved => if resolved < r.openedAt then 0 else resolved - r.openedAt

structure MttrTracker where
  records : List IncidentRecord
  windowSize : ℕ

variable {F : Type} [Arithmetic F]

/-- None without a resolved incident; the sum of the times is one of 64 bits. -/
def MttrTracker.mttrSecs (t : MttrTracker) : Option F :=
  let resolved := t.records.filterMap IncidentRecord.ttrSecs
  if resolved.isEmpty then none
  else some (ofNat (resolved.foldl (· + ·) 0).toNat / ofNat resolved.length)

structure ErrorBudget (F : Type) where
  target : F
  windowSecs : UInt64
  consumedSecs : F

namespace ErrorBudget

def new (target : F) (windowSecs : UInt64) : ErrorBudget F :=
  { target := clamp target, windowSecs, consumedSecs := 0.0 }

def allowedDowntimeSecs (b : ErrorBudget F) : F :=
  (1.0 - b.target) * ofNat b.windowSecs.toNat

def consume (b : ErrorBudget F) (secs : F) : ErrorBudget F :=
  { b with consumedSecs := b.consumedSecs + larger secs 0.0 }

def remainingRatio (b : ErrorBudget F) : F :=
  if b.allowedDowntimeSecs ≤ 0.0 then 0.0
  else clamp ((b.allowedDowntimeSecs - b.consumedSecs) / b.allowedDowntimeSecs)

end ErrorBudget

-- Three nines of 30 days allow a little more than 2592 seconds, by rounding.
example : ((ErrorBudget.new (0.999 : Float) 2592000).consume 2592.0).remainingRatio > 0.0 := by
  decide +kernel

structure ReliabilityMetrics (F : Type) where
  mttr : MttrTracker
  taskErrorBudget : ErrorBudget F
  uiErrorBudget : ErrorBudget F

def ReliabilityMetrics.new : ReliabilityMetrics F :=
  { mttr := { records := [], windowSize := 100 }
    taskErrorBudget := .new 0.999 2592000
    uiErrorBudget := .new 0.995 2592000 }

/-! ## The dashboard -/

inductive PanelHealth where
  | unknown
  | healthy
  | atRisk
  | degraded
  deriving DecidableEq

/-- The place of a state in the order of the declaration. -/
def PanelHealth.rank : PanelHealth → ℕ
  | unknown => 0
  | healthy => 1
  | atRisk => 2
  | degraded => 3

/-- `Ord::max`, which takes the second one of two that are equal. -/
def PanelHealth.max (a b : PanelHealth) : PanelHealth :=
  if b.rank < a.rank then a else b

structure OpenIncident where
  id : String
  title : String
  severity : IncidentSeverity
  openedAt : UInt64

/-- The data of a panel; a status is missing where it is `no_data`. -/
inductive PanelData (F : Type) where
  | sloStatus (slos : HashMap String (Option (SloStatus F)))
  | errorBudget (taskRemainingRatio uiRemainingRatio taskAllowedDowntimeSecs
      uiAllowedDowntimeSecs : F)
  | mttr (mttrSecs : Option F) (incidentCount : ℕ)
  | incidents (openIncidents : List OpenIncident) (count : ℕ)
  | regressions (openCount total : ℕ)

structure DashboardPanel (F : Type) where
  id : String
  title : String
  health : PanelHealth
  data : PanelData F

structure DashboardSnapshot (F : Type) where
  timestampSecs : UInt64
  overallHealth : PanelHealth
  panels : List (DashboardPanel F)

inductive DashboardEventKind where
  | sloBreach
  | errorBudgetAtRisk
  | errorBudgetExhausted
  | incidentOpened
  | allSlosRecovered
  deriving DecidableEq

inductive DashboardMessage (F : Type) where
  | breaching (name : String) (compliance : F)
  | exhausted
  | atRisk (task ui : F)
  deriving DecidableEq

structure DashboardEvent (F : Type) where
  kind : DashboardEventKind
  panelId : String
  message : DashboardMessage F
  timestampSecs : UInt64
  deriving DecidableEq

structure ReliabilityDashboard (F : Type) where
  events : List (DashboardEvent F)

def SloRegistry.evaluateAll (reg : SloRegistry F) :
    HashMap String (Except SloError (SloStatus F)) :=
  reg.thresholds.map fun name _ => reg.evaluate name

/-- What a snapshot is given: the states, the order in which it visits the statuses, and the
times that it reads, its own one first. -/
structure SnapshotInput (F : Type) [Arithmetic F] where
  slos : SloRegistry F
  metrics : ReliabilityMetrics F
  incidents : List Incident
  regressions : List RegressionReport
  order : Maps.Enumeration slos.evaluateAll
  now : ℕ → UInt64

/-- An event before it gets its time. -/
abbrev Emission (F : Type) := DashboardEventKind × String × DashboardMessage F

namespace ReliabilityDashboard

def new : ReliabilityDashboard F :=
  { events := [] }

def breachOf (name : String) : Except SloError (SloStatus F) → Option (Emission F)
  | .ok status =>
      if status.passing then none
      else some (.sloBreach, "slo_status", .breaching name status.complianceRatio)
  | .error _ => none

def buildSloPanel (input : SnapshotInput F) : DashboardPanel F × List (Emission F) :=
  let results := input.order.entries
  let emitted := results.filterMap fun entry => breachOf entry.1 entry.2
  let anyUnknown := results.any fun entry => entry.2.toOption.isNone
  let health : PanelHealth :=
    if !emitted.isEmpty then .degraded else if anyUnknown then .unknown else .healthy
  let slos : HashMap String (Option (SloStatus F)) :=
    results.foldl (fun slos entry => slos.insert entry.1 entry.2.toOption) ∅
  (⟨"slo_status", "SLO Status", health, .sloStatus slos⟩, emitted)

def buildErrorBudgetPanel (metrics : ReliabilityMetrics F) : DashboardPanel F × List (Emission F) :=
  let task := metrics.taskErrorBudget.remainingRatio
  let ui := metrics.uiErrorBudget.remainingRatio
  let data : PanelData F := .errorBudget task ui metrics.taskErrorBudget.allowedDowntimeSecs
    metrics.uiErrorBudget.allowedDowntimeSecs
  if task == 0.0 ∨ ui == 0.0 then
    (⟨"error_budget", "Error Budget", .degraded, data⟩,
      [(.errorBudgetExhausted, "error_budget", .exhausted)])
  else if task < 0.2 ∨ ui < 0.2 then
    (⟨"error_budget", "Error Budget", .atRisk, data⟩,
      [(.errorBudgetAtRisk, "error_budget", .atRisk task ui)])
  else (⟨"error_budget", "Error Budget", .healthy, data⟩, [])

def buildMttrPanel (metrics : ReliabilityMetrics F) : DashboardPanel F :=
  let mttr : Option F := metrics.mttr.mttrSecs
  let health : PanelHealth :=
    match mttr with
    | none => .unknown
    | some v => if v < 1800.0 then .healthy else if v < 7200.0 then .atRisk else .degraded
  ⟨"mttr", "MTTR", health, .mttr mttr metrics.mttr.records.length⟩

def buildIncidentsPanel (incidents : List Incident) : DashboardPanel F :=
  let openIncidents := (incidents.filter fun inc => inc.state = .open).map fun inc =>
    ({ id := inc.id, title := inc.title, severity := inc.severity, openedAt := inc.openedAt } :
      OpenIncident)
  ⟨"incidents", "Open Incidents", if openIncidents.isEmpty then .healthy else .degraded,
    .incidents openIncidents openIncidents.length⟩

def buildRegressionPanel (regressions : List RegressionReport) : DashboardPanel F :=
  let openCount := regressions.countP fun r => r.state ≠ .resolved ∧ r.state ≠ .wontFix
  ⟨"regressions", "Regressions",
    if openCount = 0 then .healthy else if openCount ≤ 3 then .atRisk else .degraded,
    .regressions openCount regressions.length⟩

def snapshot (d : ReliabilityDashboard F) (input : SnapshotInput F) :
    DashboardSnapshot F × ReliabilityDashboard F :=
  let slo := buildSloPanel input
  let budget := buildErrorBudgetPanel input.metrics
  let panels := [slo.1, budget.1, buildMttrPanel input.metrics,
    buildIncidentsPanel input.incidents, buildRegressionPanel input.regressions]
  let events := (slo.2 ++ budget.2).mapIdx fun i (kind, panelId, message) =>
    ({ kind, panelId, message, timestampSecs := input.now (i + 1) } : DashboardEvent F)
  ({ timestampSecs := input.now 0
     overallHealth := (panels.map DashboardPanel.health).foldl PanelHealth.max .unknown
     panels },
    { events := d.events ++ events })

def newEvents (d : ReliabilityDashboard F) (input : SnapshotInput F) : List (DashboardEvent F) :=
  (d.snapshot input).2.events.drop d.events.length

end ReliabilityDashboard

/-! ## Events for changes -/

namespace SnapshotInput

/-- The objective is evaluated and does not pass. -/
def Failing (input : SnapshotInput F) (name : String) : Prop :=
  ∃ status, input.slos.evaluate name = .ok status ∧ status.passing = false

inductive Budget where
  | task
  | ui
  deriving DecidableEq

def remaining (input : SnapshotInput F) : Budget → F
  | .task => input.metrics.taskErrorBudget.remainingRatio
  | .ui => input.metrics.uiErrorBudget.remainingRatio

def Low (input : SnapshotInput F) (b : Budget) : Prop :=
  input.remaining b < 0.2

def Exhausted (input : SnapshotInput F) (b : Budget) : Prop :=
  (input.remaining b == 0.0) = true

end SnapshotInput

open SnapshotInput

def Newly (level : SnapshotInput F → Budget → Prop) (previous : Option (SnapshotInput F))
    (input : SnapshotInput F) : Prop :=
  ∃ b, level input b ∧ ∀ p ∈ previous, ¬ level p b

/-- The events of a snapshot are those of the changes since the snapshot before. -/
structure EdgeTriggeredAt (previous : Option (SnapshotInput F)) (input : SnapshotInput F)
    (events : List (DashboardEvent F)) : Prop where
  breach : ∀ name, (∃ e ∈ events, e.kind = .sloBreach ∧ ∃ compliance,
      e.message = .breaching name compliance) ↔
    input.Failing name ∧ ∀ p ∈ previous, ¬ p.Failing name
  atRisk : ∀ e ∈ events, e.kind = .errorBudgetAtRisk → Newly Low previous input
  exhausted : ∀ e ∈ events, e.kind = .errorBudgetExhausted → Newly Exhausted previous input
  recovered : (∃ e ∈ events, e.kind = .allSlosRecovered) ↔
    (∃ p ∈ previous, ∃ name, p.Failing name) ∧ ∀ name, ¬ input.Failing name

/-- The events are those of the changes, at every snapshot of the sequence. -/
def EdgeTriggered (inputs : List (SnapshotInput F)) : Prop :=
  ∀ (k : ℕ) (input : SnapshotInput F), inputs[k]? = some input →
    EdgeTriggeredAt (inputs.take k).getLast? input
      ((before ReliabilityDashboard.snapshot .new inputs k).newEvents input)

/-- From one snapshot to the next one no objective goes on failing, the objectives do not recover,
and budgets are low or exhausted only where one of them has just become so. -/
structure OnlyNewFaults (p input : SnapshotInput F) : Prop where
  breach : ∀ name, input.Failing name → ¬ p.Failing name
  atRisk : (∃ b, input.Low b) → (∀ b, ¬ input.Exhausted b) → Newly Low (some p) input
  exhausted : (∃ b, input.Exhausted b) → Newly Exhausted (some p) input
  recovered : (∃ name, p.Failing name) → ∃ name, input.Failing name

/-! ## The events of a snapshot -/

variable {d : ReliabilityDashboard F} {input : SnapshotInput F} {name : String}

theorem evaluateAll_eq_ok_iff {reg : SloRegistry F} {status : SloStatus F} :
    reg.evaluateAll[name]? = some (.ok status) ↔ reg.evaluate name = .ok status := by
  rw [SloRegistry.evaluateAll, Std.ExtTreeMap.getElem?_map, Option.map_eq_some_iff]
  constructor
  · rintro ⟨_, -, h⟩
    exact h
  · intro h
    cases hget : reg.thresholds[name]? with
    | none =>
        rw [SloRegistry.evaluate, hget] at h
        cases h
    | some threshold => exact ⟨threshold, rfl, h⟩

def SnapshotInput.emitted (input : SnapshotInput F) : List (Emission F) :=
  (ReliabilityDashboard.buildSloPanel input).2 ++
    (ReliabilityDashboard.buildErrorBudgetPanel input.metrics).2

theorem exists_newEvents_iff {P : DashboardEventKind → DashboardMessage F → Prop} :
    (∃ e ∈ d.newEvents input, P e.kind e.message) ↔ ∃ x ∈ input.emitted, P x.1 x.2.2 := by
  rw [ReliabilityDashboard.newEvents, ReliabilityDashboard.snapshot]
  dsimp only
  rw [List.drop_left]
  constructor
  · rintro ⟨e, he, hP⟩
    obtain ⟨i, hi, rfl⟩ := List.mem_mapIdx.mp he
    exact ⟨_, List.getElem_mem hi, hP⟩
  · rintro ⟨x, hx, hP⟩
    obtain ⟨i, hi, rfl⟩ := List.getElem_of_mem hx
    exact ⟨_, List.mem_mapIdx.mpr ⟨i, hi, rfl⟩, hP⟩

theorem mem_buildSloPanel_iff {x : Emission F} :
    x ∈ (ReliabilityDashboard.buildSloPanel input).2 ↔
      ∃ name status, input.slos.evaluate name = .ok status ∧ status.passing = false ∧
        x = (.sloBreach, "slo_status", .breaching name status.complianceRatio) := by
  rw [ReliabilityDashboard.buildSloPanel, List.mem_filterMap]
  constructor
  · rintro ⟨⟨name, result⟩, hmem, hbreach⟩
    cases result with
    | error e => cases hbreach
    | ok status =>
        have hget := evaluateAll_eq_ok_iff.mp (input.order.mem_entries.mp hmem)
        rw [ReliabilityDashboard.breachOf] at hbreach
        split at hbreach
        · cases hbreach
        · next hfails =>
            cases hbreach
            exact ⟨name, status, hget, Bool.eq_false_iff.mpr hfails, rfl⟩
  · rintro ⟨name, status, hget, hfails, rfl⟩
    refine ⟨(name, .ok status), input.order.mem_entries.mpr (evaluateAll_eq_ok_iff.mpr hget), ?_⟩
    rw [ReliabilityDashboard.breachOf, hfails, if_neg (by decide)]

theorem exists_budget {P : Budget → Prop} : (∃ b, P b) ↔ P .task ∨ P .ui := by
  constructor
  · rintro ⟨_ | _, h⟩
    · exact .inl h
    · exact .inr h
  · rintro (h | h)
    · exact ⟨_, h⟩
    · exact ⟨_, h⟩

theorem mem_buildErrorBudgetPanel_iff {x : Emission F} :
    x ∈ (ReliabilityDashboard.buildErrorBudgetPanel input.metrics).2 ↔
      (∃ b, input.Exhausted b) ∧
          x = (.errorBudgetExhausted, "error_budget", .exhausted) ∨
        (∀ b, ¬ input.Exhausted b) ∧ (∃ b, input.Low b) ∧
          x = (.errorBudgetAtRisk, "error_budget",
            .atRisk (input.remaining .task) (input.remaining .ui)) := by
  have hexhausted : (∃ b, input.Exhausted b) ↔
      input.metrics.taskErrorBudget.remainingRatio == 0.0 ∨
        input.metrics.uiErrorBudget.remainingRatio == 0.0 := exists_budget
  have hlow : (∃ b, input.Low b) ↔
      input.metrics.taskErrorBudget.remainingRatio < 0.2 ∨
        input.metrics.uiErrorBudget.remainingRatio < 0.2 := exists_budget
  rw [ReliabilityDashboard.buildErrorBudgetPanel, ← not_exists, hexhausted, hlow]
  split
  · next h => simp only [List.mem_singleton, h, true_and, not_true_eq_false, false_and, or_false]
  · next h =>
      split
      · next h' =>
          simp only [List.mem_singleton, h, h', remaining, true_and, not_false_eq_true, false_and,
            false_or]
      · next h' =>
          simp only [List.not_mem_nil, h, h', false_and, and_false, or_false]

theorem mem_emitted_iff {x : Emission F} :
    x ∈ input.emitted ↔
      (∃ name status, input.slos.evaluate name = .ok status ∧ status.passing = false ∧
          x = (.sloBreach, "slo_status", .breaching name status.complianceRatio)) ∨
        (∃ b, input.Exhausted b) ∧
          x = (.errorBudgetExhausted, "error_budget", .exhausted) ∨
        (∀ b, ¬ input.Exhausted b) ∧ (∃ b, input.Low b) ∧
          x = (.errorBudgetAtRisk, "error_budget",
            .atRisk (input.remaining .task) (input.remaining .ui)) := by
  rw [emitted, List.mem_append, mem_buildSloPanel_iff, mem_buildErrorBudgetPanel_iff]

theorem breach_mem_iff :
    (∃ e ∈ d.newEvents input, e.kind = .sloBreach ∧ ∃ compliance,
      e.message = .breaching name compliance) ↔ input.Failing name := by
  rw [exists_newEvents_iff (P := fun kind message => kind = .sloBreach ∧ ∃ compliance,
    message = .breaching name compliance)]
  constructor
  · rintro ⟨x, hx, hkind, compliance, hmessage⟩
    rcases mem_emitted_iff.mp hx with ⟨name', status, hget, hfails, rfl⟩ | ⟨-, rfl⟩ | ⟨-, -, rfl⟩
    · cases hmessage
      exact ⟨status, hget, hfails⟩
    · cases hkind
    · cases hkind
  · rintro ⟨status, hget, hfails⟩
    exact ⟨_, mem_emitted_iff.mpr (.inl ⟨name, status, hget, hfails, rfl⟩), rfl,
      status.complianceRatio, rfl⟩

theorem exhausted_mem_iff :
    (∃ e ∈ d.newEvents input, e.kind = .errorBudgetExhausted) ↔ ∃ b, input.Exhausted b := by
  rw [exists_newEvents_iff (P := fun kind _ => kind = .errorBudgetExhausted)]
  constructor
  · rintro ⟨x, hx, hkind⟩
    rcases mem_emitted_iff.mp hx with ⟨name', status, -, -, rfl⟩ | ⟨hexhausted, -⟩ | ⟨-, -, rfl⟩
    · cases hkind
    · exact hexhausted
    · cases hkind
  · intro hexhausted
    exact ⟨_, mem_emitted_iff.mpr (.inr (.inl ⟨hexhausted, rfl⟩)), rfl⟩

theorem atRisk_mem_iff :
    (∃ e ∈ d.newEvents input, e.kind = .errorBudgetAtRisk) ↔
      (∃ b, input.Low b) ∧ ∀ b, ¬ input.Exhausted b := by
  rw [exists_newEvents_iff (P := fun kind _ => kind = .errorBudgetAtRisk)]
  constructor
  · rintro ⟨x, hx, hkind⟩
    rcases mem_emitted_iff.mp hx with ⟨name', status, -, -, rfl⟩ | ⟨-, rfl⟩ | ⟨hleft, hlow, -⟩
    · cases hkind
    · cases hkind
    · exact ⟨hlow, hleft⟩
  · rintro ⟨hlow, hleft⟩
    exact ⟨_, mem_emitted_iff.mpr (.inr (.inr ⟨hleft, hlow, rfl⟩)), rfl⟩

theorem recovered_notMem : ¬ ∃ e ∈ d.newEvents input, e.kind = .allSlosRecovered := by
  rw [exists_newEvents_iff (P := fun kind _ => kind = .allSlosRecovered)]
  rintro ⟨x, hx, hkind⟩
  rcases mem_emitted_iff.mp hx with ⟨name', status, -, -, rfl⟩ | ⟨-, rfl⟩ | ⟨-, -, rfl⟩
  · cases hkind
  · cases hkind
  · cases hkind

/-! ## Sequences of snapshots -/

theorem newly_none_iff {level : SnapshotInput F → Budget → Prop} :
    Newly level none input ↔ ∃ b, level input b := by
  simp [Newly]

theorem edgeTriggeredAt_iff (previous : Option (SnapshotInput F)) :
    EdgeTriggeredAt previous input (d.newEvents input) ↔
      ∀ p ∈ previous, OnlyNewFaults p input := by
  have hrisk {Q : Prop} : (∀ e ∈ d.newEvents input, e.kind = .errorBudgetAtRisk → Q) ↔
      ((∃ b, input.Low b) ∧ (∀ b, ¬ input.Exhausted b) → Q) := by
    rw [← atRisk_mem_iff (d := d)]
    simp
  have hexhausted {Q : Prop} : (∀ e ∈ d.newEvents input, e.kind = .errorBudgetExhausted → Q) ↔
      ((∃ b, input.Exhausted b) → Q) := by
    rw [← exhausted_mem_iff (d := d)]
    simp
  constructor
  · rintro ⟨hbreach, hlow, hempty, hrecovered⟩ p hp
    cases hp
    refine ⟨fun name hfails hbefore => ?_, fun hb hleft => hrisk.mp hlow ⟨hb, hleft⟩,
      hexhausted.mp hempty, fun hbefore => ?_⟩
    · exact ((hbreach name).mp (breach_mem_iff.mpr hfails)).2 p rfl hbefore
    · by_contra hnone
      exact recovered_notMem (hrecovered.mpr ⟨⟨p, rfl, hbefore⟩, not_exists.mp hnone⟩)
  · intro h
    refine ⟨fun name => ?_, hrisk.mpr fun hb => ?_, hexhausted.mpr fun hb => ?_, ?_⟩
    · rw [breach_mem_iff]
      exact ⟨fun hfails => ⟨hfails, fun p hp => (h p hp).breach name hfails⟩, And.left⟩
    · cases previous with
      | none => exact newly_none_iff.mpr hb.1
      | some p => exact (h p rfl).atRisk hb.1 hb.2
    · cases previous with
      | none => exact newly_none_iff.mpr hb
      | some p => exact (h p rfl).exhausted hb
    · refine iff_of_false recovered_notMem ?_
      rintro ⟨⟨p, hp, hbefore⟩, hnone⟩
      obtain ⟨name, hfails⟩ := (h p hp).recovered hbefore
      exact hnone name hfails

/-- The events of the snapshots are those of the changes exactly if all faults of a snapshot are
new ones, and there is one wherever there was one before. -/
theorem edge_triggered_iff (inputs : List (SnapshotInput F)) :
    EdgeTriggered inputs ↔ inputs.IsChain OnlyNewFaults := by
  have hat (k : ℕ) (input : SnapshotInput F) :
      EdgeTriggeredAt (inputs.take k).getLast? input
          ((before ReliabilityDashboard.snapshot .new inputs k).newEvents input) ↔
        ∀ p ∈ (inputs.take k).getLast?, OnlyNewFaults p input :=
    edgeTriggeredAt_iff _
  rw [List.isChain_iff_getElem]
  constructor
  · intro h k hk
    have hprevious : (inputs.take (k + 1)).getLast? = some inputs[k] := by
      rw [List.getLast?_take]
      simp [List.getElem?_eq_getElem (Nat.lt_of_succ_lt hk)]
    exact (hat _ _).mp (h (k + 1) inputs[k + 1] (List.getElem?_eq_getElem hk)) _ hprevious
  · intro h k input hinput
    refine (hat k input).mpr fun p hp => ?_
    obtain ⟨hk, rfl⟩ := List.getElem?_eq_some_iff.mp hinput
    cases k with
    | zero => cases hp
    | succ k =>
        rw [List.getLast?_take] at hp
        simp [List.getElem?_eq_getElem (Nat.lt_of_succ_lt hk)] at hp
        rw [← hp]
        exact h k hk

/-- The state with one objective, that of a value of at most 0, and one sample, 1. -/
def breachingInput : SnapshotInput Float :=
  let registered := ((SloRegistry.new 1).register (.latency "slo" .taskLatency 50 0.0 1.0)).2
  let slos := (registered.record ⟨"slo", 1.0, 0⟩).2
  { slos, metrics := .new, incidents := [], regressions := []
    order := ⟨slos.evaluateAll.toList, .refl _⟩, now := fun _ => 0 }

theorem breachingInput_failing : breachingInput.Failing "slo" := by
  refine ⟨⟨"slo", false, 1.0, 0.0, 0.0, 1⟩, ?_, rfl⟩
  decide +kernel

/-- An objective that goes on failing is reported at each snapshot. -/
theorem edge_triggered_fails : ¬ ∀ inputs : List (SnapshotInput Float), EdgeTriggered inputs := by
  intro h
  have hsecond := h [breachingInput, breachingInput] 1 breachingInput rfl
  have hnew := (edgeTriggeredAt_iff _).mp hsecond breachingInput rfl
  exact hnew.breach "slo" breachingInput_failing breachingInput_failing

end Reliability

end InfinityOS
