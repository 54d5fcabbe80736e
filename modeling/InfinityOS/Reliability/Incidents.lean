import InfinityOS.Core.Maps
import InfinityOS.Core.Types
import InfinityOS.Text.Replace
import InfinityOS.Transition.Run

/-!
# Incidents

Signals open incidents by rules. A signal that a rule matches is counted for the rule and the
dimension of the signal; once the count has reached the threshold of the rule, the signal is
appended to an open incident of the two, or opens one. Operators acknowledge and resolve
incidents in between.

The ids and times that are drawn, and the order in which the map of incidents is searched, are
arguments.
-/

namespace InfinityOS

namespace Reliability

open Transition

instance Prod.Lex.instLawfulEqOrd {α β : Type*} [Ord α] [Ord β] [Std.LawfulEqOrd α]
    [Std.LawfulEqOrd β] : Std.LawfulEqOrd (α ×ₗ β) where
  compare_self {a} := by
    change (compare (ofLex a).1 (ofLex a).1).then (compare (ofLex a).2 (ofLex a).2) = .eq
    rw [Ordering.then_eq_eq]
    exact ⟨Std.ReflCmp.compare_self, Std.ReflCmp.compare_self⟩
  eq_of_compare {a b} h := by
    change (compare (ofLex a).1 (ofLex b).1).then (compare (ofLex a).2 (ofLex b).2) = .eq at h
    rw [Ordering.then_eq_eq] at h
    exact ofLex_inj.mp (Prod.ext (Std.LawfulEqCmp.eq_of_compare h.1)
      (Std.LawfulEqCmp.eq_of_compare h.2))

inductive IncidentError where
  | duplicateRule (id : String)
  | notFound (id : String)
  deriving DecidableEq

inductive IncidentSeverity where
  | critical
  | high
  | medium
  | low
  deriving DecidableEq

structure TelemetrySignal where
  signalType : String
  dimensionId : String
  taskId : Option String
  payload : Json
  timestampSecs : UInt64

structure IncidentRule where
  id : String
  signalTypePrefix : String
  titleTemplate : String
  severity : IncidentSeverity
  thresholdCount : UInt32
  deriving DecidableEq

/-- A rule that fires on the first matching signal. -/
def IncidentRule.immediate (id signalTypePrefix titleTemplate : String)
    (severity : IncidentSeverity) : IncidentRule :=
  { id, signalTypePrefix, titleTemplate, severity, thresholdCount := 1 }

/-- `starts_with`. -/
def IncidentRule.matches (rule : IncidentRule) (signal : TelemetrySignal) : Bool :=
  decide (rule.signalTypePrefix.toList <+: signal.signalType.toList)

inductive IncidentState where
  | open
  | acknowledged
  | resolved
  deriving DecidableEq

structure Incident where
  id : String
  title : String
  severity : IncidentSeverity
  state : IncidentState
  dimensionId : String
  createdByRule : Option String
  signals : List TelemetrySignal
  openedAt : UInt64
  resolvedAt : Option UInt64
  labels : HashMap String String

namespace Incident

/-- `Incident::new` with the generated id and the time. -/
def new (id : String) (now : UInt64) (title : String) (severity : IncidentSeverity)
    (dimensionId : String) (createdByRule : Option String) : Incident :=
  { id, title, severity, state := .open, dimensionId, createdByRule, signals := [],
    openedAt := now, resolvedAt := none, labels := ∅ }

def acknowledge (inc : Incident) : Incident :=
  { inc with state := .acknowledged }

def resolve (inc : Incident) (now : UInt64) : Incident :=
  { inc with state := .resolved, resolvedAt := some now }

def Of (inc : Incident) (ruleId dimensionId : String) : Prop :=
  inc.createdByRule = some ruleId ∧ inc.dimensionId = dimensionId

instance (inc : Incident) (ruleId dimensionId : String) : Decidable (inc.Of ruleId dimensionId) :=
  inferInstanceAs (Decidable (_ ∧ _))

end Incident

structure IncidentPipeline where
  rules : List IncidentRule
  incidents : HashMap String Incident
  signalCounts : HashMap (String ×ₗ String) UInt32

/-- What a rule draws for a signal: the id of an incident, the time, and the order in which the
incidents are visited. -/
structure Draw where
  id : String
  now : UInt64
  order : ∀ incidents : HashMap String Incident, Maps.Enumeration incidents

/-- What a rule makes of a signal. -/
inductive Outcome where
  | suppressed
  | appended (inc : Incident)
  | opened (inc : Incident)

namespace IncidentPipeline

def new : IncidentPipeline where
  rules := []
  incidents := ∅
  signalCounts := ∅

def addRule (p : IncidentPipeline) (rule : IncidentRule) :
    Except IncidentError Unit × IncidentPipeline :=
  if p.rules.any fun r => r.id = rule.id then (.error (.duplicateRule rule.id), p)
  else (.ok (), { p with rules := p.rules ++ [rule] })

def count (p : IncidentPipeline) (ruleId dimensionId : String) : UInt32 :=
  p.signalCounts[toLex (ruleId, dimensionId)]?.getD 0

def title (rule : IncidentRule) (signal : TelemetrySignal) : String :=
  String.ofList (Text.replace "\x7bsignal_type\x7d".toList signal.signalType.toList
    rule.titleTemplate.toList)

/-- The body of the loop of `ingest` over the matching rules. -/
def ingestRule (p : IncidentPipeline) (signal : TelemetrySignal) (draw : Draw)
    (rule : IncidentRule) : Outcome × IncidentPipeline :=
  let count := p.count rule.id signal.dimensionId + 1
  let p := { p with
    signalCounts := p.signalCounts.insert (toLex (rule.id, signal.dimensionId)) count }
  if count < rule.thresholdCount then (.suppressed, p)
  else
    let existing := (draw.order p.incidents).entries.find? fun entry =>
      decide (entry.2.Of rule.id signal.dimensionId ∧ entry.2.state = .open)
    match existing with
    | some (key, inc) =>
        let inc := { inc with signals := inc.signals ++ [signal] }
        (.appended inc, { p with incidents := p.incidents.insert key inc })
    | none =>
        let inc := Incident.new draw.id draw.now (title rule signal) rule.severity
          signal.dimensionId (some rule.id)
        let inc := { inc with signals := inc.signals ++ [signal] }
        (.opened inc, { p with incidents := p.incidents.insert inc.id inc })

/-- The loop over the matching rules; the `k`-th draws `draws k`. -/
def ingestRules (signal : TelemetrySignal) (draws : ℕ → Draw) :
    ℕ → List IncidentRule → IncidentPipeline → List (IncidentRule × Outcome) × IncidentPipeline
  | _, [], p => ([], p)
  | k, rule :: rules, p =>
      let (outcome, p) := p.ingestRule signal (draws k) rule
      let (outcomes, p) := ingestRules signal draws (k + 1) rules p
      ((rule, outcome) :: outcomes, p)

def matchingRules (p : IncidentPipeline) (signal : TelemetrySignal) : List IncidentRule :=
  p.rules.filter fun rule => rule.matches signal

end IncidentPipeline

def Outcome.affected : Outcome → Option String
  | suppressed => none
  | appended inc | opened inc => some inc.id

namespace IncidentPipeline

def ingest (p : IncidentPipeline) (signal : TelemetrySignal) (draws : ℕ → Draw) :
    List String × IncidentPipeline :=
  let (outcomes, p) := ingestRules signal draws 0 (p.matchingRules signal) p
  (outcomes.filterMap fun entry => entry.2.affected, p)

/-- A change of an existing incident through `get_mut`. -/
def modify (p : IncidentPipeline) (id : String) (f : Incident → Incident) : IncidentPipeline :=
  match p.incidents[id]? with
  | none => p
  | some inc => { p with incidents := p.incidents.insert id (f inc) }

inductive Call where
  | addRule (rule : IncidentRule)
  | ingest (signal : TelemetrySignal) (draws : ℕ → Draw)
  | acknowledge (id : String)
  | resolve (id : String) (now : UInt64)

inductive Answer where
  | ruleAdded (result : Except IncidentError Unit)
  | affected (ids : List String)
  | changed

def step (p : IncidentPipeline) : Call → Answer × IncidentPipeline
  | .addRule rule =>
      let (result, p) := p.addRule rule
      (.ruleAdded result, p)
  | .ingest signal draws =>
      let (ids, p) := p.ingest signal draws
      (.affected ids, p)
  | .acknowledge id => (.changed, p.modify id Incident.acknowledge)
  | .resolve id now => (.changed, p.modify id fun inc => inc.resolve now)

/-! ## One rule -/

def opening (signal : TelemetrySignal) (draw : Draw) (rule : IncidentRule) : Incident :=
  { Incident.new draw.id draw.now (title rule signal) rule.severity signal.dimensionId
      (some rule.id) with signals := [signal] }

/-- What a rule may make of a signal, with the incidents before and after. -/
inductive Handled (p : IncidentPipeline) (signal : TelemetrySignal) (draw : Draw)
    (rule : IncidentRule) : Outcome → HashMap String Incident → Prop
  | suppressed (hlt : p.count rule.id signal.dimensionId + 1 < rule.thresholdCount) :
      Handled p signal draw rule .suppressed p.incidents
  | appended (key : String) (inc : Incident)
      (hle : rule.thresholdCount ≤ p.count rule.id signal.dimensionId + 1)
      (hget : p.incidents[key]? = some inc) (hof : inc.Of rule.id signal.dimensionId)
      (hopen : inc.state = .open) :
      Handled p signal draw rule (.appended { inc with signals := inc.signals ++ [signal] })
        (p.incidents.insert key { inc with signals := inc.signals ++ [signal] })
  | opened (hle : rule.thresholdCount ≤ p.count rule.id signal.dimensionId + 1)
      (hnone : ∀ (key : String) (inc : Incident), p.incidents[key]? = some inc →
        inc.Of rule.id signal.dimensionId → inc.state ≠ .open) :
      Handled p signal draw rule (.opened (opening signal draw rule))
        (p.incidents.insert draw.id (opening signal draw rule))

section Rule

variable (p : IncidentPipeline) (signal : TelemetrySignal) (draw : Draw) (rule : IncidentRule)

theorem ingestRule_handled :
    Handled p signal draw rule (p.ingestRule signal draw rule).1
      (p.ingestRule signal draw rule).2.incidents := by
  rw [ingestRule]
  dsimp only
  split
  · next hlt => exact .suppressed hlt
  · next hle =>
      rw [UInt32.not_lt] at hle
      split
      · next key inc hfind =>
          have hmem := (draw.order p.incidents).perm.mem_iff.mp (List.mem_of_find?_eq_some hfind)
          have htest := List.find?_some hfind
          rw [decide_eq_true_eq] at htest
          exact .appended key inc hle (Maps.mem_toList.mp hmem) htest.1 htest.2
      · next hfind =>
          refine .opened hle fun key inc hget hof hopen => ?_
          have hmem := (draw.order p.incidents).perm.mem_iff.mpr (Maps.mem_toList.mpr hget)
          have htest := List.find?_eq_none.mp hfind (key, inc) hmem
          rw [decide_eq_true_eq] at htest
          exact htest ⟨hof, hopen⟩

theorem rules_ingestRule : (p.ingestRule signal draw rule).2.rules = p.rules := by
  rw [ingestRule]
  dsimp only
  split
  · rfl
  · split
    · rfl
    · rfl

theorem count_ingestRule (ruleId dimensionId : String) :
    (p.ingestRule signal draw rule).2.count ruleId dimensionId =
      if ruleId = rule.id ∧ dimensionId = signal.dimensionId then p.count ruleId dimensionId + 1
      else p.count ruleId dimensionId := by
  have hcounts : (p.ingestRule signal draw rule).2.signalCounts =
      p.signalCounts.insert (toLex (rule.id, signal.dimensionId))
        (p.count rule.id signal.dimensionId + 1) := by
    rw [ingestRule]
    dsimp only
    split
    · rfl
    · split
      · rfl
      · rfl
  rw [count, hcounts, Maps.getElem?_insert_ite]
  by_cases hkey : ruleId = rule.id ∧ dimensionId = signal.dimensionId
  · obtain ⟨rfl, rfl⟩ := hkey
    rw [if_pos rfl, if_pos ⟨rfl, rfl⟩]
    rfl
  · have hne : toLex (ruleId, dimensionId) ≠ toLex (rule.id, signal.dimensionId) := by
      intro heq
      exact hkey (Prod.mk.inj (toLex_inj.mp heq))
    rw [if_neg hne, if_neg hkey]
    rfl

end Rule

/-- What every rule keeps, the loop keeps. -/
theorem ingestRules_invariant (Inv : IncidentPipeline → Prop) {signal : TelemetrySignal}
    {draws : ℕ → Draw} (hstep : ∀ p draw rule, Inv p → Inv (p.ingestRule signal draw rule).2)
    (k : ℕ) (rules : List IncidentRule) {p : IncidentPipeline} (hp : Inv p) :
    Inv (ingestRules signal draws k rules p).2 := by
  induction rules generalizing k p with
  | nil => exact hp
  | cons rule rules ih => exact ih (k + 1) (hstep p (draws k) rule hp)

theorem rules_ingest (p : IncidentPipeline) (signal : TelemetrySignal) (draws : ℕ → Draw) :
    (p.ingest signal draws).2.rules = p.rules :=
  ingestRules_invariant (fun q => q.rules = p.rules)
    (fun q draw rule hq => (rules_ingestRule q signal draw rule).trans hq) 0 _ rfl

/-! ## At most one incident -/

/-- At most one incident of every rule and dimension is in one of these states. -/
def AtMostOne (live : IncidentState → Prop) (p : IncidentPipeline) : Prop :=
  ∀ (ruleId dimensionId id id' : String) (inc inc' : Incident), p.incidents[id]? = some inc →
    p.incidents[id']? = some inc' → inc.Of ruleId dimensionId → inc'.Of ruleId dimensionId →
      live inc.state → live inc'.state → id = id'

section Unique

variable {live : IncidentState → Prop} {p p' : IncidentPipeline}

/-- An incident may be replaced by one of the same rule and dimension that is live only if the
other one was. -/
theorem AtMostOne.replace (h : AtMostOne live p) {key : String} {inc changed : Incident}
    (hget : p.incidents[key]? = some inc)
    (hincidents : p'.incidents = p.incidents.insert key changed)
    (hof : ∀ ruleId dimensionId, changed.Of ruleId dimensionId → inc.Of ruleId dimensionId)
    (hlive : live changed.state → live inc.state) : AtMostOne live p' := by
  have hbefore : ∀ (id : String) (inc' : Incident), p'.incidents[id]? = some inc' →
      ∃ before : Incident, p.incidents[id]? = some before ∧
        (∀ ruleId dimensionId, inc'.Of ruleId dimensionId → before.Of ruleId dimensionId) ∧
        (live inc'.state → live before.state) := by
    intro id inc' hget'
    rw [hincidents, Maps.getElem?_insert_ite] at hget'
    split at hget'
    · next hkey =>
        rw [Option.some.injEq] at hget'
        subst hkey hget'
        exact ⟨inc, hget, hof, hlive⟩
    · exact ⟨inc', hget', fun _ _ hof => hof, fun hlive => hlive⟩
  intro ruleId dimensionId id id' inc₁ inc₂ hget₁ hget₂ hof₁ hof₂ hlive₁ hlive₂
  obtain ⟨before₁, hbefore₁, hof₁', hlive₁'⟩ := hbefore id inc₁ hget₁
  obtain ⟨before₂, hbefore₂, hof₂', hlive₂'⟩ := hbefore id' inc₂ hget₂
  exact h ruleId dimensionId id id' before₁ before₂ hbefore₁ hbefore₂ (hof₁' _ _ hof₁)
    (hof₂' _ _ hof₂) (hlive₁' hlive₁) (hlive₂' hlive₂)

/-- An incident may be put in when no incident of its rule and dimension is live. -/
theorem AtMostOne.insert (h : AtMostOne live p) {key : String} {added : Incident}
    (hincidents : p'.incidents = p.incidents.insert key added)
    (hnone : ∀ (ruleId dimensionId id : String) (inc : Incident), added.Of ruleId dimensionId →
      p.incidents[id]? = some inc → inc.Of ruleId dimensionId → ¬ live inc.state) :
    AtMostOne live p' := by
  intro ruleId dimensionId id id' inc inc' hget hget' hof hof' hlive hlive'
  rw [hincidents, Maps.getElem?_insert_ite] at hget hget'
  by_cases hid : id = key
  · by_cases hid' : id' = key
    · rw [hid, hid']
    · rw [if_pos hid, Option.some.injEq] at hget
      rw [if_neg hid'] at hget'
      subst hget
      exact absurd hlive' (hnone ruleId dimensionId id' inc' hof hget' hof')
  · rw [if_neg hid] at hget
    by_cases hid' : id' = key
    · rw [if_pos hid', Option.some.injEq] at hget'
      subst hget'
      exact absurd hlive (hnone ruleId dimensionId id inc hof' hget hof)
    · rw [if_neg hid'] at hget'
      exact h ruleId dimensionId id id' inc inc' hget hget' hof hof' hlive hlive'

theorem AtMostOne.congr (h : AtMostOne live p) (hincidents : p'.incidents = p.incidents) :
    AtMostOne live p' := by
  intro ruleId dimensionId id id' inc inc' hget hget'
  rw [hincidents] at hget hget'
  exact h ruleId dimensionId id id' inc inc' hget hget'

theorem AtMostOne.modify (h : AtMostOne live p) (id : String) {f : Incident → Incident}
    (hof : ∀ inc ruleId dimensionId, (f inc).Of ruleId dimensionId →
      Incident.Of inc ruleId dimensionId)
    (hlive : ∀ inc, live (f inc).state → live inc.state) : AtMostOne live (p.modify id f) := by
  rw [IncidentPipeline.modify]
  split
  · exact h
  · next inc hget => exact h.replace hget rfl (hof inc) (hlive inc)

end Unique

/-- A rule opens an incident only when none of its incidents for the dimension is open. -/
theorem atMostOne_ingestRule (p : IncidentPipeline) (signal : TelemetrySignal) (draw : Draw)
    (rule : IncidentRule) (h : AtMostOne (· = .open) p) :
    AtMostOne (· = .open) (p.ingestRule signal draw rule).2 := by
  have hhandled := ingestRule_handled p signal draw rule
  generalize hincidents : (p.ingestRule signal draw rule).2.incidents = incidents at hhandled
  generalize (p.ingestRule signal draw rule).1 = outcome at hhandled
  cases hhandled with
  | suppressed hlt => exact h.congr hincidents
  | appended key inc hle hget hof hopen =>
      exact h.replace hget hincidents (fun _ _ hof => hof) fun hopen => hopen
  | opened hle hnone =>
      refine h.insert hincidents ?_
      rintro ruleId dimensionId id inc ⟨hrule, hdimension⟩ hget hof
      cases hrule
      cases hdimension
      exact hnone id inc hget hof

theorem atMostOne_step (p : IncidentPipeline) (call : Call) (h : AtMostOne (· = .open) p) :
    AtMostOne (· = .open) (step p call).2 := by
  cases call with
  | addRule rule =>
      change AtMostOne _ (p.addRule rule).2
      rw [addRule]
      split
      · exact h
      · exact h.congr rfl
  | ingest signal draws =>
      exact ingestRules_invariant _
        (fun q draw rule => atMostOne_ingestRule q signal draw rule)
        0 (p.matchingRules signal) h
  | acknowledge id => exact h.modify id (fun _ _ _ hof => hof) fun _ hopen => by cases hopen
  | resolve id now => exact h.modify id (fun _ _ _ hof => hof) fun _ hopen => by cases hopen

/-! ## Without acknowledgements -/

def Unacknowledged (p : IncidentPipeline) : Prop :=
  ∀ (id : String) (inc : Incident), p.incidents[id]? = some inc → inc.state ≠ .acknowledged

theorem Unacknowledged.insert {p p' : IncidentPipeline} (h : Unacknowledged p) {key : String}
    {inc : Incident} (hincidents : p'.incidents = p.incidents.insert key inc)
    (hinc : inc.state ≠ .acknowledged) : Unacknowledged p' := by
  intro id inc' hget
  rw [hincidents, Maps.getElem?_insert_ite] at hget
  split at hget
  · rw [Option.some.injEq] at hget
    rwa [← hget]
  · exact h id inc' hget

theorem unacknowledged_ingestRule (p : IncidentPipeline) (signal : TelemetrySignal) (draw : Draw)
    (rule : IncidentRule) (h : Unacknowledged p) :
    Unacknowledged (p.ingestRule signal draw rule).2 := by
  have hhandled := ingestRule_handled p signal draw rule
  generalize hincidents : (p.ingestRule signal draw rule).2.incidents = incidents at hhandled
  generalize (p.ingestRule signal draw rule).1 = outcome at hhandled
  cases hhandled with
  | suppressed hlt =>
      intro id inc hget
      rw [hincidents] at hget
      exact h id inc hget
  | appended key inc hle hget hof hopen =>
      refine h.insert hincidents ?_
      rw [hopen]
      decide
  | opened hle hnone => exact h.insert hincidents fun hstate => by cases hstate

theorem unacknowledged_step (p : IncidentPipeline) (call : Call) (h : Unacknowledged p)
    (hcall : ∀ id, call ≠ .acknowledge id) : Unacknowledged (step p call).2 := by
  cases call with
  | addRule rule =>
      change Unacknowledged (p.addRule rule).2
      rw [addRule]
      split
      · exact h
      · exact h
  | ingest signal draws =>
      exact ingestRules_invariant _
        (fun q draw rule => unacknowledged_ingestRule q signal draw rule)
        0 (p.matchingRules signal) h
  | acknowledge id => exact absurd rfl (hcall id)
  | resolve id now =>
      change Unacknowledged (p.modify id _)
      rw [IncidentPipeline.modify]
      split
      · exact h
      · exact h.insert rfl fun hstate => by cases hstate

/-- In every run at most one incident of a rule and a dimension is open, and at most one is
unresolved as long as none is acknowledged. -/
theorem atMostOne_final (calls : List Call) :
    AtMostOne (· = .open) (final step new calls) ∧
      ((∀ id, Call.acknowledge id ∉ calls) →
        AtMostOne (· ≠ .resolved) (final step new calls)) := by
  have hopen : AtMostOne (· = .open) (final step new calls) := by
    apply invariant_final_of_forall (AtMostOne (· = .open)) atMostOne_step calls
    intro ruleId dimensionId id id' inc inc' hget
    simp [new] at hget
  refine ⟨hopen, fun hcalls => ?_⟩
  have hstates : Unacknowledged (final step new calls) := by
    refine invariant_final (P := fun _ call => ∀ id, call ≠ .acknowledge id) Unacknowledged
      unacknowledged_step ?_ (along_const.mpr ?_)
    · intro id inc hget
      simp [new] at hget
    · rintro call hcall id rfl
      exact hcalls id hcall
  have hlive : ∀ (id : String) (inc : Incident),
      (final step new calls).incidents[id]? = some inc → inc.state ≠ .resolved →
        inc.state = .open := by
    intro id inc hget hresolved
    have hacknowledged := hstates id inc hget
    cases hstate : inc.state with
    | «open» => rfl
    | acknowledged => exact absurd hstate hacknowledged
    | resolved => exact absurd hstate hresolved
  intro ruleId dimensionId id id' inc inc' hget hget' hof hof' hunresolved hunresolved'
  exact hopen ruleId dimensionId id id' inc inc' hget hget' hof hof'
    (hlive id inc hget hunresolved) (hlive id' inc' hget' hunresolved')

def breach : TelemetrySignal :=
  { signalType := "slo.breach", dimensionId := "dim-1", taskId := none, payload := .object [],
    timestampSecs := 0 }

def drawing (id : String) (_ : ℕ) : Draw :=
  { id, now := 0, order := fun incidents => ⟨incidents.toList, .refl _⟩ }

/-- A second signal after an acknowledgement. -/
def acknowledgedCalls : List Call :=
  [.addRule (.immediate "r1" "slo." "SLO breach" .high), .ingest breach (drawing "i-1"),
    .acknowledge "i-1", .ingest breach (drawing "i-2")]

theorem not_atMostOne_acknowledged :
    ¬ AtMostOne (· ≠ .resolved) (final step new acknowledgedCalls) := by
  intro h
  have hfirst : ((final step new acknowledgedCalls).incidents["i-1"]?.map fun inc =>
      (inc.state, inc.createdByRule, inc.dimensionId)) =
        some (.acknowledged, some "r1", "dim-1") := by
    decide +kernel
  have hsecond : ((final step new acknowledgedCalls).incidents["i-2"]?.map fun inc =>
      (inc.state, inc.createdByRule, inc.dimensionId)) = some (.open, some "r1", "dim-1") := by
    decide +kernel
  obtain ⟨inc, hget, hinc⟩ := Option.map_eq_some_iff.mp hfirst
  obtain ⟨inc', hget', hinc'⟩ := Option.map_eq_some_iff.mp hsecond
  rw [Prod.mk.injEq, Prod.mk.injEq] at hinc hinc'
  have hid := h "r1" "dim-1" "i-1" "i-2" inc inc' hget hget' hinc.2 hinc'.2
    (by rw [hinc.1]; decide) (by rw [hinc'.1]; decide)
  exact absurd hid (by decide)

end IncidentPipeline

end Reliability

end InfinityOS
