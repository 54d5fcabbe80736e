import InfinityOS.Core.Checks
import InfinityOS.Core.Maps
import InfinityOS.Core.Types
import InfinityOS.Transition.Run

/-!
# Flow control

A flow goes from step to step along the first transition whose condition holds, or along
the fallback of the step. `validate` checks the targets of all transitions and fallbacks,
`advance` looks up the current step and the one it goes to. Log entries are left out, and
with them the signals of the conditions, the dimension and the task that only appear
there, and the canvas attachments.
-/

namespace InfinityOS

namespace Flow

open Transition

inductive FlowControlError where
  | stepNotFound (id : Uuid)
  | transitionTargetNotFound (source target : Uuid)
  | missingMetric (metric : String)
  | modelEvaluationFailed (model reason : String)
  | maxVisitsExceeded (stepId : Uuid) (limit : UInt32)
  | noMatchingTransition (id : Uuid)
  deriving DecidableEq

structure FlowContext where
  metrics : HashMap String Float
  features : Json

def FlowContext.new : FlowContext :=
  { metrics := ∅, features := .null }

inductive FlowTerminalStatus where
  | completed
  | failed
  | cancelled
  deriving DecidableEq

inductive FlowStepKind where
  | task (nodeId : Uuid)
  | decision (description : String)
  | terminal (status : FlowTerminalStatus)
  deriving DecidableEq

inductive FlowCondition where
  | always
  | metricAtLeast (metric : String) (threshold : Float)
  | metricBelow (metric : String) (threshold : Float)
  | modelScoreAtLeast (model : String) (threshold : Float)

structure FlowTransition where
  label : String
  condition : FlowCondition
  target : Uuid

structure FlowStep where
  id : Uuid
  name : String
  kind : FlowStepKind
  transitions : List FlowTransition
  fallback : Option Uuid
  maxVisits : Option UInt32

structure FlowGraph where
  id : Uuid
  name : String
  entrypoint : Uuid
  steps : HashMap Uuid FlowStep

/-! ## Validation -/

namespace FlowGraph

/-- `FlowGraph::new` with the generated id. -/
def new (id : Uuid) (name : String) (entry : FlowStep) : FlowGraph :=
  { id, name, entrypoint := entry.id, steps := Std.ExtTreeMap.empty.insert entry.id entry }

def insertStep (g : FlowGraph) (step : FlowStep) : FlowGraph :=
  { g with steps := g.steps.insert step.id step }

/-- The check of one target of the step `source`. -/
def checkTarget (g : FlowGraph) (source target : Uuid) : Except FlowControlError Unit :=
  if g.steps.contains target then .ok () else .error (.transitionTargetNotFound source target)

def validateStep (g : FlowGraph) (entry : Uuid × FlowStep) : Except FlowControlError Unit :=
  match entry.2.transitions.forM fun transition => g.checkTarget entry.1 transition.target with
  | .error e => .error e
  | .ok () =>
      match entry.2.fallback with
      | none => .ok ()
      | some fallback => g.checkTarget entry.1 fallback

/-- The order of the steps only decides which of several errors is reported. -/
def validate (g : FlowGraph) : Except FlowControlError Unit :=
  g.steps.toList.forM g.validateStep

end FlowGraph

/-! ## Advancing -/

structure FlowState where
  visits : HashMap Uuid UInt32

namespace FlowState

def new : FlowState :=
  { visits := ∅ }

/-- `record_visit`, whose counter wraps. -/
def recordVisit (state : FlowState) (stepId : Uuid) : UInt32 × FlowState :=
  let count := state.visits[stepId]?.getD 0 + 1
  (count, { visits := state.visits.insert stepId count })

end FlowState

inductive FlowAdvance where
  | next (id : Uuid)
  | terminal (status : FlowTerminalStatus)
  deriving DecidableEq

/-- `ModelEvaluator::score`. -/
abbrev ModelEvaluator := String → Json → Except FlowControlError Float

namespace FlowControlEngine

section

variable (score : ModelEvaluator) (g : FlowGraph)

def evaluateCondition (context : FlowContext) :
    FlowCondition → Except FlowControlError Bool
  | .always => .ok true
  | .metricAtLeast metric threshold =>
      match context.metrics[metric]? with
      | none => .error (.missingMetric metric)
      | some value => .ok (decide (value ≥ threshold))
  | .metricBelow metric threshold =>
      match context.metrics[metric]? with
      | none => .error (.missingMetric metric)
      | some value => .ok (decide (value < threshold))
  | .modelScoreAtLeast model threshold =>
      match score model context.features with
      | .error e => .error e
      | .ok value => .ok (decide (value ≥ threshold))

def firstMatch (context : FlowContext) :
    List FlowTransition → Except FlowControlError (Option Uuid)
  | [] => .ok none
  | transition :: rest =>
      match evaluateCondition score context transition.condition with
      | .error e => .error e
      | .ok true => .ok (some transition.target)
      | .ok false => firstMatch context rest

def ensureStep (source target : Uuid) : Except FlowControlError Unit :=
  if g.steps.contains target then .ok () else .error (.transitionTargetNotFound source target)

/-- Going to `target` once it is known to be a step. -/
def goTo (source target : Uuid) : Except FlowControlError FlowAdvance :=
  match ensureStep g source target with
  | .error e => .error e
  | .ok () => .ok (.next target)

/-- What follows the check of the visit limit. -/
def evaluate (stepId : Uuid) (step : FlowStep) (context : FlowContext) :
    Except FlowControlError FlowAdvance :=
  match step.kind with
  | .terminal status => .ok (.terminal status)
  | _ =>
      match firstMatch score context step.transitions with
      | .error e => .error e
      | .ok (some target) => goTo g stepId target
      | .ok none =>
          match step.fallback with
          | some fallback => goTo g stepId fallback
          | none => .error (.noMatchingTransition stepId)

def advance (stepId : Uuid) (context : FlowContext) (state : FlowState) :
    Except FlowControlError FlowAdvance × FlowState :=
  match g.steps[stepId]? with
  | none => (.error (.stepNotFound stepId), state)
  | some step =>
      let (visitCount, state) := state.recordVisit stepId
      let answer :=
        match step.maxVisits with
        | none => evaluate score g stepId step context
        | some limit =>
            if visitCount > limit then
              match step.fallback with
              | none => .error (.maxVisitsExceeded stepId limit)
              | some fallback => goTo g stepId fallback
            else
              evaluate score g stepId step context
      (answer, state)

/-- A call of a run: it advances from the current step, goes on to the step that the
answer names and stays where it is if there is none. -/
def step (position : Uuid × FlowState) (context : FlowContext) :
    Except FlowControlError FlowAdvance × (Uuid × FlowState) :=
  let (answer, state) := advance score g position.1 context position.2
  match answer with
  | .ok (.next id) => (answer, (id, state))
  | _ => (answer, (position.1, state))

end

end FlowControlEngine

/-! ## What validation guarantees -/

def FlowControlError.isLookup : FlowControlError → Bool
  | stepNotFound _ | transitionTargetNotFound _ _ => true
  | _ => false

/-- The answer is not the error of a missing step. -/
def NoLookupError {α : Type} (answer : Except FlowControlError α) : Prop :=
  ∀ e, answer = .error e → e.isLookup = false

/-- A failed evaluation of a model is not reported as a missing step. -/
def ReportsNoLookup (score : ModelEvaluator) : Prop :=
  ∀ model features, NoLookupError (score model features)

section Validated

variable {score : ModelEvaluator} {g : FlowGraph}

theorem checkTarget_eq_ok {source target : Uuid} :
    g.checkTarget source target = .ok () ↔ g.steps.contains target = true := by
  unfold FlowGraph.checkTarget
  cases g.steps.contains target <;> simp

theorem contains_of_validate (hvalid : g.validate = .ok ()) {id : Uuid} {step : FlowStep}
    (hget : g.steps[id]? = some step) :
    (∀ transition ∈ step.transitions, g.steps.contains transition.target = true) ∧
      ∀ fallback, step.fallback = some fallback → g.steps.contains fallback = true := by
  have hstep : g.validateStep (id, step) = .ok () :=
    Checks.forM_eq_ok.mp hvalid (id, step) (Maps.mem_toList.mpr hget)
  unfold FlowGraph.validateStep at hstep
  split at hstep
  · cases hstep
  · next htransitions =>
      refine ⟨fun transition ht => ?_, fun fallback hfallback => ?_⟩
      · exact checkTarget_eq_ok.mp (Checks.forM_eq_ok.mp htransitions transition ht)
      · rw [hfallback] at hstep
        exact checkTarget_eq_ok.mp hstep

/-! ## One step -/

/-- The answer is no lookup error, and the step that it goes to is in the graph. -/
def Safe (g : FlowGraph) (answer : Except FlowControlError FlowAdvance) : Prop :=
  NoLookupError answer ∧ ∀ id, answer = .ok (.next id) → g.steps.contains id = true

theorem safe_error {e : FlowControlError} (h : e.isLookup = false) : Safe g (.error e) := by
  refine ⟨fun e' he => ?_, fun id hid => ?_⟩
  · obtain rfl := Except.error.inj he
    exact h
  · cases hid

theorem safe_goTo (source : Uuid) {target : Uuid} (h : g.steps.contains target = true) :
    Safe g (FlowControlEngine.goTo g source target) := by
  have hgo : FlowControlEngine.goTo g source target = .ok (.next target) := by
    rw [FlowControlEngine.goTo, FlowControlEngine.ensureStep, if_pos h]
  rw [hgo]
  refine ⟨fun e he => ?_, fun id hid => ?_⟩
  · cases he
  · cases hid
    exact h

theorem noLookupError_evaluateCondition (hscore : ReportsNoLookup score)
    (context : FlowContext) (condition : FlowCondition) :
    NoLookupError (FlowControlEngine.evaluateCondition score context condition) := by
  intro e he
  unfold FlowControlEngine.evaluateCondition at he
  cases condition with
  | always => cases he
  | metricAtLeast metric threshold =>
      dsimp only at he
      split at he
      · cases he
        rfl
      · cases he
  | metricBelow metric threshold =>
      dsimp only at he
      split at he
      · cases he
        rfl
      · cases he
  | modelScoreAtLeast model threshold =>
      dsimp only at he
      split at he
      · next e' hfail =>
          obtain rfl := Except.error.inj he
          exact hscore model context.features e' hfail
      · cases he

theorem firstMatch_spec (hscore : ReportsNoLookup score) (context : FlowContext)
    (transitions : List FlowTransition) :
    NoLookupError (FlowControlEngine.firstMatch score context transitions) ∧
      ∀ target, FlowControlEngine.firstMatch score context transitions = .ok (some target) →
        ∃ transition ∈ transitions, transition.target = target := by
  induction transitions with
  | nil =>
      refine ⟨fun e he => ?_, fun target h => ?_⟩
      · cases he
      · cases h
  | cons transition transitions ih =>
      unfold FlowControlEngine.firstMatch
      have hcondition := noLookupError_evaluateCondition hscore context transition.condition
      cases hresult : FlowControlEngine.evaluateCondition score context transition.condition with
      | error e =>
          rw [hresult] at hcondition
          refine ⟨fun e' he => ?_, fun target h => ?_⟩
          · obtain rfl := Except.error.inj he
            exact hcondition e rfl
          · cases h
      | ok matched =>
          cases matched with
          | true =>
              refine ⟨fun e he => ?_, fun target h => ?_⟩
              · cases he
              · cases h
                exact ⟨transition, List.mem_cons_self, rfl⟩
          | false =>
              refine ⟨ih.1, fun target h => ?_⟩
              obtain ⟨other, hmem, htarget⟩ := ih.2 target h
              exact ⟨other, List.mem_cons_of_mem _ hmem, htarget⟩

theorem safe_evaluate (hscore : ReportsNoLookup score) (hvalid : g.validate = .ok ())
    {stepId : Uuid} {step : FlowStep} (hget : g.steps[stepId]? = some step)
    (context : FlowContext) :
    Safe g (FlowControlEngine.evaluate score g stepId step context) := by
  obtain ⟨htransitions, hfallback⟩ := contains_of_validate hvalid hget
  obtain ⟨hnolookup, htarget⟩ := firstMatch_spec hscore context step.transitions
  unfold FlowControlEngine.evaluate
  split
  · refine ⟨fun e he => ?_, fun id hid => ?_⟩
    · cases he
    · cases hid
  · split
    · next e hfail => exact safe_error (hnolookup e hfail)
    · next target hmatch =>
        obtain ⟨transition, hmem, rfl⟩ := htarget target hmatch
        exact safe_goTo stepId (htransitions transition hmem)
    · split
      · next fallback hfall => exact safe_goTo stepId (hfallback fallback hfall)
      · exact safe_error rfl

theorem safe_advance (hscore : ReportsNoLookup score) (hvalid : g.validate = .ok ())
    {stepId : Uuid} (hstep : g.steps.contains stepId = true) (context : FlowContext)
    (state : FlowState) :
    Safe g (FlowControlEngine.advance score g stepId context state).1 := by
  rw [Std.ExtTreeMap.contains_eq_isSome_getElem?, Option.isSome_iff_exists] at hstep
  obtain ⟨step, hget⟩ := hstep
  have hevaluate := safe_evaluate hscore hvalid hget context
  unfold FlowControlEngine.advance
  rw [hget]
  dsimp only
  split
  · exact hevaluate
  · split
    · split
      · exact safe_error rfl
      · next fallback hfall =>
          exact safe_goTo stepId ((contains_of_validate hvalid hget).2 fallback hfall)
    · exact hevaluate

theorem step_spec (hscore : ReportsNoLookup score) (hvalid : g.validate = .ok ())
    {position : Uuid × FlowState} (hposition : g.steps.contains position.1 = true)
    (context : FlowContext) :
    NoLookupError (FlowControlEngine.step score g position context).1 ∧
      g.steps.contains (FlowControlEngine.step score g position context).2.1 = true := by
  obtain ⟨hnolookup, hnext⟩ := safe_advance hscore hvalid hposition context position.2
  unfold FlowControlEngine.step
  dsimp only
  split
  · next id hid =>
      rw [hid]
      exact ⟨hid ▸ hnolookup, hnext id hid⟩
  · exact ⟨hnolookup, hposition⟩

/-! ## Runs -/

theorem noLookupError_run (hscore : ReportsNoLookup score) (hvalid : g.validate = .ok ())
    {position : Uuid × FlowState} (hposition : g.steps.contains position.1 = true)
    (contexts : List FlowContext) :
    ∀ call ∈ trace (FlowControlEngine.step score g) position contexts,
      NoLookupError call.2 :=
  forall_trace (fun position => g.steps.contains position.1 = true)
    (Q := fun _ answer => NoLookupError answer)
    (fun _ context hposition => step_spec hscore hvalid hposition context) contexts hposition

end Validated

/-- On a validated graph no run from the entrypoint meets a missing step exactly if the
entrypoint is a step of the graph. -/
theorem validated_runs_iff (score : ModelEvaluator) (hscore : ReportsNoLookup score)
    (g : FlowGraph) (hvalid : g.validate = .ok ()) :
    (∀ contexts, ∀ call ∈ trace (FlowControlEngine.step score g) (g.entrypoint, .new) contexts,
        NoLookupError call.2) ↔
      g.steps.contains g.entrypoint = true := by
  constructor
  · intro h
    by_contra hmissing
    have hget : g.steps[g.entrypoint]? = none := by
      rw [Std.ExtTreeMap.contains_eq_isSome_getElem?] at hmissing
      simpa using hmissing
    have hfirst := h [.new] _ List.mem_cons_self
    have hanswer : (FlowControlEngine.step score g (g.entrypoint, .new) .new).1 =
        .error (.stepNotFound g.entrypoint) := by
      unfold FlowControlEngine.step FlowControlEngine.advance
      rw [hget]
    cases hfirst _ hanswer
  · intro hentry contexts
    exact noLookupError_run hscore hvalid hentry contexts

/-- A scorer that knows no model. -/
def noModels : ModelEvaluator :=
  fun model _ => .error (.modelEvaluationFailed model "model not found")

/-- A step that is repeated once and then left through its fallback. -/
def waitStep : FlowStep :=
  { id := 1, name := "wait", kind := .task 5,
    transitions := [{ label := "again", condition := .always, target := 1 }],
    fallback := some 2, maxVisits := some 1 }

def reviewStep : FlowStep :=
  { id := 2, name := "review", kind := .decision "good enough",
    transitions :=
      [{ label := "risky", condition := .modelScoreAtLeast "risk" 0.5, target := 1 },
       { label := "untested", condition := .metricBelow "coverage" 80, target := 1 }],
    fallback := some 3, maxVisits := some 10 }

def terminalStep : FlowStep :=
  { id := 3, name := "done", kind := .terminal .completed, transitions := [],
    fallback := none, maxVisits := none }

def reviewFlow : FlowGraph :=
  ((FlowGraph.new 9 "flow" waitStep).insertStep reviewStep).insertStep terminalStep

/-- A scorer that needs features. -/
def riskModel : ModelEvaluator
  | model, .null => .error (.modelEvaluationFailed model "no features")
  | _, _ => .ok 0.25

theorem reportsNoLookup_riskModel : ReportsNoLookup riskModel := by
  intro model features e he
  cases features with
  | null =>
      cases he
      rfl
  | _ => cases he

/-- The inputs of the calls: a model and a metric are asked for from the fourth on. -/
def reviewContexts : List FlowContext :=
  [.new, .new, .new, { metrics := ∅, features := .bool true },
   { metrics := Std.ExtTreeMap.empty.insert "coverage" 60, features := .bool true }, .new, .new]

/-- A transition, a fallback after the visit limit and a model that fails, and then calls whose
way depends on the score and the metric. -/
theorem validated_runs_iff_review :
    (trace (FlowControlEngine.step riskModel reviewFlow) (1, .new)
        (reviewContexts.take 3)).map Prod.snd =
      [.ok (.next 1), .ok (.next 2), .error (.modelEvaluationFailed "risk" "no features")] ∧
      ∀ call ∈ trace (FlowControlEngine.step riskModel reviewFlow) (1, .new) reviewContexts,
        NoLookupError call.2 := by
  have hvalid : reviewFlow.validate = .ok () := rfl
  exact ⟨rfl, (validated_runs_iff riskModel reportsNoLookup_riskModel _ hvalid).mpr rfl _⟩

def headless : FlowGraph :=
  { id := 9, name := "flow", entrypoint := 1, steps := ∅ }

theorem headless_accepted :
    ¬ (headless.validate = .ok () →
      ∀ call ∈ trace (FlowControlEngine.step noModels headless) (headless.entrypoint, .new)
        [.new], NoLookupError call.2) := by
  intro h
  have hfirst := h (by decide) _ List.mem_cons_self
  cases hfirst (.stepNotFound 1) rfl

end Flow

end InfinityOS
