import InfinityOS.Flow.Control

/-!
# Visits

`advance` counts a visit as soon as it has found the step, whatever it answers afterwards.
Once the count is above the limit of the step it goes to the fallback without a look at the
transitions, so a limit of `L` admits at most `L` exits through a transition. Which way a
call takes is told by the entry that it logs.
-/

namespace InfinityOS

namespace Flow

open Transition

/-- `FlowState::visits`. -/
def FlowState.visitsOf (state : FlowState) (stepId : Uuid) : UInt32 :=
  state.visits[stepId]?.getD 0

/-- What `log_evaluated` is told about a call. -/
structure Evaluated where
  stepId : Uuid
  decision : String
  matched : Bool
  target : Option Uuid
  deriving DecidableEq

namespace FlowControlEngine

section

variable (score : ModelEvaluator) (g : FlowGraph)

/-- `firstMatch` with the transition itself, whose label is logged. -/
def firstMatching (context : FlowContext) :
    List FlowTransition → Except FlowControlError (Option FlowTransition)
  | [] => .ok none
  | transition :: rest =>
      match evaluateCondition score context transition.condition with
      | .error e => .error e
      | .ok true => .ok (some transition)
      | .ok false => firstMatching context rest

/-- Going to `target`, and the entry about it. -/
def goToLogged (source target : Uuid) (decision : String) (matched : Bool) :
    Except FlowControlError (FlowAdvance × Evaluated) :=
  match ensureStep g source target with
  | .error e => .error e
  | .ok () => .ok (.next target, { stepId := source, decision, matched, target := some target })

/-- `evaluate` with the entry that the call logs. -/
def evaluateLogged (stepId : Uuid) (step : FlowStep) (context : FlowContext) :
    Except FlowControlError (FlowAdvance × Evaluated) :=
  match step.kind with
  | .terminal status =>
      .ok (.terminal status, { stepId, decision := "terminal", matched := true, target := none })
  | _ =>
      match firstMatching score context step.transitions with
      | .error e => .error e
      | .ok (some transition) =>
          goToLogged g stepId transition.target transition.label true
      | .ok none =>
          match step.fallback with
          | some fallback => goToLogged g stepId fallback "fallback" false
          | none => .error (.noMatchingTransition stepId)

/-- The answer above the limit. -/
def exceeded (stepId : Uuid) (step : FlowStep) (limit : UInt32) :
    Except FlowControlError (FlowAdvance × Evaluated) :=
  match step.fallback with
  | none => .error (.maxVisitsExceeded stepId limit)
  | some fallback => goToLogged g stepId fallback "max_visits_exceeded" false

/-- `advance` with the entry that the call logs. -/
def advanceLogged (stepId : Uuid) (context : FlowContext) (state : FlowState) :
    Except FlowControlError (FlowAdvance × Evaluated) × FlowState :=
  match g.steps[stepId]? with
  | none => (.error (.stepNotFound stepId), state)
  | some step =>
      let (visitCount, state) := state.recordVisit stepId
      let answer :=
        match step.maxVisits with
        | none => evaluateLogged score g stepId step context
        | some limit =>
            if visitCount > limit then exceeded g stepId step limit
            else evaluateLogged score g stepId step context
      (answer, state)

/-- `step` with the entry that the call logs. -/
def stepLogged (position : Uuid × FlowState) (context : FlowContext) :
    Except FlowControlError (FlowAdvance × Evaluated) × (Uuid × FlowState) :=
  let (answer, state) := advanceLogged score g position.1 context position.2
  match answer with
  | .ok (.next id, _) => (answer, (id, state))
  | _ => (answer, (position.1, state))

end

/-! ## The entry does not change the answer -/

section

variable {score : ModelEvaluator} {g : FlowGraph}

theorem firstMatch_eq (context : FlowContext) (transitions : List FlowTransition) :
    firstMatch score context transitions =
      (firstMatching score context transitions).map fun t => t.map FlowTransition.target := by
  induction transitions with
  | nil => rfl
  | cons transition rest ih =>
      unfold firstMatch firstMatching
      cases evaluateCondition score context transition.condition with
      | error e => rfl
      | ok matched =>
          cases matched with
          | true => rfl
          | false => exact ih

theorem goTo_eq (source target : Uuid) (decision : String) (matched : Bool) :
    goTo g source target = (goToLogged g source target decision matched).map Prod.fst := by
  unfold goTo goToLogged
  cases ensureStep g source target <;> rfl

theorem evaluate_eq (stepId : Uuid) (step : FlowStep) (context : FlowContext) :
    evaluate score g stepId step context =
      (evaluateLogged score g stepId step context).map Prod.fst := by
  unfold evaluate evaluateLogged
  cases step.kind with
  | terminal status => rfl
  | _ =>
      dsimp only
      rw [firstMatch_eq]
      cases firstMatching score context step.transitions with
      | error e => rfl
      | ok matched =>
          cases matched with
          | some transition => exact goTo_eq _ _ _ _
          | none =>
              cases step.fallback with
              | none => rfl
              | some fallback => exact goTo_eq _ _ _ _

theorem advance_eq (stepId : Uuid) (context : FlowContext) (state : FlowState) :
    advance score g stepId context state =
      ((advanceLogged score g stepId context state).1.map Prod.fst,
        (advanceLogged score g stepId context state).2) := by
  unfold advance advanceLogged
  cases g.steps[stepId]? with
  | none => rfl
  | some step =>
      dsimp only
      cases step.maxVisits with
      | none => rw [evaluate_eq]
      | some limit =>
          dsimp only
          split
          · unfold exceeded
            cases step.fallback with
            | none => rfl
            | some fallback =>
                dsimp only
                rw [goTo_eq _ _ "max_visits_exceeded" false]
          · rw [evaluate_eq]

end

end FlowControlEngine

/-! ## One call -/

section Call

variable (score : ModelEvaluator) (g : FlowGraph)

theorem visitsOf_recordVisit (state : FlowState) (stepId id : Uuid) :
    (state.recordVisit stepId).2.visitsOf id =
      if id = stepId then state.visitsOf stepId + 1 else state.visitsOf id := by
  unfold FlowState.visitsOf FlowState.recordVisit
  rw [Maps.getElem?_insert_ite]
  split <;> rfl

theorem visitsOf_advanceLogged (stepId : Uuid) (context : FlowContext) (state : FlowState)
    (id : Uuid) :
    (FlowControlEngine.advanceLogged score g stepId context state).2.visitsOf id =
      if id = stepId ∧ g.steps.contains stepId = true then state.visitsOf id + 1
      else state.visitsOf id := by
  unfold FlowControlEngine.advanceLogged
  rw [Std.ExtTreeMap.contains_eq_isSome_getElem?]
  cases g.steps[stepId]? with
  | none => simp
  | some step =>
      dsimp only
      rw [visitsOf_recordVisit]
      by_cases h : id = stepId
      · simp [h]
      · simp [h]

/-- A call changes no count but that of its step, which it raises by one exactly if the step
is in the graph; whether the call fails makes no difference. -/
theorem advance_visits (stepId : Uuid) (context : FlowContext) (state : FlowState) (id : Uuid) :
    (FlowControlEngine.advance score g stepId context state).2.visitsOf id =
      if id = stepId ∧ g.steps.contains stepId = true then state.visitsOf id + 1
      else state.visitsOf id := by
  rw [FlowControlEngine.advance_eq]
  exact visitsOf_advanceLogged score g stepId context state id

end Call

def latencyStep : FlowStep :=
  { id := 1, name := "check", kind := .decision "latency",
    transitions := [{ label := "slow", condition := .metricAtLeast "latency" 200, target := 1 }],
    fallback := none, maxVisits := some 1 }

/-- A metric is missing, and the visit is counted. -/
theorem failed_advance_changes_state :
    ¬ ((FlowControlEngine.advance noModels (.new 9 "flow" latencyStep) 1 .new .new).1 =
        .error (.missingMetric "latency") →
      ∀ id, (FlowControlEngine.advance noModels (.new 9 "flow" latencyStep) 1 .new .new).2.visitsOf
        id = FlowState.new.visitsOf id) := by
  intro h
  have hone := h rfl 1
  revert hone
  decide

/-! ## Runs -/

/-- The call is made at the step `id`. -/
def isVisit (id : Uuid) (position : Uuid × FlowState) (_ : FlowContext)
    (_ : Except FlowControlError (FlowAdvance × Evaluated)) (_ : Uuid × FlowState) : Bool :=
  decide (position.1 = id)

/-- The call leaves the step `id` through one of its transitions. -/
def leavesByTransition (id : Uuid) (position : Uuid × FlowState) (_ : FlowContext)
    (answer : Except FlowControlError (FlowAdvance × Evaluated)) (_ : Uuid × FlowState) : Bool :=
  match answer with
  | .ok (.next _, entry) => decide (position.1 = id) && entry.matched
  | _ => false

section Run

variable {score : ModelEvaluator} {g : FlowGraph} {id : Uuid} {flowStep : FlowStep}

theorem stepLogged_fst (position : Uuid × FlowState) (context : FlowContext) :
    (FlowControlEngine.stepLogged score g position context).1 =
      (FlowControlEngine.advanceLogged score g position.1 context position.2).1 := by
  unfold FlowControlEngine.stepLogged
  dsimp only
  split <;> rfl

theorem stepLogged_state (position : Uuid × FlowState) (context : FlowContext) :
    (FlowControlEngine.stepLogged score g position context).2.2 =
      (FlowControlEngine.advanceLogged score g position.1 context position.2).2 := by
  unfold FlowControlEngine.stepLogged
  dsimp only
  split <;> rfl

theorem visitsOf_step (score : ModelEvaluator) (hget : g.steps[id]? = some flowStep)
    {position : Uuid × FlowState} {n : ℕ} (hcount : position.2.visitsOf id = UInt32.ofNat n)
    (context : FlowContext) :
    (FlowControlEngine.stepLogged score g position context).2.2.visitsOf id =
      UInt32.ofNat (n + (isVisit id position context
        (FlowControlEngine.stepLogged score g position context).1
        (FlowControlEngine.stepLogged score g position context).2).toNat) := by
  have hcontains : g.steps.contains id = true := by
    rw [Std.ExtTreeMap.contains_eq_isSome_getElem?, hget]
    rfl
  rw [stepLogged_state, visitsOf_advanceLogged, isVisit]
  by_cases h : position.1 = id
  · rw [if_pos ⟨h.symm, h ▸ hcontains⟩, hcount, decide_eq_true h, Bool.toNat_true,
      UInt32.ofNat_add]
    rfl
  · rw [if_neg fun hboth => h hboth.1.symm, hcount, decide_eq_false h, Bool.toNat_false,
      Nat.add_zero]

theorem visitsOf_run (score : ModelEvaluator) (hget : g.steps[id]? = some flowStep) (start : Uuid)
    (contexts : List FlowContext) :
    (final (FlowControlEngine.stepLogged score g) (start, FlowState.new) contexts).2.visitsOf id =
      UInt32.ofNat (tally (isVisit id) (FlowControlEngine.stepLogged score g)
        (start, FlowState.new) contexts) := by
  have hevery : Along (fun _ _ => True) (FlowControlEngine.stepLogged score g)
      (start, FlowState.new) contexts := along_of_forall (fun _ _ _ => trivial) _
  have hrun : (final (FlowControlEngine.stepLogged score g) (start, FlowState.new)
      contexts).2.visitsOf id = UInt32.ofNat (0 + tally (isVisit id)
        (FlowControlEngine.stepLogged score g) (start, FlowState.new) contexts) :=
    invariant_tally
      (fun (position : Uuid × FlowState) n => position.2.visitsOf id = UInt32.ofNat n)
      (fun _ _ context hcount _ => visitsOf_step score hget hcount context) rfl hevery
  rwa [Nat.zero_add] at hrun

/-! ## The limit -/

variable {limit : UInt32}

theorem advanceLogged_exceeded (hget : g.steps[id]? = some flowStep)
    (hlimit : flowStep.maxVisits = some limit) {state : FlowState} {n : ℕ}
    (hcount : state.visitsOf id = UInt32.ofNat n) (hn : n + 1 < 2 ^ 32) (hover : limit.toNat ≤ n)
    (context : FlowContext) :
    (FlowControlEngine.advanceLogged score g id context state).1 =
      FlowControlEngine.exceeded g id flowStep limit := by
  have hgt : state.visitsOf id + 1 > limit := by
    rw [hcount, gt_iff_lt, UInt32.lt_iff_toNat_lt, UInt32.toNat_add, UInt32.toNat_ofNat']
    have hone : (1 : UInt32).toNat = 1 := rfl
    omega
  unfold FlowControlEngine.advanceLogged
  rw [hget]
  dsimp only
  rw [hlimit]
  exact if_pos hgt

theorem exceeded_not_matched {answer : FlowAdvance × Evaluated}
    (h : FlowControlEngine.exceeded g id flowStep limit = .ok answer) :
    answer.2.matched = false := by
  unfold FlowControlEngine.exceeded at h
  split at h
  · cases h
  · unfold FlowControlEngine.goToLogged at h
    split at h
    · cases h
    · cases h
      rfl

theorem at_of_leaves {position next : Uuid × FlowState} {context : FlowContext}
    {answer : Except FlowControlError (FlowAdvance × Evaluated)}
    (hleaves : leavesByTransition id position context answer next = true) :
    position.1 = id ∧ ∃ out, answer = .ok out ∧ out.2.matched = true := by
  unfold leavesByTransition at hleaves
  split at hleaves
  · rw [Bool.and_eq_true, decide_eq_true_eq] at hleaves
    exact ⟨hleaves.1, _, rfl, hleaves.2⟩
  · cases hleaves

theorem lt_limit_of_leaves (hget : g.steps[id]? = some flowStep)
    (hlimit : flowStep.maxVisits = some limit) {position : Uuid × FlowState} {n : ℕ}
    (hcount : position.2.visitsOf id = UInt32.ofNat n) (hn : n + 1 < 2 ^ 32)
    {context : FlowContext} {next : Uuid × FlowState}
    (hleaves : leavesByTransition id position context
      (FlowControlEngine.stepLogged score g position context).1 next = true) :
    n < limit.toNat := by
  obtain ⟨hat, out, hanswer, hmatched⟩ := at_of_leaves hleaves
  by_contra hover
  rw [stepLogged_fst, hat, advanceLogged_exceeded hget hlimit hcount hn (Nat.not_lt.mp hover)]
    at hanswer
  rw [exceeded_not_matched hanswer] at hmatched
  cases hmatched

theorem tally_leaves_le (hget : g.steps[id]? = some flowStep)
    (hlimit : flowStep.maxVisits = some limit) (contexts : List FlowContext)
    {position : Uuid × FlowState} {n : ℕ} (hcount : position.2.visitsOf id = UInt32.ofNat n)
    (hfew : n + tally (isVisit id) (FlowControlEngine.stepLogged score g) position contexts <
      2 ^ 32) :
    tally (leavesByTransition id) (FlowControlEngine.stepLogged score g) position contexts ≤
      limit.toNat - n := by
  induction contexts generalizing position n with
  | nil => exact Nat.zero_le _
  | cons context contexts ih =>
      have hnext := visitsOf_step score hget hcount context
      rw [tally, ← Nat.add_assoc] at hfew
      rw [tally]
      have hrest := ih hnext hfew
      cases hleaves : leavesByTransition id position context
          (FlowControlEngine.stepLogged score g position context).1
          (FlowControlEngine.stepLogged score g position context).2 with
      | false =>
          rw [Bool.toNat_false]
          omega
      | true =>
          have hvisit : (isVisit id position context
              (FlowControlEngine.stepLogged score g position context).1
              (FlowControlEngine.stepLogged score g position context).2).toNat = 1 := by
            rw [isVisit, decide_eq_true (at_of_leaves hleaves).1, Bool.toNat_true]
          rw [hvisit] at hfew hrest
          have hlt := lt_limit_of_leaves hget hlimit hcount (by omega) hleaves
          rw [Bool.toNat_true]
          omega

end Run

/-- In a run with fewer than `2 ^ 32` visits of a step with a limit, at most `limit` calls
leave it through a transition, and every visit after the first `limit` goes to its fallback
or answers that the limit is exceeded, unless the fallback is not in the graph. -/
theorem visit_limit (score : ModelEvaluator) (g : FlowGraph) (start : Uuid)
    (contexts : List FlowContext) {id : Uuid} {flowStep : FlowStep} {limit : UInt32}
    (hget : g.steps[id]? = some flowStep) (hlimit : flowStep.maxVisits = some limit)
    (hfew : tally (isVisit id) (FlowControlEngine.stepLogged score g) (start, FlowState.new)
      contexts < 2 ^ 32) :
    tally (leavesByTransition id) (FlowControlEngine.stepLogged score g) (start, FlowState.new)
        contexts ≤ limit.toNat ∧
      ∀ earlier context later, contexts = earlier ++ context :: later →
        let position :=
          final (FlowControlEngine.stepLogged score g) (start, FlowState.new) earlier
        position.1 = id →
        limit.toNat ≤ tally (isVisit id) (FlowControlEngine.stepLogged score g)
          (start, FlowState.new) earlier →
        (FlowControlEngine.advance score g id context position.2).1 =
          match flowStep.fallback with
          | none => .error (.maxVisitsExceeded id limit)
          | some fallback =>
              if g.steps.contains fallback then .ok (.next fallback)
              else .error (.transitionTargetNotFound id fallback) := by
  refine ⟨tally_leaves_le hget hlimit contexts rfl (by rwa [Nat.zero_add]), ?_⟩
  intro earlier context later hsplit position hat hover
  have hcount := visitsOf_run score hget start earlier
  rw [hsplit, tally_append, tally, isVisit, decide_eq_true hat, Bool.toNat_true] at hfew
  rw [FlowControlEngine.advance_eq,
    advanceLogged_exceeded hget hlimit hcount (by omega) hover, FlowControlEngine.exceeded]
  cases flowStep.fallback with
  | none => rfl
  | some fallback =>
      dsimp only
      rw [← FlowControlEngine.goTo_eq, FlowControlEngine.goTo, FlowControlEngine.ensureStep]
      cases g.steps.contains fallback <;> rfl

/-- A step that goes to itself, once. -/
def pollStep : FlowStep :=
  { id := 1, name := "poll", kind := .decision "again",
    transitions := [{ label := "again", condition := .always, target := 1 }],
    fallback := none, maxVisits := some 1 }

theorem visit_limit_poll :
    tally (leavesByTransition 1) (FlowControlEngine.stepLogged noModels (.new 9 "flow" pollStep))
      (1, FlowState.new) [.new, .new, .new] ≤ 1 :=
  (@visit_limit noModels (.new 9 "flow" pollStep) 1 [.new, .new, .new] 1 pollStep 1 rfl rfl
    (by decide)).1

def strandedStep : FlowStep :=
  { pollStep with fallback := some 2, maxVisits := some 0 }

/-- The first visit is above the limit of zero, and neither goes to the fallback nor answers
that the limit is exceeded. -/
theorem stranded_visit :
    ¬ ((FlowControlEngine.advance noModels (.new 9 "flow" strandedStep) 1 .new .new).1 =
        .ok (.next 2) ∨
      (FlowControlEngine.advance noModels (.new 9 "flow" strandedStep) 1 .new .new).1 =
        .error (.maxVisitsExceeded 1 0)) := by
  have hanswer : (FlowControlEngine.advance noModels (.new 9 "flow" strandedStep) 1 .new .new).1 =
      .error (.transitionTargetNotFound 1 2) := rfl
  rw [hanswer]
  rintro (h | h)
  · cases h
  · cases h

end Flow

end InfinityOS
