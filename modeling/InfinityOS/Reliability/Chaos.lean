import InfinityOS.Core.Maps
import InfinityOS.Core.Types
import InfinityOS.Transition.Run

/-!
# Chaos scenarios

An engine of faults: each evaluation of an operation takes the first active scenario whose target
is a prefix of the operation, counts it, and asks its policy. The scenarios are in a hash map, so
which one is the first depends on the order in which this run visits them. Where no evaluation
finds two scenarios to choose from, all runs are the same.

The comparison of a random number with a probability, both `f64`, is a parameter. The order in
which an evaluation visits the scenarios is part of the run.
-/

namespace InfinityOS

namespace Reliability

open Transition

inductive ChaosError where
  | duplicate (id : String)
  | notFound (id : String)
  deriving DecidableEq

inductive FaultKind where
  | taskFailure (reason : String)
  | latencyMs (ms : UInt64)
  | replicaCrash (replicaId : String)
  | networkPartition (dropPercent : UInt8)
  | resourceExhausted
  deriving DecidableEq

inductive ChaosPolicy (F : Type) where
  | always
  | once
  | random (probability : F)
  | afterN (afterCalls : UInt32)

structure ChaosScenario (F : Type) where
  id : String
  target : String
  fault : FaultKind
  policy : ChaosPolicy F
  active : Bool
  triggerCount : UInt32

inductive ChaosDecision where
  | proceed
  | inject (fault : FaultKind)
  deriving DecidableEq

structure ChaosEngine (F : Type) where
  scenarios : HashMap String (ChaosScenario F)
  callCounter : UInt64
  seed : UInt64

variable {F : Type} (below : UInt32 → F → Bool)

namespace ChaosScenario

def new (id target : String) (fault : FaultKind) (policy : ChaosPolicy F) : ChaosScenario F :=
  { id, target, fault, policy, active := true, triggerCount := 0 }

def applies (s : ChaosScenario F) (operation : String) : Bool :=
  s.active && s.target.toList.isPrefixOf operation.toList

/-- The low half of the hash of the seed and the counter. -/
def randomBits (seed counter : UInt64) : UInt32 :=
  (((seed + counter) * (0x9e3779b97f4a7c15 : UInt64)) ^^^ (counter >>> 17)).toUInt32

/-- Whether the policy injects the fault at the trigger that has just been counted; `below`
compares the random bits, as a fraction, with a probability. -/
def fires (s : ChaosScenario F) (seed counter : UInt64) : Bool :=
  match s.policy with
  | .always => true
  | .once => s.triggerCount == 1
  | .random probability => below (randomBits seed counter) probability
  | .afterN afterCalls => decide (s.triggerCount > afterCalls)

def counted (s : ChaosScenario F) : ChaosScenario F :=
  { s with triggerCount := s.triggerCount + 1 }

/-- A scenario for one fault is switched off by it. -/
def afterTrigger (s : ChaosScenario F) : ChaosScenario F :=
  match s.policy with
  | .once => if s.triggerCount == 1 then { s with active := false } else s
  | _ => s

end ChaosScenario

abbrev ScenarioOrder (F : Type) :=
  ∀ scenarios : HashMap String (ChaosScenario F), Maps.Enumeration scenarios

namespace ChaosEngine

def new (seed : UInt64) : ChaosEngine F :=
  { scenarios := ∅, callCounter := 0, seed }

def register (e : ChaosEngine F) (scenario : ChaosScenario F) :
    Except ChaosError Unit × ChaosEngine F :=
  if e.scenarios.contains scenario.id then (.error (.duplicate scenario.id), e)
  else (.ok (), { e with scenarios := e.scenarios.insert scenario.id scenario })

def deactivate (e : ChaosEngine F) (id : String) : Except ChaosError Unit × ChaosEngine F :=
  match e.scenarios[id]? with
  | none => (.error (.notFound id), e)
  | some scenario =>
      (.ok (), { e with scenarios := e.scenarios.insert id { scenario with active := false } })

def firstMatch (e : ChaosEngine F) (operation : String) (order : ScenarioOrder F) :
    Option (String × ChaosScenario F) :=
  (order e.scenarios).entries.find? fun entry => entry.2.applies operation

def evaluate (e : ChaosEngine F) (operation : String) (order : ScenarioOrder F) :
    ChaosDecision × ChaosEngine F :=
  let counter := e.callCounter + 1
  match e.firstMatch operation order with
  | none => (.proceed, { e with callCounter := counter })
  | some (id, scenario) =>
      let scenario := scenario.counted
      (if scenario.fires below e.seed counter then .inject scenario.fault else .proceed,
        { e with
          callCounter := counter
          scenarios := e.scenarios.insert id scenario.afterTrigger })

end ChaosEngine

inductive ChaosCall (F : Type) where
  | register (scenario : ChaosScenario F)
  | deactivate (id : String)
  | evaluate (operation : String)

inductive ChaosAnswer where
  | done (result : Except ChaosError Unit)
  | decided (decision : ChaosDecision)
  deriving DecidableEq

def chaosStep (e : ChaosEngine F) :
    ChaosCall F × ScenarioOrder F → ChaosAnswer × ChaosEngine F
  | (.register scenario, _) => (.done (e.register scenario).1, (e.register scenario).2)
  | (.deactivate id, _) => (.done (e.deactivate id).1, (e.deactivate id).2)
  | (.evaluate operation, order) =>
      (.decided (e.evaluate below operation order).1, (e.evaluate below operation order).2)

def chaosAnswers (seed : UInt64) (run : List (ChaosCall F × ScenarioOrder F)) :
    List ChaosAnswer :=
  (trace (chaosStep below) (.new seed) run).map Prod.snd

/-- An evaluation does not find two scenarios to choose from. -/
def Unambiguous (e : ChaosEngine F) : ChaosCall F × ScenarioOrder F → Prop
  | (.evaluate operation, _) => ∀ (id id' : String) (s s' : ChaosScenario F),
      e.scenarios[id]? = some s → e.scenarios[id']? = some s' →
        s.applies operation → s'.applies operation → id = id'
  | _ => True

/-- All runs of the calls give the same answers and leave the same scenarios. -/
def Reproducible (seed : UInt64) (calls : List (ChaosCall F)) : Prop :=
  ∀ run run', run.map Prod.fst = calls → run'.map Prod.fst = calls →
    chaosAnswers below seed run = chaosAnswers below seed run' ∧
      final (chaosStep below) (.new seed) run = final (chaosStep below) (.new seed) run'

variable {below} {e : ChaosEngine F} {operation : String}

/-! ## One call -/

theorem unambiguous_of {x : ChaosCall F × ScenarioOrder F}
    (h : ∀ operation, x.1 = .evaluate operation → ∀ (id id' : String) (s s' : ChaosScenario F),
      e.scenarios[id]? = some s → e.scenarios[id']? = some s' →
        s.applies operation → s'.applies operation → id = id') : Unambiguous e x := by
  obtain ⟨call, order⟩ := x
  cases call with
  | register scenario => trivial
  | deactivate id => trivial
  | evaluate operation => exact h operation rfl

/-- Without a choice the order does not matter. -/
theorem Unambiguous.chaosStep_eq {call : ChaosCall F} {order : ScenarioOrder F}
    (h : Unambiguous e (call, order)) (order' : ScenarioOrder F) :
    chaosStep below e (call, order) = chaosStep below e (call, order') := by
  cases call with
  | register scenario => rfl
  | deactivate id => rfl
  | evaluate operation =>
      have hfirst : e.firstMatch operation order = e.firstMatch operation order' :=
        (order e.scenarios).find?_eq (order' e.scenarios) h
      rw [chaosStep, chaosStep, ChaosEngine.evaluate, ChaosEngine.evaluate, hfirst]

def scenarioFirst (id : String) : ScenarioOrder F :=
  fun scenarios => Maps.Enumeration.startingAt scenarios id

theorem scenarios_evaluate_first {id : String} {s : ChaosScenario F}
    (hget : e.scenarios[id]? = some s) (happlies : s.applies operation) :
    (e.evaluate below operation (scenarioFirst id)).2.scenarios =
      e.scenarios.insert id s.counted.afterTrigger := by
  have hfirst : e.firstMatch operation (scenarioFirst id) = some (id, s) :=
    Maps.Enumeration.find?_startingAt hget happlies
  rw [ChaosEngine.evaluate, hfirst]

theorem triggerCount_afterTrigger (s : ChaosScenario F) :
    s.afterTrigger.triggerCount = s.triggerCount := by
  rw [ChaosScenario.afterTrigger]
  split
  · split <;> rfl
  · rfl

theorem evaluate_ne {id id' : String} {s s' : ChaosScenario F} (hne : id ≠ id')
    (hget : e.scenarios[id]? = some s) (hget' : e.scenarios[id']? = some s')
    (happlies : s.applies operation) (happlies' : s'.applies operation) :
    (e.evaluate below operation (scenarioFirst id)).2 ≠
      (e.evaluate below operation (scenarioFirst id')).2 := by
  intro hsame
  have hscenarios := congrArg (fun e => (ChaosEngine.scenarios e)[id]?) hsame
  simp only [scenarios_evaluate_first hget happlies, scenarios_evaluate_first hget' happlies',
    Maps.getElem?_insert_ite, if_true, if_neg hne, hget] at hscenarios
  have hcount := congrArg ChaosScenario.triggerCount (Option.some.inj hscenarios)
  rw [triggerCount_afterTrigger] at hcount
  change s.triggerCount + 1 = s.triggerCount at hcount
  simp at hcount

/-! ## Runs -/

theorem run_eq_of_along {run run' : List (ChaosCall F × ScenarioOrder F)}
    (h : Along Unambiguous (chaosStep below) e run)
    (hcalls : run.map Prod.fst = run'.map Prod.fst) :
    (trace (chaosStep below) e run).map Prod.snd =
        (trace (chaosStep below) e run').map Prod.snd ∧
      final (chaosStep below) e run = final (chaosStep below) e run' := by
  induction run generalizing e run' with
  | nil =>
      obtain rfl : run' = [] := List.map_eq_nil_iff.mp hcalls.symm
      exact ⟨rfl, rfl⟩
  | cons x run ih =>
      cases run' with
      | nil => cases hcalls
      | cons x' run' =>
          obtain ⟨call, order⟩ := x
          obtain ⟨call', order'⟩ := x'
          obtain ⟨rfl, hrest⟩ := List.cons.inj hcalls
          obtain ⟨hanswers, hfinal⟩ := ih h.2 hrest
          rw [h.1.chaosStep_eq order'] at hanswers hfinal
          rw [trace_cons, trace_cons, List.map_cons, List.map_cons, final_cons, final_cons,
            h.1.chaosStep_eq order', hanswers, hfinal]
          exact ⟨rfl, rfl⟩

def runFirst (id : String) (calls : List (ChaosCall F)) :
    List (ChaosCall F × ScenarioOrder F) :=
  calls.map fun call => (call, scenarioFirst id)

theorem map_fst_runFirst (id : String) (calls : List (ChaosCall F)) :
    (runFirst id calls).map Prod.fst = calls := by
  rw [runFirst, List.map_map]
  exact List.map_id calls

/-- A run in which no evaluation finds two scenarios to choose from gives the same decisions as
every other run of its calls. No run of the calls finds two exactly if all runs of them give the
same decisions and count the same triggers, up to every call. -/
theorem chaos_reproducible (below : UInt32 → F → Bool) (seed : UInt64)
    (calls : List (ChaosCall F)) :
    (∀ run run', run.map Prod.fst = calls → run'.map Prod.fst = calls →
      Along Unambiguous (chaosStep below) (.new seed) run →
        chaosAnswers below seed run = chaosAnswers below seed run') ∧
      ((∀ past, past <+: calls → Reproducible below seed past) ↔
        ∀ run, run.map Prod.fst = calls →
          Along Unambiguous (chaosStep below) (.new seed) run) := by
  refine ⟨fun run run' hrun hrun' h => (run_eq_of_along h (hrun.trans hrun'.symm)).1, ?_⟩
  constructor
  · intro h run hrun
    rw [along_iff_forall_initial]
    rintro before ⟨call, order⟩ hbefore
    refine unambiguous_of fun operation hcall id id' s s' hget hget' happlies happlies' => ?_
    obtain rfl : call = .evaluate operation := hcall
    by_contra hne
    -- the two orders put one of the two scenarios first each
    have hpast : before.map Prod.fst ++ [.evaluate operation] <+: calls := by
      rw [← hrun]
      simpa using hbefore.map Prod.fst
    have hsame := (h _ hpast (before ++ [(.evaluate operation, scenarioFirst id)])
      (before ++ [(.evaluate operation, scenarioFirst id')]) (by simp) (by simp)).2
    rw [final_concat, final_concat] at hsame
    exact evaluate_ne hne hget hget' happlies happlies' hsame
  · rintro h past ⟨later, rfl⟩ run run' hrun hrun'
    have hall := h (run ++ runFirst "" later)
      (by rw [List.map_append, hrun, map_fst_runFirst])
    exact run_eq_of_along (hall.initial (List.prefix_append _ _)) (hrun.trans hrun'.symm)

/-! ## Two runs -/

/-- The bits as a fraction, compared in exact arithmetic. -/
def belowProbability (bits : UInt32) (probability : ℚ) : Bool :=
  decide ((bits.toNat : ℚ) / (2 ^ 32 - 1) < probability)

def crash : ChaosScenario ℚ :=
  .new "crash" "replication." (.replicaCrash "r1") .always

def delay : ChaosScenario ℚ :=
  .new "delay" "replication.spawn" (.latencyMs 100) .once

def chaosRun (first operation : String) : List (ChaosCall ℚ × ScenarioOrder ℚ) :=
  runFirst first [.register crash, .register delay, .evaluate operation]

/-- `Unambiguous` as a test. -/
def unambiguous (e : ChaosEngine F) : ChaosCall F × ScenarioOrder F → Bool
  | (.evaluate operation, _) => e.scenarios.toList.all fun p => e.scenarios.toList.all fun q =>
      !(p.2.applies operation && q.2.applies operation) || p.1 == q.1
  | _ => true

theorem unambiguous_of_test (e : ChaosEngine F) (x : ChaosCall F × ScenarioOrder F)
    (h : unambiguous e x = true) : Unambiguous e x := by
  refine unambiguous_of fun operation hcall id id' s s' hget hget' happlies happlies' => ?_
  obtain ⟨call, order⟩ := x
  obtain rfl : call = .evaluate operation := hcall
  have hall := List.all_eq_true.mp h _ (Maps.mem_toList.mpr hget)
  have hboth := List.all_eq_true.mp hall _ (Maps.mem_toList.mpr hget')
  rw [happlies, happlies'] at hboth
  exact beq_iff_eq.mp hboth

theorem chaos_reproducible_plan :
    chaosAnswers belowProbability 0 (chaosRun "crash" "replication.plan") =
      chaosAnswers belowProbability 0 (chaosRun "delay" "replication.plan") :=
  (chaos_reproducible belowProbability 0 _).1 (chaosRun "crash" "replication.plan")
    (chaosRun "delay" "replication.plan") rfl rfl
    (along_of_testAlong unambiguous_of_test (by decide +kernel))

theorem chaos_order_dependent :
    ¬ ∀ (seed : UInt64) (calls : List (ChaosCall ℚ)) run run', run.map Prod.fst = calls →
      run'.map Prod.fst = calls →
        chaosAnswers belowProbability seed run = chaosAnswers belowProbability seed run' := by
  intro h
  have hsame := h 0 _ (chaosRun "crash" "replication.spawn") (chaosRun "delay" "replication.spawn")
    rfl rfl
  exact absurd hsame (by decide +kernel)

end Reliability

end InfinityOS
