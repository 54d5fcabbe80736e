import InfinityOS.Core.Ranking
import InfinityOS.Core.Types
import InfinityOS.Security.Audit

/-!
# The policy engine

The rules of the engine, kept sorted by priority, and the decision of the first rule
that matches a request. What the decision should be depends only on the set of the
stored rules: `Decides` asks for a matching rule of the smallest priority number.
-/

namespace InfinityOS

namespace Security

open Transition Ranking

inductive PolicyError where
  | duplicate (id : String)
  | notFound (id : String)
  deriving DecidableEq

inductive Decision where
  | allow
  | deny
  deriving DecidableEq

inductive ActionType where
  | read
  | write
  | delete
  | execute
  | deploy
  | publish
  | admin
  | custom (name : String)
  deriving DecidableEq

structure PolicyRequest where
  principalId : String
  principalKind : String
  action : ActionType
  resource : String
  dimensionId : Option DimensionId
  context : HashMap String String

inductive PolicyCondition where
  | principalIs (id : String)
  | principalKindIs (kind : String)
  | actionIs (action : ActionType)
  | resourceStartsWith (start : String)
  | resourceIs (resource : String)
  | contextEquals (key value : String)
  deriving DecidableEq

def PolicyCondition.matches (c : PolicyCondition) (req : PolicyRequest) : Bool :=
  match c with
  | principalIs id => req.principalId = id
  | principalKindIs kind => req.principalKind = kind
  | actionIs action => req.action = action
  | resourceStartsWith start => start.toList.isPrefixOf req.resource.toList
  | resourceIs r => req.resource = r
  | contextEquals key value => (req.context[key]?.map fun v => decide (v = value)).getD false

structure PolicyRule where
  id : String
  description : String
  conditions : List PolicyCondition
  decision : Decision
  priority : UInt32
  deriving DecidableEq

/-- The number by which rules are sorted. -/
def PolicyRule.rank (rule : PolicyRule) : ℕ :=
  rule.priority.toNat

/-- `PolicyRule::matches`: all conditions hold. -/
def PolicyRule.matches (rule : PolicyRule) (req : PolicyRequest) : Bool :=
  rule.conditions.all fun c => c.matches req

/-- The payload of an entry of type `SecurityAccessDenied`. -/
structure AccessDenied where
  principalId : String
  principalKind : String
  action : ActionType
  resource : String
  ruleId : Option String
  deriving DecidableEq

/-- An entry that the engine appends to the action log. Its id and time are drawn at the
call, its actor is the system, and it has no task, causality or correlation id. -/
structure DenialEntry where
  eventId : Uuid
  occurredAtMs : UInt64
  dimensionId : Option DimensionId
  payload : AccessDenied
  deriving DecidableEq

structure PolicyEngine where
  rules : List PolicyRule
  actionLog : Option (List DenialEntry)

namespace PolicyEngine

def new : PolicyEngine :=
  { rules := [], actionLog := none }

def withActionLog (engine : PolicyEngine) (log : List DenialEntry) : PolicyEngine :=
  { engine with actionLog := some log }

def addRule (engine : PolicyEngine) (rule : PolicyRule) :
    Except PolicyError Unit × PolicyEngine :=
  if engine.rules.any fun r => r.id = rule.id then
    (.error (.duplicate rule.id), engine)
  else
    (.ok (), { engine with rules := Ranking.insert PolicyRule.rank engine.rules rule })

def removeRule (engine : PolicyEngine) (id : String) :
    Except PolicyError Unit × PolicyEngine :=
  match engine.rules.findIdx? fun r => r.id = id with
  | none => (.error (.notFound id), engine)
  | some pos => (.ok (), { engine with rules := engine.rules.eraseIdx pos })

/-- The entry of `emit_access_denied`. -/
def denialEntry (request : PolicyRequest) (ruleId : Option String) (eventId : Uuid)
    (now : UInt64) : DenialEntry :=
  { eventId, occurredAtMs := now, dimensionId := request.dimensionId
    payload :=
      { principalId := request.principalId, principalKind := request.principalKind
        action := request.action, resource := request.resource, ruleId } }

def emitAccessDenied (engine : PolicyEngine) (request : PolicyRequest)
    (ruleId : Option String) (eventId : Uuid) (now : UInt64) : PolicyEngine :=
  match engine.actionLog with
  | some log =>
      { engine with actionLog := some (log ++ [denialEntry request ruleId eventId now]) }
  | none => engine

/-- The loop of `evaluate` over the rules, and what follows it. -/
def evaluateLoop (engine : PolicyEngine) (request : PolicyRequest) (eventId : Uuid)
    (now : UInt64) : List PolicyRule → Decision × PolicyEngine
  | [] => (.deny, engine.emitAccessDenied request none eventId now)
  | rule :: rules =>
      if rule.matches request then
        if rule.decision = .deny then
          (rule.decision, engine.emitAccessDenied request (some rule.id) eventId now)
        else
          (rule.decision, engine)
      else
        evaluateLoop engine request eventId now rules

def evaluate (engine : PolicyEngine) (request : PolicyRequest) (eventId : Uuid)
    (now : UInt64) : Decision × PolicyEngine :=
  engine.evaluateLoop request eventId now engine.rules

end PolicyEngine

/-- A call of the engine; `evaluate` with the id and the time that it draws. -/
inductive PolicyOp where
  | addRule (rule : PolicyRule)
  | removeRule (id : String)
  | evaluate (request : PolicyRequest) (eventId : Uuid) (now : UInt64)

inductive PolicyAnswer where
  | done (result : Except PolicyError Unit)
  | decided (decision : Decision)

def PolicyEngine.step (engine : PolicyEngine) : PolicyOp → PolicyAnswer × PolicyEngine
  | .addRule rule => let r := engine.addRule rule; (.done r.1, r.2)
  | .removeRule id => let r := engine.removeRule id; (.done r.1, r.2)
  | .evaluate request eventId now =>
      let r := engine.evaluate request eventId now; (.decided r.1, r.2)

/-- What the decision on a request should be when `rules` is the set of stored rules. -/
def Decides (rules : Set PolicyRule) (request : PolicyRequest) (decision : Decision) : Prop :=
  (∃ rule, Selects PolicyRule.rank (fun r => r.matches request = true) rules rule ∧
    rule.decision = decision) ∨
  ((∀ rule ∈ rules, rule.matches request = false) ∧ decision = .deny)

def PolicyEngine.stored (engine : PolicyEngine) : Set PolicyRule :=
  {rule | rule ∈ engine.rules}

/-- The ids of the stored rules are unique, and the rules are sorted by priority. -/
structure PolicyEngine.WellFormed (engine : PolicyEngine) : Prop where
  unique : (engine.rules.map PolicyRule.id).Nodup
  sorted : engine.rules.Pairwise fun r r' => r.rank ≤ r'.rank

theorem Decides.unique {rules : Set PolicyRule} {request : PolicyRequest} {d d' : Decision}
    (h : Decides rules request d) (h' : Decides rules request d')
    (hinj : Set.InjOn PolicyRule.rank rules) : d = d' := by
  rcases h with ⟨rule, hrule, rfl⟩ | ⟨hnone, rfl⟩
  · rcases h' with ⟨rule', hrule', rfl⟩ | ⟨hnone, rfl⟩
    · rw [hrule.unique hrule' hinj]
    · have hmatch := hnone rule hrule.mem
      rw [hrule.holds] at hmatch
      cases hmatch
  · rcases h' with ⟨rule', hrule', rfl⟩ | ⟨-, rfl⟩
    · have hmatch := hnone rule' hrule'.mem
      rw [hrule'.holds] at hmatch
      cases hmatch
    · rfl

namespace PolicyEngine

variable (engine : PolicyEngine) (request : PolicyRequest) (eventId : Uuid) (now : UInt64)

variable {engine}

end PolicyEngine

end Security

end InfinityOS
