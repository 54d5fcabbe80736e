import InfinityOS.Registry.Blocks

/-!
# Entries of the action log

The event types of node contracts, node customisation, instances and models, and the entry
that carries one. An entry draws its id and its time when it is made.
-/

namespace InfinityOS

namespace ActionLog

open Registry (Actor Stamp)

inductive EventType where
  | nodeUpdated
  | modelHyperparametersAdjusted
  | modelReloadRequested
  | replicaProvisioned
  | replicaReleased
  | nodeExecutionStarted
  | nodeExecutionProgress
  | nodeExecutionCompleted
  | nodeExecutionFailed
  | nodeExecutionCancelled
  | instanceCreated
  deriving DecidableEq

structure Entry where
  eventId : Uuid
  eventType : EventType
  occurredAtMs : UInt64
  dimensionId : Option DimensionId
  taskId : Option TaskId
  actor : Actor
  causalityId : Option Uuid
  correlationId : Option String
  payload : Json

namespace Entry

def new (eventType : EventType) (actor : Actor) (dimensionId : Option DimensionId)
    (taskId : Option TaskId) (payload : Json) (stamp : Stamp) : Entry :=
  { eventId := stamp.eventId, eventType, occurredAtMs := stamp.occurredAtMs, dimensionId,
    taskId, actor, causalityId := none, correlationId := none, payload }

def withCorrelation (entry : Entry) (correlationId : String) : Entry :=
  { entry with correlationId := some correlationId }

end Entry

end ActionLog

/-- The JSON value of an `f64`: a number where it is finite, else `null`. -/
def Json.ofFloat (x : Float) : Json :=
  if x.isFinite then .number (.float x.toBits) else .null

end InfinityOS
