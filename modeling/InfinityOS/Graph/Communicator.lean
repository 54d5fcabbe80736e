import InfinityOS.Core.Maps
import InfinityOS.Core.Types
import InfinityOS.Transition.Run

/-!
# Messages between nodes

Every node has an inbox in which messages wait until they are drained, all together or
those on one channel. The log entries of the communicator are left out, and with them the
dimension and the task that only appear there. On each channel a node gets what was sent
to it, in the order of sending.
-/

namespace InfinityOS

namespace Graph

open Transition

structure NodeMessage where
  id : Uuid
  fromNode : Uuid
  toNode : Option Uuid
  channel : String
  payload : Json
  sentAtMs : UInt64

structure NodeCommunicator where
  inbox : HashMap Uuid (List NodeMessage)

/-- The messages that `broadcast` makes for its recipients, with the id and the time that
each draws. -/
def broadcastCopies (fromNode : Uuid) (channel : String) (payload : Json)
    (recipients : List Uuid) (draw : ℕ → Uuid × UInt64) : List NodeMessage :=
  recipients.mapIdx fun k recipient =>
    { id := (draw k).1, fromNode, toNode := some recipient, channel, payload,
      sentAtMs := (draw k).2 }

namespace NodeCommunicator

def new : NodeCommunicator :=
  { inbox := ∅ }

/-- `inbox.entry(to).or_default().push(msg)` for the recipient of the message; a message
without one is dropped. -/
def send (c : NodeCommunicator) (msg : NodeMessage) : NodeCommunicator :=
  match msg.toNode with
  | none => c
  | some recipient =>
      { inbox := c.inbox.insert recipient (c.inbox[recipient]?.getD [] ++ [msg]) }

def broadcast (c : NodeCommunicator) (fromNode : Uuid) (channel : String) (payload : Json)
    (recipients : List Uuid) (draw : ℕ → Uuid × UInt64) : ℕ × NodeCommunicator :=
  (recipients.length, (broadcastCopies fromNode channel payload recipients draw).foldl send c)

def drainInbox (c : NodeCommunicator) (nodeId : Uuid) : List NodeMessage × NodeCommunicator :=
  (c.inbox[nodeId]?.getD [], { inbox := c.inbox.erase nodeId })

def drainChannel (c : NodeCommunicator) (nodeId : Uuid) (channel : String) :
    List NodeMessage × NodeCommunicator :=
  let (drained, remaining) :=
    (c.inbox[nodeId]?.getD []).partition fun m => m.channel = channel
  (drained, { inbox := c.inbox.insert nodeId remaining })

end NodeCommunicator

inductive MessageCall where
  | send (msg : NodeMessage)
  | broadcast (fromNode : Uuid) (channel : String) (payload : Json) (recipients : List Uuid)
      (draw : ℕ → Uuid × UInt64)
  | drainInbox (nodeId : Uuid)
  | drainChannel (nodeId : Uuid) (channel : String)

inductive MessageAnswer where
  | sent
  | delivered (count : ℕ)
  | drained (messages : List NodeMessage)

def NodeCommunicator.step (c : NodeCommunicator) :
    MessageCall → MessageAnswer × NodeCommunicator
  | .send msg => (.sent, c.send msg)
  | .broadcast fromNode channel payload recipients draw =>
      let r := c.broadcast fromNode channel payload recipients draw
      (.delivered r.1, r.2)
  | .drainInbox nodeId => let r := c.drainInbox nodeId; (.drained r.1, r.2)
  | .drainChannel nodeId channel =>
      let r := c.drainChannel nodeId channel
      (.drained r.1, r.2)

/-! ## What was sent and what was drained -/

def MessageCall.messages : MessageCall → List NodeMessage
  | send msg => [msg]
  | broadcast fromNode channel payload recipients draw =>
      broadcastCopies fromNode channel payload recipients draw
  | _ => []

def handedOver (nodeId : Uuid) : MessageCall × MessageAnswer → List NodeMessage
  | (.drainInbox n, .drained messages) => if n = nodeId then messages else []
  | (.drainChannel n _, .drained messages) => if n = nodeId then messages else []
  | _ => []

/-- The messages of the node that were drained in a run, in the order of draining. -/
def drained (nodeId : Uuid) (c : NodeCommunicator) (calls : List MessageCall) :
    List NodeMessage :=
  (trace NodeCommunicator.step c calls).flatMap (handedOver nodeId)

section Step

variable (c : NodeCommunicator) (n : Uuid)

end Step

end Graph

end InfinityOS
