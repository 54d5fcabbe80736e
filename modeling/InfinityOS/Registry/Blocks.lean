import InfinityOS.Core.Maps
import InfinityOS.Graph.Types
import InfinityOS.Transition.Run

/-!
# The block registry

A block is registered, gets an editor, an interpreter and at last a runtime binding. Each
stage checks for the one before it, happens once for a block, and is written to the action
log after the block. Every generated id and every reading of the clock is an argument of
the call that draws it.
-/

namespace InfinityOS

namespace Registry

open Transition

/-! ## The action log -/

inductive EventType where
  | controllerRegistered
  | editorCreated
  | interpreterAttached
  | runtimeBound
  deriving DecidableEq

inductive Actor where
  | user (id : String)
  | agent (id : String)
  | system
  | kernel
  deriving DecidableEq

structure ActionLogEntry where
  eventId : Uuid
  eventType : EventType
  occurredAtMs : UInt64
  dimensionId : Option DimensionId
  taskId : Option TaskId
  actor : Actor
  causalityId : Option Uuid
  correlationId : Option String
  payload : Json

/-- The event id and the time that an entry draws. -/
structure Stamp where
  eventId : Uuid
  occurredAtMs : UInt64

def ActionLogEntry.new (eventType : EventType) (actor : Actor)
    (dimensionId : Option DimensionId) (taskId : Option TaskId) (payload : Json)
    (stamp : Stamp) : ActionLogEntry :=
  { eventId := stamp.eventId, eventType, occurredAtMs := stamp.occurredAtMs, dimensionId,
    taskId, actor, causalityId := none, correlationId := none, payload }

/-! ## Blocks -/

inductive RegistryError where
  | blockNotFound (id : Uuid)
  | stageNotComplete (id : Uuid) (reason : String)
  | editorAlreadyExists (id : Uuid)
  | interpreterAlreadyAttached (id : Uuid)
  | alreadyBound (id : Uuid)
  deriving DecidableEq

structure EditorInstance where
  id : Uuid
  dimensionId : DimensionId
  language : String
  content : String

structure InterpreterAttachment where
  editorId : Uuid
  interpreterType : String
  config : Json

structure RuntimeBinding where
  blockId : Uuid
  editorId : Uuid
  dimensionId : DimensionId
  taskId : TaskId

structure RegisteredBlock where
  dimensionId : DimensionId
  taskId : TaskId
  editor : Option EditorInstance
  interpreter : Option InterpreterAttachment
  binding : Option RuntimeBinding

structure BlockRegistry where
  blocks : HashMap Uuid RegisteredBlock
  actionLog : List ActionLogEntry

namespace BlockRegistry

def new : BlockRegistry :=
  { blocks := ∅, actionLog := [] }

def record (r : BlockRegistry) (id : Uuid) (block : RegisteredBlock) (entry : ActionLogEntry) :
    BlockRegistry :=
  { blocks := r.blocks.insert id block, actionLog := r.actionLog ++ [entry] }

def registerBlock (r : BlockRegistry) (dimensionId : DimensionId) (taskId : TaskId)
    (id : Uuid) (stamp : Stamp) : Uuid × BlockRegistry :=
  (id, r.record id
    { dimensionId, taskId, editor := none, interpreter := none, binding := none }
    (.new .controllerRegistered .system (some dimensionId) (some taskId)
      (.object [("block_id", .string id.display), ("stage", .string "register")]) stamp))

def createEditor (r : BlockRegistry) (blockId : Uuid) (language : String) (editorId : Uuid)
    (stamp : Stamp) : Except RegistryError Uuid × BlockRegistry :=
  match r.blocks[blockId]? with
  | none => (.error (.blockNotFound blockId), r)
  | some block =>
      if block.editor.isSome then
        (.error (.editorAlreadyExists blockId), r)
      else
        let editor := { id := editorId, dimensionId := block.dimensionId, language,
                        content := "" }
        (.ok editorId, r.record blockId { block with editor := some editor }
          (.new .editorCreated .system (some block.dimensionId) (some block.taskId)
            (.object [("block_id", .string blockId.display),
              ("editor_id", .string editorId.display), ("language", .string language)])
            stamp))

def attachInterpreter (r : BlockRegistry) (blockId : Uuid) (interpreterType : String)
    (config : Json) (stamp : Stamp) : Except RegistryError Unit × BlockRegistry :=
  match r.blocks[blockId]? with
  | none => (.error (.blockNotFound blockId), r)
  | some block =>
      match block.editor.map EditorInstance.id with
      | none =>
          (.error (.stageNotComplete blockId
            "create_editor() must be called before attach_interpreter()"), r)
      | some editorId =>
          if block.interpreter.isSome then
            (.error (.interpreterAlreadyAttached blockId), r)
          else
            (.ok (), r.record blockId
              { block with interpreter := some { editorId, interpreterType, config } }
              (.new .interpreterAttached .system (some block.dimensionId) (some block.taskId)
                (.object [("block_id", .string blockId.display), ("config", config),
                  ("editor_id", .string editorId.display),
                  ("interpreter_type", .string interpreterType)])
                stamp))

def bindRuntime (r : BlockRegistry) (blockId : Uuid) (stamp : Stamp) :
    Except RegistryError RuntimeBinding × BlockRegistry :=
  match r.blocks[blockId]? with
  | none => (.error (.blockNotFound blockId), r)
  | some block =>
      match block.editor.map EditorInstance.id with
      | none =>
          (.error (.stageNotComplete blockId
            "create_editor() and attach_interpreter() must be called first"), r)
      | some editorId =>
          if block.interpreter.isNone then
            (.error (.stageNotComplete blockId
              "attach_interpreter() must be called before bind_runtime()"), r)
          else if block.binding.isSome then
            (.error (.alreadyBound blockId), r)
          else
            let binding := { blockId, editorId, dimensionId := block.dimensionId,
                             taskId := block.taskId }
            (.ok binding, r.record blockId { block with binding := some binding }
              (.new .runtimeBound .system (some block.dimensionId) (some block.taskId)
                (.object [("block_id", .string blockId.display),
                  ("dimension_id", .string block.dimensionId.display),
                  ("editor_id", .string editorId.display)])
                stamp))

end BlockRegistry

/-- A call, with the ids and the stamp that it draws. -/
inductive BlockCall where
  | registerBlock (dimensionId : DimensionId) (taskId : TaskId) (id : Uuid) (stamp : Stamp)
  | createEditor (blockId : Uuid) (language : String) (editorId : Uuid) (stamp : Stamp)
  | attachInterpreter (blockId : Uuid) (interpreterType : String) (config : Json)
      (stamp : Stamp)
  | bindRuntime (blockId : Uuid) (stamp : Stamp)

inductive BlockAnswer where
  | registered (id : Uuid)
  | edited (result : Except RegistryError Uuid)
  | attached (result : Except RegistryError Unit)
  | bound (result : Except RegistryError RuntimeBinding)

def BlockAnswer.isOk : BlockAnswer → Bool
  | registered _ => true
  | edited result => result.isOk
  | attached result => result.isOk
  | bound result => result.isOk

def BlockRegistry.step (r : BlockRegistry) : BlockCall → BlockAnswer × BlockRegistry
  | .registerBlock dimensionId taskId id stamp =>
      let a := r.registerBlock dimensionId taskId id stamp
      (.registered a.1, a.2)
  | .createEditor blockId language editorId stamp =>
      let a := r.createEditor blockId language editorId stamp
      (.edited a.1, a.2)
  | .attachInterpreter blockId interpreterType config stamp =>
      let a := r.attachInterpreter blockId interpreterType config stamp
      (.attached a.1, a.2)
  | .bindRuntime blockId stamp =>
      let a := r.bindRuntime blockId stamp
      (.bound a.1, a.2)

end Registry

end InfinityOS
