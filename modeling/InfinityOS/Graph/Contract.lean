import InfinityOS.Graph.Types
import InfinityOS.Registry.ActionLog
import InfinityOS.Transition.Run

/-!
# Execution contracts

A contract takes one node through one run. Each of its five methods has a guard on the state
of the contract; where the guard passes, the method sets the state and appends one entry to
the action log. The entries of a contract spell a prefix of `Started Progress*` followed by
one of `Completed`, `Failed` and `Cancelled`, and the last of them determines the state.
-/

namespace InfinityOS

namespace Graph

open Registry (Stamp)
open Transition

namespace NodeExecutionState

def label : NodeExecutionState → String
  | idle => "Idle"
  | running _ => "Running"
  | progress _ _ => "Progress"
  | complete _ _ => "Complete"
  | failed _ _ => "Failed"
  | cancelled _ => "Cancelled"

/-- `matches!(self.state, Idle)`. -/
def isIdle : NodeExecutionState → Bool
  | idle => true
  | _ => false

/-- `matches!(self.state, Running { .. } | Progress { .. })`. -/
def isActive : NodeExecutionState → Bool
  | running _ => true
  | progress _ _ => true
  | _ => false

end NodeExecutionState

inductive ContractError where
  | invalidStateTransition (nodeId : Uuid) (source target : String)
  deriving DecidableEq

structure NodeExecutionContract where
  nodeId : Uuid
  dimensionId : DimensionId
  taskId : TaskId
  state : NodeExecutionState

/-- What a method reads from its environment: the clock, and the stamp of its entry. -/
structure Draw where
  nowMs : UInt64
  stamp : Stamp

/-- The answer of a method, the entry that it appends to the action log, if any, and the
contract after it. -/
abbrev Emission := (Except ContractError Unit × Option ActionLog.Entry) × NodeExecutionContract

namespace NodeExecutionContract

def new (nodeId : Uuid) (dimensionId : DimensionId) (taskId : TaskId) : NodeExecutionContract :=
  { nodeId, dimensionId, taskId, state := .idle }

/-- The common body of the methods: the guard, the new state, the entry. -/
def move (c : NodeExecutionContract) (admitted : Bool) (target : String)
    (state : NodeExecutionState) (eventType : ActionLog.EventType)
    (details : List (String × Json)) (stamp : Stamp) : Emission :=
  if admitted then
    let entry := ActionLog.Entry.new eventType .system (some c.dimensionId) (some c.taskId)
      (.object details) stamp
    ((.ok (), some (entry.withCorrelation c.nodeId.display)), { c with state })
  else
    ((.error (.invalidStateTransition c.nodeId c.state.label target), none), c)

def start (c : NodeExecutionContract) (draw : Draw) : Emission :=
  c.move c.state.isIdle "Running" (.running draw.nowMs) .nodeExecutionStarted
    [("node_id", .string c.nodeId.display)] draw.stamp

def progress (c : NodeExecutionContract) (percent : Float) (message : String) (draw : Draw) :
    Emission :=
  c.move c.state.isActive "Progress" (.progress percent.toBits message) .nodeExecutionProgress
    [("message", .string message), ("node_id", .string c.nodeId.display),
      ("percent", .ofFloat percent)] draw.stamp

def complete (c : NodeExecutionContract) (output : Json) (draw : Draw) : Emission :=
  c.move c.state.isActive "Complete" (.complete draw.nowMs output) .nodeExecutionCompleted
    [("node_id", .string c.nodeId.display), ("output", output)] draw.stamp

def fail (c : NodeExecutionContract) (error : String) (draw : Draw) : Emission :=
  c.move c.state.isActive "Failed" (.failed error draw.nowMs) .nodeExecutionFailed
    [("error", .string error), ("node_id", .string c.nodeId.display)] draw.stamp

def cancel (c : NodeExecutionContract) (draw : Draw) : Emission :=
  c.move c.state.isActive "Cancelled" (.cancelled draw.nowMs) .nodeExecutionCancelled
    [("node_id", .string c.nodeId.display)] draw.stamp

end NodeExecutionContract

inductive ContractCall where
  | start
  | progress (percent : Float) (message : String)
  | complete (output : Json)
  | fail (error : String)
  | cancel

def NodeExecutionContract.step (c : NodeExecutionContract) : ContractCall × Draw → Emission
  | (.start, draw) => c.start draw
  | (.progress percent message, draw) => c.progress percent message draw
  | (.complete output, draw) => c.complete output draw
  | (.fail error, draw) => c.fail error draw
  | (.cancel, draw) => c.cancel draw

/-- The entries that a contract appends in a run, oldest first. -/
def emitted (c : NodeExecutionContract) (calls : List (ContractCall × Draw)) :
    List ActionLog.Entry :=
  (trace NodeExecutionContract.step c calls).filterMap fun call => call.2.2

/-! ## The words of a run -/

/-- A whole run: started, any number of progress reports, and one end. -/
def IsExecution (word : List ActionLog.EventType) : Prop :=
  ∃ n, ∃ last ∈ [ActionLog.EventType.nodeExecutionCompleted, .nodeExecutionFailed,
    .nodeExecutionCancelled],
    word = .nodeExecutionStarted :: (List.replicate n .nodeExecutionProgress ++ [last])

/-- The event type and the payload of the entry that is made on entering a state, for the
node `nodeId`. -/
def NodeExecutionState.event (nodeId : Uuid) :
    NodeExecutionState → Option (ActionLog.EventType × Json)
  | idle => none
  | running _ => some (.nodeExecutionStarted, .object [("node_id", .string nodeId.display)])
  | progress percent message =>
      some (.nodeExecutionProgress,
        .object [("message", .string message), ("node_id", .string nodeId.display),
          ("percent", .ofFloat (.ofBits percent))])
  | complete _ output =>
      some (.nodeExecutionCompleted,
        .object [("node_id", .string nodeId.display), ("output", output)])
  | failed error _ =>
      some (.nodeExecutionFailed,
        .object [("error", .string error), ("node_id", .string nodeId.display)])
  | cancelled _ => some (.nodeExecutionCancelled, .object [("node_id", .string nodeId.display)])

def labelAfter (word : List ActionLog.EventType) : String :=
  match word.getLast? with
  | none => "Idle"
  | some .nodeExecutionStarted => "Running"
  | some .nodeExecutionProgress => "Progress"
  | some .nodeExecutionCompleted => "Complete"
  | some .nodeExecutionFailed => "Failed"
  | some _ => "Cancelled"

/-- The last entry is the one that is made on entering the state, and there is none in the
idle state. -/
def LastEntryIs (nodeId : Uuid) (entries : List ActionLog.Entry) (state : NodeExecutionState) :
    Prop :=
  (entries.getLast?.map fun entry => (entry.eventType, entry.payload)) = state.event nodeId

theorem LastEntryIs.label_eq {nodeId : Uuid} {entries : List ActionLog.Entry}
    {state : NodeExecutionState} (h : LastEntryIs nodeId entries state) :
    state.label = labelAfter (entries.map ActionLog.Entry.eventType) := by
  unfold LastEntryIs at h
  unfold labelAfter
  rw [List.getLast?_map]
  cases hlast : entries.getLast? with
  | none =>
      rw [hlast] at h
      cases state <;> cases h
      rfl
  | some entry =>
      rw [hlast] at h
      have htype : some entry.eventType = (state.event nodeId).map Prod.fst := by
        rw [← h]
        rfl
      rw [Option.map_some]
      generalize entry.eventType = eventType at htype ⊢
      cases state <;> cases htype <;> rfl

/-! ## What a call can do -/

/-- The moves of a contract. -/
inductive Advances : NodeExecutionState → NodeExecutionState → Prop where
  | start (nowMs : UInt64) : Advances .idle (.running nowMs)
  | progress {s : NodeExecutionState} (h : s.isActive = true) (percent : UInt64)
      (message : String) : Advances s (.progress percent message)
  | complete {s : NodeExecutionState} (h : s.isActive = true) (nowMs : UInt64)
      (output : Json) : Advances s (.complete nowMs output)
  | fail {s : NodeExecutionState} (h : s.isActive = true) (error : String) (nowMs : UInt64) :
      Advances s (.failed error nowMs)
  | cancel {s : NodeExecutionState} (h : s.isActive = true) (nowMs : UInt64) :
      Advances s (.cancelled nowMs)

/-- A call is rejected without an effect, or it moves the contract and appends the entry of
the state that it goes to. -/
inductive StepCase (c : NodeExecutionContract) : Emission → Prop where
  | rejected (e : ContractError) : StepCase c ((.error e, none), c)
  | moved (entry : ActionLog.Entry) (state : NodeExecutionState)
      (hmove : Advances c.state state)
      (hevent : state.event c.nodeId = some (entry.eventType, entry.payload)) :
      StepCase c ((.ok (), some entry), { c with state })

/-- The rule for one method, from what it does where its guard passes. -/
theorem stepCase_move {c : NodeExecutionContract} {admitted : Bool} {target : String}
    {state : NodeExecutionState} {eventType : ActionLog.EventType} {details : List (String × Json)}
    {stamp : Stamp} (hmove : admitted = true → Advances c.state state)
    (hevent : state.event c.nodeId = some (eventType, .object details)) :
    StepCase c (c.move admitted target state eventType details stamp) := by
  unfold NodeExecutionContract.move
  cases admitted with
  | false => exact .rejected _
  | true => exact .moved _ _ (hmove rfl) hevent

theorem NodeExecutionContract.stepCase (c : NodeExecutionContract) (call : ContractCall × Draw) :
    StepCase c (c.step call) := by
  obtain ⟨call, draw⟩ := call
  cases call with
  | start =>
      refine stepCase_move (fun h => ?_) rfl
      cases hstate : c.state with
      | idle => exact .start _
      | _ =>
          rw [hstate] at h
          cases h
  | progress percent message =>
      refine stepCase_move (fun h => .progress h _ _) ?_
      rw [NodeExecutionState.event, Float.ofBits_toBits]
  | complete output => exact stepCase_move (fun h => .complete h _ _) rfl
  | fail error => exact stepCase_move (fun h => .fail h _ _) rfl
  | cancel => exact stepCase_move (fun h => .cancel h _) rfl

theorem rejected_quietly (c : NodeExecutionContract) (call : ContractCall × Draw)
    (e : ContractError) (he : (c.step call).1.1 = .error e) : (c.step call).1.2 = none := by
  have hcase := c.stepCase call
  generalize c.step call = emission at hcase he ⊢
  cases hcase with
  | rejected e' => rfl
  | moved entry state hmove hevent => cases he

/-! ## The invariant -/

/-- What the entries of a contract in the given state spell. -/
def Spells (word : List ActionLog.EventType) : NodeExecutionState → Prop
  | .idle => word = []
  | .running _ => ∃ n, word = .nodeExecutionStarted :: List.replicate n .nodeExecutionProgress
  | .progress _ _ =>
      ∃ n, word = .nodeExecutionStarted :: List.replicate n .nodeExecutionProgress
  | _ => IsExecution word

theorem spells_active {word : List ActionLog.EventType} {state : NodeExecutionState}
    (hactive : state.isActive = true) (h : Spells word state) :
    ∃ n, word = .nodeExecutionStarted :: List.replicate n .nodeExecutionProgress := by
  cases state with
  | running _ => exact h
  | progress _ _ => exact h
  | _ => cases hactive

theorem isExecution_append {word : List ActionLog.EventType} {state : NodeExecutionState}
    (hactive : state.isActive = true) (h : Spells word state) {last : ActionLog.EventType}
    (hlast : last ∈ [ActionLog.EventType.nodeExecutionCompleted, .nodeExecutionFailed,
      .nodeExecutionCancelled]) : IsExecution (word ++ [last]) := by
  obtain ⟨n, rfl⟩ := spells_active hactive h
  exact ⟨n, last, hlast, rfl⟩

theorem Spells.append {word : List ActionLog.EventType} {s t : NodeExecutionState}
    (h : Spells word s) (hmove : Advances s t) {nodeId : Uuid}
    {eventType : ActionLog.EventType} {payload : Json}
    (hevent : t.event nodeId = some (eventType, payload)) : Spells (word ++ [eventType]) t := by
  cases hmove with
  | start nowMs =>
      cases hevent
      obtain rfl : word = [] := h
      exact ⟨0, rfl⟩
  | progress hactive percent message =>
      cases hevent
      obtain ⟨n, rfl⟩ := spells_active hactive h
      refine ⟨n + 1, ?_⟩
      rw [List.cons_append, ← List.replicate_succ']
  | complete hactive nowMs output =>
      cases hevent
      exact isExecution_append hactive h (by simp)
  | fail hactive error nowMs =>
      cases hevent
      exact isExecution_append hactive h (by simp)
  | cancel hactive nowMs =>
      cases hevent
      exact isExecution_append hactive h (by simp)

theorem Spells.begins {word : List ActionLog.EventType} {state : NodeExecutionState}
    (h : Spells word state) : ∃ whole, IsExecution whole ∧ word <+: whole := by
  have hactive (n : ℕ)
      (hword : word = .nodeExecutionStarted :: List.replicate n .nodeExecutionProgress) :
      ∃ whole, IsExecution whole ∧ word <+: whole := by
    refine ⟨word ++ [.nodeExecutionCompleted], ⟨n, _, List.mem_cons_self, ?_⟩,
      List.prefix_append _ _⟩
    rw [hword, List.cons_append]
  cases state with
  | idle =>
      obtain rfl : word = [] := h
      exact ⟨_, ⟨0, _, List.mem_cons_self, rfl⟩, List.nil_prefix⟩
  | running _ =>
      obtain ⟨n, hword⟩ := h
      exact hactive n hword
  | progress _ _ =>
      obtain ⟨n, hword⟩ := h
      exact hactive n hword
  | _ => exact ⟨word, h, List.prefix_rfl⟩

/-- The entries so far spell what the state stands for, and the last belongs to it. -/
structure Recorded (nodeId : Uuid) (entries : List ActionLog.Entry) (c : NodeExecutionContract) :
    Prop where
  node : c.nodeId = nodeId
  spells : Spells (entries.map ActionLog.Entry.eventType) c.state
  last : LastEntryIs nodeId entries c.state

theorem recorded_new (nodeId : Uuid) (dim : DimensionId) (task : TaskId) :
    Recorded nodeId [] (.new nodeId dim task) :=
  { node := rfl, spells := rfl, last := rfl }

theorem Recorded.step {nodeId : Uuid} {entries : List ActionLog.Entry}
    {c : NodeExecutionContract} (h : Recorded nodeId entries c) (call : ContractCall × Draw) :
    Recorded nodeId (entries ++ (c.step call).1.2.toList) (c.step call).2 := by
  have hcase := c.stepCase call
  generalize c.step call = emission at hcase ⊢
  cases hcase with
  | rejected e =>
      rw [Option.toList_none, List.append_nil]
      exact h
  | moved entry state hmove hevent =>
      refine { node := h.node, spells := ?_, last := ?_ }
      · rw [Option.toList_some, List.map_append]
        exact h.spells.append hmove hevent
      · rw [LastEntryIs, Option.toList_some, List.getLast?_concat, ← h.node]
        exact hevent.symm

theorem Recorded.run {nodeId : Uuid} {entries : List ActionLog.Entry}
    {c : NodeExecutionContract} (h : Recorded nodeId entries c)
    (calls : List (ContractCall × Draw)) :
    Recorded nodeId (entries ++ emitted c calls) (final NodeExecutionContract.step c calls) := by
  induction calls generalizing entries c with
  | nil =>
      rw [emitted, trace_nil, List.filterMap_nil, List.append_nil]
      exact h
  | cons call calls ih =>
      have hrest := ih (h.step call)
      rw [List.append_assoc] at hrest
      rw [final_cons, emitted, trace_cons, List.filterMap_cons]
      cases hentry : (c.step call).1.2 with
      | none =>
          rw [hentry] at hrest
          exact hrest
      | some entry =>
          rw [hentry] at hrest
          exact hrest

/-- The entries of a contract are a prefix of the word of a whole run, its state is the one
that this word leads to, with what the last entry says, and a rejected call appends
nothing. -/
theorem contract_trace (nodeId : Uuid) (dim : DimensionId) (task : TaskId)
    (calls : List (ContractCall × Draw)) :
    let c := NodeExecutionContract.new nodeId dim task
    let word := (emitted c calls).map ActionLog.Entry.eventType
    let state := (final NodeExecutionContract.step c calls).state
    (∃ whole, IsExecution whole ∧ word <+: whole) ∧
      state.label = labelAfter word ∧ LastEntryIs nodeId (emitted c calls) state ∧
      ∀ call ∈ trace NodeExecutionContract.step c calls, ∀ e,
        call.2.1 = .error e → call.2.2 = none := by
  intro c word state
  have hrun : Recorded nodeId (emitted c calls) (final NodeExecutionContract.step c calls) :=
    (recorded_new nodeId dim task).run calls
  refine ⟨hrun.spells.begins, hrun.last.label_eq, hrun.last, ?_⟩
  exact forall_trace (fun _ => True)
    (Q := fun _ (answer : Except ContractError Unit × Option ActionLog.Entry) =>
      ∀ e, answer.1 = .error e → answer.2 = none)
    (fun c call _ => ⟨rejected_quietly c call, trivial⟩) calls trivial

end Graph

end InfinityOS
