import InfinityOS.Graph.Contract
import InfinityOS.Graph.Operation

/-!
# The state of a node and its contract

`execution_contract` hands out a contract that holds a state of its own, and nothing writes
that state back: the map that `execution_state` reads is written by `add_node` and
`remove_node` alone. The two agree as long as the newest contract of a node has not been
started.
-/

namespace InfinityOS

namespace Graph

open Transition

namespace FlowGraph

def executionState (g : FlowGraph) (nodeId : Uuid) : Option NodeExecutionState :=
  g.executionStates[nodeId]?

/-- `execution_contract`, with the dimension and the task of the wrapper. -/
def executionContract (g : FlowGraph) (dimensionId : DimensionId) (taskId : TaskId)
    (nodeId : Uuid) : Except FlowGraphError NodeExecutionContract :=
  if g.schema.nodes.contains nodeId then .ok (.new nodeId dimensionId taskId)
  else .error (.nodeNotFound nodeId)

end FlowGraph

/-! ## The map of execution states -/

/-- A graph as its methods leave it: the schema is a public field, the map of execution
states is private and has idle entries only. -/
structure IdleGraph extends FlowGraph where
  idle : ∀ (id : Uuid) (state : NodeExecutionState),
    executionStates[id]? = some state → state = .idle

theorem idle_step {g : FlowGraph}
    (h : ∀ (id : Uuid) (state : NodeExecutionState),
      g.executionStates[id]? = some state → state = .idle) (edit : Edit)
    (id : Uuid) (state : NodeExecutionState)
    (hget : (g.step edit).2.executionStates[id]? = some state) : state = .idle := by
  have hcase := g.editCase edit
  generalize (g.step edit).2 = g' at hcase hget
  cases hcase with
  | addedNode node =>
      rw [Maps.getElem?_insert_ite] at hget
      split at hget
      · exact (Option.some.inj hget).symm
      · exact h id state hget
  | removedNode removed node hnode =>
      rw [Maps.getElem?_erase_ite] at hget
      split at hget
      · cases hget
      · exact h id state hget
  | _ => exact h id state hget

def IdleGraph.built (graphId : Uuid) (dim : DimensionId) (edits : List Edit) : IdleGraph :=
  { toFlowGraph := final FlowGraph.step (.new graphId dim) edits
    idle := invariant_final_of_forall
      (fun g : FlowGraph => ∀ (id : Uuid) (state : NodeExecutionState),
        g.executionStates[id]? = some state → state = .idle)
      (fun _ edit h => idle_step h edit) edits
      (fun id state hget => by simp [FlowGraph.new] at hget) }

/-! ## Contracts of a graph -/

/-- The contracts obtained so far, those of each node from the newest to the oldest. -/
abbrev Contracts := HashMap Uuid (List NodeExecutionContract)

def contractsOf (m : Contracts) (nodeId : Uuid) : List NodeExecutionContract :=
  m[nodeId]?.getD []

inductive ContractUse where
  | obtain (nodeId : Uuid)
  /-- A call on the contract of the node that has `age` newer ones. -/
  | call (nodeId : Uuid) (age : ℕ) (call : ContractCall) (draw : Draw)

inductive UseAnswer where
  | obtained (answer : Except FlowGraphError Unit)
  | called (answer : Except ContractError Unit) (entry : Option ActionLog.Entry)
  | noContract

section

variable (g : FlowGraph) (dimensionId : DimensionId) (taskId : TaskId)

def useContract (m : Contracts) : ContractUse → UseAnswer × Contracts
  | .obtain nodeId =>
      match g.executionContract dimensionId taskId nodeId with
      | .error e => (.obtained (.error e), m)
      | .ok contract => (.obtained (.ok ()), m.insert nodeId (contract :: contractsOf m nodeId))
  | .call nodeId age call draw =>
      match (contractsOf m nodeId)[age]? with
      | none => (.noContract, m)
      | some contract =>
          let r := contract.step (call, draw)
          (.called r.1.1 r.1.2, m.insert nodeId ((contractsOf m nodeId).set age r.2))

end

/-- `execution_state` reports the state of the newest contract of every node that has
one. -/
def ReportsNewest (g : FlowGraph) (m : Contracts) : Prop :=
  ∀ nodeId contract, (contractsOf m nodeId).head? = some contract →
    g.executionState nodeId = some contract.state

/-- A contract is obtained for a node that has an execution state, and the newest contract
of a node is not started. -/
def Unstarted (g : FlowGraph) (m : Contracts) : ContractUse → Prop
  | .obtain nodeId =>
      g.schema.nodes.contains nodeId = true → g.executionStates.contains nodeId = true
  | .call nodeId age call _ => ¬ (age = 0 ∧ contractsOf m nodeId ≠ [] ∧ call = .start)

theorem contractsOf_insert (m : Contracts) (nodeId : Uuid) (l : List NodeExecutionContract)
    (id : Uuid) :
    contractsOf (m.insert nodeId l) id = if id = nodeId then l else contractsOf m id := by
  unfold contractsOf
  rw [Maps.getElem?_insert_ite]
  split <;> rfl

section Step

variable {g : IdleGraph} {m : Contracts}

theorem reportsNewest_insert (h : ReportsNewest g.toFlowGraph m) (nodeId : Uuid)
    (l : List NodeExecutionContract) :
    ReportsNewest g.toFlowGraph (m.insert nodeId l) ↔
      ∀ contract, l.head? = some contract →
        g.executionState nodeId = some contract.state := by
  constructor
  · intro hall contract hhead
    apply hall nodeId contract
    rw [contractsOf_insert, if_pos rfl]
    exact hhead
  · intro hnode id contract hhead
    rw [contractsOf_insert] at hhead
    split at hhead
    · next hid =>
        rw [hid]
        exact hnode contract hhead
    · exact h id contract hhead

theorem step_idle {contract : NodeExecutionContract} (hidle : contract.state = .idle)
    (call : ContractCall) (draw : Draw) :
    (contract.step (call, draw)).2.state =
      match call with
      | .start => .running draw.nowMs
      | _ => .idle := by
  cases call <;>
    simp [NodeExecutionContract.step, NodeExecutionContract.start,
      NodeExecutionContract.progress, NodeExecutionContract.complete,
      NodeExecutionContract.fail, NodeExecutionContract.cancel, NodeExecutionContract.move,
      NodeExecutionState.isIdle, NodeExecutionState.isActive, hidle]

theorem ReportsNewest.idle (h : ReportsNewest g.toFlowGraph m) {nodeId : Uuid}
    {contract : NodeExecutionContract}
    (hhead : (contractsOf m nodeId).head? = some contract) : contract.state = .idle :=
  g.idle nodeId contract.state (h nodeId contract hhead)

inductive UseCase (g : FlowGraph) (dim : DimensionId) (task : TaskId) (m : Contracts) :
    ContractUse → Contracts → Prop where
  | missingNode (nodeId : Uuid) (h : g.schema.nodes.contains nodeId = false) :
      UseCase g dim task m (.obtain nodeId) m
  | obtained (nodeId : Uuid) (h : g.schema.nodes.contains nodeId = true) :
      UseCase g dim task m (.obtain nodeId)
        (m.insert nodeId (.new nodeId dim task :: contractsOf m nodeId))
  | noContract (nodeId : Uuid) (age : ℕ) (call : ContractCall) (draw : Draw)
      (h : (contractsOf m nodeId)[age]? = none) :
      UseCase g dim task m (.call nodeId age call draw) m
  | called (nodeId : Uuid) (age : ℕ) (call : ContractCall) (draw : Draw)
      (contract : NodeExecutionContract) (h : (contractsOf m nodeId)[age]? = some contract) :
      UseCase g dim task m (.call nodeId age call draw)
        (m.insert nodeId ((contractsOf m nodeId).set age (contract.step (call, draw)).2))

theorem useCase (g : FlowGraph) (dim : DimensionId) (task : TaskId) (m : Contracts)
    (use : ContractUse) : UseCase g dim task m use (useContract g dim task m use).2 := by
  cases use with
  | obtain nodeId =>
      rw [useContract, FlowGraph.executionContract]
      cases hnode : g.schema.nodes.contains nodeId with
      | false => exact .missingNode nodeId hnode
      | true => exact .obtained nodeId hnode
  | call nodeId age call draw =>
      rw [useContract]
      cases hget : (contractsOf m nodeId)[age]? with
      | none => exact .noContract nodeId age call draw hget
      | some contract => exact .called nodeId age call draw contract hget

theorem reportsNewest_obtained (h : ReportsNewest g.toFlowGraph m) (dim : DimensionId)
    (task : TaskId) (nodeId : Uuid) :
    ReportsNewest g.toFlowGraph
        (m.insert nodeId (.new nodeId dim task :: contractsOf m nodeId)) ↔
      g.executionStates.contains nodeId = true := by
  rw [reportsNewest_insert h, Std.ExtTreeMap.contains_eq_isSome_getElem?,
    Option.isSome_iff_exists]
  constructor
  · intro hreport
    exact ⟨_, hreport _ rfl⟩
  · rintro ⟨state, hget⟩ contract hhead
    cases hhead
    rw [FlowGraph.executionState, hget, g.idle nodeId state hget]
    rfl

theorem reportsNewest_called (h : ReportsNewest g.toFlowGraph m) {nodeId : Uuid} {age : ℕ}
    {contract : NodeExecutionContract} (hget : (contractsOf m nodeId)[age]? = some contract)
    (call : ContractCall) (draw : Draw) :
    ReportsNewest g.toFlowGraph
        (m.insert nodeId ((contractsOf m nodeId).set age (contract.step (call, draw)).2)) ↔
      ¬ (age = 0 ∧ call = .start) := by
  rw [reportsNewest_insert h]
  cases age with
  | zero =>
      -- The contract called is the newest, so it is idle before the call.
      rw [← List.head?_eq_getElem?] at hget
      have hidle := h.idle hget
      have hreport : g.executionState nodeId = some .idle := by
        rw [h nodeId contract hget, hidle]
      have hhead : ((contractsOf m nodeId).set 0 (contract.step (call, draw)).2).head? =
          some (contract.step (call, draw)).2 := by
        cases hlist : contractsOf m nodeId with
        | nil =>
            rw [hlist] at hget
            cases hget
        | cons newest older => rfl
      rw [hhead, hreport]
      simp only [Option.some.injEq, forall_eq', step_idle hidle]
      cases call <;> simp
  | succ age =>
      refine iff_of_true (fun c hc => h nodeId c ?_) (by simp)
      rw [← hc]
      cases contractsOf m nodeId <;> rfl

theorem ReportsNewest.step (h : ReportsNewest g.toFlowGraph m) (dim : DimensionId)
    (task : TaskId) (use : ContractUse) :
    ReportsNewest g.toFlowGraph (useContract g.toFlowGraph dim task m use).2 ↔
      Unstarted g.toFlowGraph m use := by
  have hcase := useCase g.toFlowGraph dim task m use
  generalize (useContract g.toFlowGraph dim task m use).2 = m' at hcase ⊢
  cases hcase with
  | missingNode nodeId hnode =>
      refine iff_of_true h fun hcontains => ?_
      rw [hnode] at hcontains
      cases hcontains
  | obtained nodeId hnode =>
      rw [reportsNewest_obtained h]
      exact ⟨fun hstate _ => hstate, fun hunstarted => hunstarted hnode⟩
  | noContract nodeId age call draw hget =>
      refine iff_of_true h ?_
      rintro ⟨rfl, hne, -⟩
      rw [← List.head?_eq_getElem?, List.head?_eq_none_iff] at hget
      exact hne hget
  | called nodeId age call draw contract hget =>
      have hne : contractsOf m nodeId ≠ [] := by
        intro hnil
        rw [hnil] at hget
        cases hget
      rw [reportsNewest_called h hget, Unstarted, and_iff_right hne]

end Step

/-- The graph reports the state of the newest contracts throughout a run exactly if no
newest contract is started in it, and none is obtained for a node without a state. -/
theorem reportsNewest_iff (g : IdleGraph) (dim : DimensionId) (task : TaskId)
    (uses : List ContractUse) :
    (∀ made, made <+: uses →
        ReportsNewest g.toFlowGraph
          (final (useContract g.toFlowGraph dim task) (∅ : Contracts) made)) ↔
      Along (Unstarted g.toFlowGraph) (useContract g.toFlowGraph dim task) (∅ : Contracts)
        uses := by
  refine forall_reached_iff_along (ReportsNewest g.toFlowGraph)
    (fun m use h => h.step dim task use) uses ?_
  intro nodeId contract hhead
  simp [contractsOf] at hhead

def oneNode : IdleGraph :=
  .built 1 7 [.addNode (.new 2 "http.request" "fetch" 0)]

/-- The contract of a node is obtained and started. -/
theorem started_contract_not_reported :
    ¬ ReportsNewest oneNode.toFlowGraph
      (final (useContract oneNode.toFlowGraph 7 9) (∅ : Contracts)
        [.obtain 2,
          .call 2 0 .start { nowMs := 5, stamp := { eventId := 3, occurredAtMs := 5 } }]) := by
  intro h
  have hstate := h 2 { nodeId := 2, dimensionId := 7, taskId := 9, state := .running 5 } rfl
  cases hstate

end Graph

end InfinityOS
