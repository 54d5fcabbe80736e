import InfinityOS.Graph.Cycle
import InfinityOS.Graph.Order

/-!
# Validation and planning

`validate` goes over the links, the required input ports and the cycles of a graph and
lists every issue; `plan` only asks for a topological order. A graph that has a plan is
valid exactly if its links are sound and its required inputs are connected.
-/

namespace InfinityOS

namespace Graph

structure ValidationIssue where
  kind : String
  description : String
  nodeId : Option Uuid
  linkId : Option Uuid
  deriving DecidableEq

structure ValidationReport where
  valid : Bool
  issues : List ValidationIssue
  deriving DecidableEq

namespace ValidationReport

def new : ValidationReport :=
  { valid := true, issues := [] }

def push (report : ValidationReport) (issue : ValidationIssue) : ValidationReport :=
  { valid := false, issues := report.issues ++ [issue] }

/-- `if c { report.push(issue) }`. -/
def pushIf (report : ValidationReport) (c : Bool) (issue : ValidationIssue) :
    ValidationReport :=
  if c then report.push issue else report

@[simp] theorem valid_push (report : ValidationReport) (issue : ValidationIssue) :
    (report.push issue).valid = false := rfl

@[simp] theorem valid_pushIf (report : ValidationReport) (c : Bool) (issue : ValidationIssue) :
    (report.pushIf c issue).valid = (report.valid && !c) := by
  cases c <;> simp [pushIf]

end ValidationReport

/-- The number of checked links into each port of each node. -/
abbrev Incoming :=
  Std.ExtTreeMap (Uuid × Uuid) ℕ (compareLex (compareOn Prod.fst) (compareOn Prod.snd))

instance : Std.LawfulEqCmp
    (compareLex (compareOn (Prod.fst : Uuid × Uuid → Uuid)) (compareOn Prod.snd)) where
  eq_of_compare {a b} h := by
    rw [compareLex_eq_eq] at h
    exact Prod.ext (Std.LawfulEqCmp.eq_of_compare h.1) (Std.LawfulEqCmp.eq_of_compare h.2)

def FlowGraphSchema.portAt (s : FlowGraphSchema) (nodeId portId : Uuid) : Option PortDef :=
  s.nodes[nodeId]?.bind fun node => node.ports[portId]?

def missingSource (s : FlowGraphSchema) (linkId : Uuid) (link : Link) : ValidationIssue :=
  if !s.nodes.contains link.sourceNode then
    { kind := "missing_source_node"
      description := "Link " ++ linkId.display ++ ": source node " ++
        link.sourceNode.display ++ " not found"
      nodeId := some link.sourceNode
      linkId := some linkId }
  else
    { kind := "missing_source_port"
      description := "Link " ++ linkId.display ++ ": source port " ++
        link.sourcePort.display ++ " not found on node " ++ link.sourceNode.display
      nodeId := some link.sourceNode
      linkId := some linkId }

def missingTarget (s : FlowGraphSchema) (linkId : Uuid) (link : Link) : ValidationIssue :=
  if !s.nodes.contains link.targetNode then
    { kind := "missing_target_node"
      description := "Link " ++ linkId.display ++ ": target node " ++
        link.targetNode.display ++ " not found"
      nodeId := some link.targetNode
      linkId := some linkId }
  else
    { kind := "missing_target_port"
      description := "Link " ++ linkId.display ++ ": target port " ++
        link.targetPort.display ++ " not found on node " ++ link.targetNode.display
      nodeId := some link.targetNode
      linkId := some linkId }

def checkPorts (report : ValidationReport) (linkId : Uuid) (link : Link) (src tgt : PortDef) :
    ValidationReport :=
  let report := report.pushIf (src.direction != .output)
    { kind := "wrong_source_port_direction"
      description := "Link " ++ linkId.display ++ ": source port '" ++ src.name ++
        "' is not an Out port"
      nodeId := some link.sourceNode
      linkId := some linkId }
  let report := report.pushIf (tgt.direction != .input)
    { kind := "wrong_target_port_direction"
      description := "Link " ++ linkId.display ++ ": target port '" ++ tgt.name ++
        "' is not an In port"
      nodeId := some link.targetNode
      linkId := some linkId }
  report.pushIf (!src.dataType.isCompatibleWith tgt.dataType)
    { kind := "type_mismatch"
      description := "Link " ++ linkId.display ++ ": type " ++ src.dataType.debug ++ " ↛ " ++
        tgt.dataType.debug
      nodeId := none
      linkId := some linkId }

def validateLink (s : FlowGraphSchema) (acc : ValidationReport × Incoming)
    (entry : Uuid × Link) : ValidationReport × Incoming :=
  let (linkId, link) := entry
  match s.portAt link.sourceNode link.sourcePort, s.portAt link.targetNode link.targetPort with
  | some src, some tgt =>
      let key := (link.targetNode, link.targetPort)
      (checkPorts acc.1 linkId link src tgt, acc.2.insert key (acc.2[key]?.getD 0 + 1))
  | none, _ => (acc.1.push (missingSource s linkId link), acc.2)
  | some _, none => (acc.1.push (missingTarget s linkId link), acc.2)

def GraphNode.inputs (node : GraphNode) : List PortDef :=
  node.ports.values.filter fun port => port.direction = .input

def validatePort (incoming : Incoming) (nodeId : Uuid) (report : ValidationReport)
    (port : PortDef) : ValidationReport :=
  report.pushIf (incoming[(nodeId, port.id)]?.getD 0 == 0)
    { kind := "unconnected_required_port"
      description := "Node " ++ nodeId.display ++ ": required input port '" ++ port.name ++
        "' has no incoming link"
      nodeId := some nodeId
      linkId := none }

def validateNode (incoming : Incoming) (report : ValidationReport)
    (entry : Uuid × GraphNode) : ValidationReport :=
  (entry.2.inputs.filter PortDef.required).foldl (validatePort incoming entry.1) report

def FlowGraph.validate (g : FlowGraph) : Except Abort ValidationReport :=
  let (report, incoming) := g.schema.links.toList.foldl (validateLink g.schema) (.new, ∅)
  let report := g.schema.nodes.toList.foldl (validateNode incoming) report
  match detectCycle g.schema with
  | .error e => .error e
  | .ok (.error (.cycleDetected cycle)) =>
      .ok (report.push
        { kind := "cycle_detected"
          description := "Directed cycle detected through nodes: [" ++
            String.intercalate ", " (cycle.map Uuid.display) ++ "]"
          nodeId := none
          linkId := none })
  | .ok _ => .ok report

/-! ## The planner interface -/

inductive PlanError where
  | graph (error : FlowGraphError)
  | dimensionMismatch (expected got : DimensionId)
  deriving DecidableEq

namespace NodePlannerApi

def plan (g : FlowGraph) (dimensionId : DimensionId) :
    Except Abort (Except PlanError (List Uuid)) :=
  if g.schema.dimensionId ≠ dimensionId then
    .ok (.error (.dimensionMismatch g.schema.dimensionId dimensionId))
  else
    match topologicalOrder g.schema with
    | .error e => .error e
    | .ok (.error e) => .ok (.error (.graph e))
    | .ok (.ok order) => .ok (.ok order)

def validate (g : FlowGraph) (dimensionId : DimensionId) :
    Except Abort (Except (List String) Unit) :=
  if g.schema.dimensionId ≠ dimensionId then
    .ok (.error ["dimension mismatch: graph owns " ++ g.schema.dimensionId.display ++
      ", caller requested " ++ dimensionId.display])
  else
    match g.validate with
    | .error e => .error e
    | .ok report =>
        if report.valid then
          .ok (.ok ())
        else
          .ok (.error (report.issues.map fun issue =>
            "[" ++ issue.kind ++ "] " ++ issue.description))

end NodePlannerApi

/-! ## What a valid report says -/

/-- The link leads from an output port to an input port of a compatible type. -/
def LinkSound (s : FlowGraphSchema) (l : Link) : Prop :=
  ∃ src tgt, s.portAt l.sourceNode l.sourcePort = some src ∧
    s.portAt l.targetNode l.targetPort = some tgt ∧ src.direction = .output ∧
    tgt.direction = .input ∧ src.dataType.isCompatibleWith tgt.dataType = true

def LinksSound (s : FlowGraphSchema) : Prop :=
  ∀ l ∈ s.linkList, LinkSound s l

/-- Some link leads into every required input port. -/
def InputsConnected (s : FlowGraphSchema) : Prop :=
  ∀ nodeId node, s.nodes[nodeId]? = some node → ∀ port ∈ node.inputs, port.required = true →
    ∃ l ∈ s.linkList, l.targetNode = nodeId ∧ l.targetPort = port.id

theorem foldl_iff {α β : Type*} {f : β → α → β} {P : β → Prop} {Q : α → Prop}
    (hturn : ∀ b a, P (f b a) ↔ P b ∧ Q a) (l : List α) (b : β) :
    P (l.foldl f b) ↔ P b ∧ ∀ a ∈ l, Q a := by
  induction l generalizing b with
  | nil => simp
  | cons a l ih =>
      rw [List.foldl_cons, ih, hturn, List.forall_mem_cons, and_assoc]

section Report

variable {s : FlowGraphSchema}

@[simp] theorem linkId_missingSource (linkId : Uuid) (link : Link) :
    (missingSource s linkId link).linkId = some linkId := by
  unfold missingSource
  split <;> rfl

@[simp] theorem linkId_missingTarget (linkId : Uuid) (link : Link) :
    (missingTarget s linkId link).linkId = some linkId := by
  unfold missingTarget
  split <;> rfl

theorem validateLink_iff {P : ValidationReport → Prop}
    (hpush : ∀ (report : ValidationReport) (issue : ValidationIssue),
      issue.linkId.isSome → ¬ P (report.push issue))
    (acc : ValidationReport × Incoming) (entry : Uuid × Link) :
    P (validateLink s acc entry).1 ↔ P acc.1 ∧ LinkSound s entry.2 := by
  have hpushIf (report : ValidationReport) (c : Bool) (issue : ValidationIssue)
      (hissue : issue.linkId.isSome) : P (report.pushIf c issue) ↔ P report ∧ c = false := by
    cases c with
    | false => simp [ValidationReport.pushIf]
    | true => simp [ValidationReport.pushIf, hpush report issue hissue]
  obtain ⟨linkId, link⟩ := entry
  unfold validateLink LinkSound
  cases hsrc : s.portAt link.sourceNode link.sourcePort with
  | none => simp [hsrc, hpush]
  | some src =>
      cases htgt : s.portAt link.targetNode link.targetPort with
      | none => simp [hsrc, htgt, hpush]
      | some tgt => simp [hsrc, htgt, checkPorts, hpushIf, and_assoc]

theorem valid_validateLink (acc : ValidationReport × Incoming) (entry : Uuid × Link) :
    (validateLink s acc entry).1.valid = true ↔
      acc.1.valid = true ∧ LinkSound s entry.2 :=
  validateLink_iff (P := fun report => report.valid = true) (fun _ _ _ => by simp) acc entry

theorem valid_foldl_link (links : List (Uuid × Link)) (acc : ValidationReport × Incoming) :
    (links.foldl (validateLink s) acc).1.valid = true ↔
      acc.1.valid = true ∧ ∀ entry ∈ links, LinkSound s entry.2 :=
  foldl_iff (P := fun acc => acc.1.valid = true) valid_validateLink links acc

theorem incoming_validateLink (acc : ValidationReport × Incoming) {entry : Uuid × Link}
    (h : LinkSound s entry.2) (key : Uuid × Uuid) :
    (validateLink s acc entry).2[key]?.getD 0 =
      acc.2[key]?.getD 0 +
        if (entry.2.targetNode, entry.2.targetPort) = key then 1 else 0 := by
  obtain ⟨linkId, link⟩ := entry
  obtain ⟨src, tgt, hsrc, htgt, -⟩ := h
  unfold validateLink
  simp only [hsrc, htgt]
  rw [Maps.getElem?_insert_ite]
  by_cases hkey : key = (link.targetNode, link.targetPort)
  · simp [hkey]
  · simp [hkey, Ne.symm hkey]

theorem incoming_foldl_link (links : List (Uuid × Link)) (acc : ValidationReport × Incoming)
    (h : ∀ entry ∈ links, LinkSound s entry.2) (key : Uuid × Uuid) :
    (links.foldl (validateLink s) acc).2[key]?.getD 0 =
      acc.2[key]?.getD 0 +
        links.countP fun entry => (entry.2.targetNode, entry.2.targetPort) = key := by
  induction links generalizing acc with
  | nil => rfl
  | cons entry links ih =>
      rw [List.forall_mem_cons] at h
      rw [List.foldl_cons, ih _ h.2, incoming_validateLink _ h.1, List.countP_cons, add_assoc,
        add_comm (ite _ _ _)]
      simp only [decide_eq_true_eq]

theorem valid_validateNode (incoming : Incoming) (report : ValidationReport)
    (entry : Uuid × GraphNode) :
    (validateNode incoming report entry).valid = true ↔
      report.valid = true ∧ ∀ port ∈ entry.2.inputs, port.required = true →
        incoming[(entry.1, port.id)]?.getD 0 ≠ 0 := by
  have hport (report : ValidationReport) (port : PortDef) :
      (validatePort incoming entry.1 report port).valid = true ↔
        report.valid = true ∧ incoming[(entry.1, port.id)]?.getD 0 ≠ 0 := by
    rw [validatePort, ValidationReport.valid_pushIf, Bool.and_eq_true]
    simp
  have hports := foldl_iff (P := fun report => report.valid = true) hport
    (entry.2.inputs.filter PortDef.required) report
  simp only [List.mem_filter, and_imp] at hports
  exact hports

theorem valid_foldl_node (incoming : Incoming) (nodes : List (Uuid × GraphNode))
    (report : ValidationReport) :
    (nodes.foldl (validateNode incoming) report).valid = true ↔
      report.valid = true ∧ ∀ entry ∈ nodes, ∀ port ∈ entry.2.inputs, port.required = true →
        incoming[(entry.1, port.id)]?.getD 0 ≠ 0 :=
  foldl_iff (P := fun report => report.valid = true) (valid_validateNode incoming) nodes report

theorem valid_checks (s : FlowGraphSchema) :
    let linkChecks := s.links.toList.foldl (validateLink s) (.new, ∅)
    (s.nodes.toList.foldl (validateNode linkChecks.2) linkChecks.1).valid = true ↔
      LinksSound s ∧ InputsConnected s := by
  intro linkChecks
  have hlinks : linkChecks.1.valid = true ↔ LinksSound s := by
    rw [valid_foldl_link, LinksSound, FlowGraphSchema.linkList, List.forall_mem_map]
    exact and_iff_right rfl
  rw [valid_foldl_node, hlinks]
  refine and_congr_right fun hsound => ?_
  have hentries : ∀ entry ∈ s.links.toList, LinkSound s entry.2 := by
    intro entry hentry
    exact hsound entry.2 (List.mem_map_of_mem hentry)
  have hcount : ∀ nodeId portId, linkChecks.2[(nodeId, portId)]?.getD 0 ≠ 0 ↔
      ∃ l ∈ s.linkList, l.targetNode = nodeId ∧ l.targetPort = portId := by
    intro nodeId portId
    rw [incoming_foldl_link _ _ hentries, FlowGraphSchema.linkList]
    simp only [List.mem_map, exists_exists_and_eq_and]
    simp [List.countP_eq_zero]
  constructor
  · intro h nodeId node hnode port hport hrequired
    exact (hcount _ _).mp (h (nodeId, node) (Maps.mem_toList.mpr hnode) port hport hrequired)
  · rintro h ⟨nodeId, node⟩ hentry port hport hrequired
    exact (hcount _ _).mpr (h nodeId node (Maps.mem_toList.mp hentry) port hport hrequired)

theorem LinkSound.endpointsExist {l : Link} (h : LinkSound s l) :
    s.nodes.contains l.sourceNode = true ∧ s.nodes.contains l.targetNode = true := by
  obtain ⟨src, tgt, hsrc, htgt, -⟩ := h
  obtain ⟨source, hsource, -⟩ := Option.bind_eq_some_iff.mp hsrc
  obtain ⟨target, htarget, -⟩ := Option.bind_eq_some_iff.mp htgt
  rw [Std.ExtTreeMap.contains_eq_isSome_getElem?, Std.ExtTreeMap.contains_eq_isSome_getElem?,
    hsource, htarget]
  exact ⟨rfl, rfl⟩

theorem validate_valid_iff (g : FlowGraph) :
    ∃ report, g.validate = .ok report ∧
      (report.valid = true ↔ (LinksSound g.schema ∧ InputsConnected g.schema) ∧
        detectCycle g.schema = .ok (.ok ())) := by
  have hchecks := valid_checks g.schema
  dsimp only at hchecks
  unfold FlowGraph.validate
  rcases detectCycle_spec g.schema with ⟨hok, -⟩ | ⟨path, hcycle, -⟩
  · refine ⟨_, by rw [hok], ?_⟩
    rw [hchecks, hok]
    simp
  · refine ⟨_, by rw [hcycle], ?_⟩
    rw [hcycle]
    simp

end Report

/-- Where `plan` hands out an order, `validate` accepts exactly if every link is sound and
every required input port has a link. -/
theorem plan_validates_iff (g : FlowGraph) (dimensionId : DimensionId) (order : List Uuid)
    (hplan : NodePlannerApi.plan g dimensionId = .ok (.ok order)) :
    NodePlannerApi.validate g dimensionId = .ok (.ok ()) ↔
      LinksSound g.schema ∧ InputsConnected g.schema := by
  unfold NodePlannerApi.plan at hplan
  split at hplan
  · cases hplan
  · next hdim =>
      have horder : ∃ order, topologicalOrder g.schema = .ok (.ok order) := by
        split at hplan
        · cases hplan
        · cases hplan
        · next order' hrun => exact ⟨order', hrun⟩
      obtain ⟨report, hreport, hvalid⟩ := validate_valid_iff g
      have haccept : NodePlannerApi.validate g dimensionId = .ok (.ok ()) ↔
          report.valid = true := by
        unfold NodePlannerApi.validate
        rw [if_neg hdim, hreport]
        cases hv : report.valid <;> simp [hv]
      rw [haccept, hvalid]
      refine and_iff_left_of_imp fun ⟨hsound, _⟩ => ?_
      have hjoin : LinksJoinNodes g.schema := fun l hl => (hsound l hl).endpointsExist
      rw [detectCycle_ok_iff g.schema fun l hl => (hjoin l hl).1]
      exact (topologicalOrder_ok_iff g.schema hjoin).mp horder

/-- The two linked nodes as a graph. -/
def plannedSample : FlowGraph :=
  { schema := sampleSchema, executionStates := ∅ }

theorem plan_validates_iff_sample :
    NodePlannerApi.plan plannedSample 7 = .ok (.ok [2, 3]) ∧
      NodePlannerApi.validate plannedSample 7 = .ok (.ok ()) := by
  have hplan : NodePlannerApi.plan plannedSample 7 = .ok (.ok [2, 3]) := by decide
  refine ⟨hplan, (plan_validates_iff plannedSample 7 [2, 3] hplan).mpr ⟨?_, ?_⟩⟩
  · intro l hl
    obtain rfl : l = Link.new 4 2 11 3 10 := by
      have hlinks : sampleSchema.linkList = [Link.new 4 2 11 3 10] := by decide
      change l ∈ sampleSchema.linkList at hl
      rw [hlinks, List.mem_singleton] at hl
      exact hl
    exact ⟨PortDef.new 11 "out" .output .number, PortDef.new 10 "in" .input .number,
      by decide, by decide, rfl, rfl, rfl⟩
  · intro nodeId node hnode port hport hrequired
    have hoptional : ∀ entry ∈ sampleSchema.nodes.toList, ∀ port ∈ entry.2.inputs,
        port.required = false := by decide
    rw [hoptional (nodeId, node) (Maps.mem_toList.mpr hnode) port hport] at hrequired
    cases hrequired

def requiringNode : GraphNode :=
  { GraphNode.new 2 "math.neg" "node" 0 with
    ports := Std.ExtTreeMap.empty.insert 10
      { PortDef.new 10 "in" .input .number with required := true } }

/-- A node whose required input is not connected has a plan and does not validate. -/
theorem planned_without_input :
    ¬ (NodePlannerApi.plan ((FlowGraph.new 1 7).addNode requiringNode).2 7 = .ok (.ok [2]) →
      NodePlannerApi.validate ((FlowGraph.new 1 7).addNode requiringNode).2 7 = .ok (.ok ())) := by
  intro h
  have hvalid := h (by decide)
  revert hvalid
  decide

end Graph

end InfinityOS
