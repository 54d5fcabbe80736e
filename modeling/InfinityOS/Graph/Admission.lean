import InfinityOS.Graph.Integrity
import InfinityOS.Graph.Validation

/-!
# Valid graphs and admitted links

`validate` accepts exactly the well-formed graphs. The issues of its report that name a
link are about unsound links. `add_link` looks at the types of the two ports and not at
their directions, so a link that it admits may give such an issue.
-/

namespace InfinityOS

namespace Graph

open Paths

/-- Every node stores its ports under their own ids. -/
def PortsKeyed (s : FlowGraphSchema) : Prop :=
  ∀ (nodeId : Uuid) (node : GraphNode), s.nodes[nodeId]? = some node →
    ∀ (portId : Uuid) (port : PortDef), node.ports[portId]? = some port → port.id = portId

/-- All links lead from an existing output port to an existing input port of a compatible
type, every required input port has an incoming link, and no links form a cycle. -/
structure WellFormed (s : FlowGraphSchema) : Prop where
  links : ∀ l ∈ s.linkList, LinkSound s l
  inputs : ∀ nodeId portId port, s.portAt nodeId portId = some port →
    port.direction = .input → port.required = true →
      ∃ l ∈ s.linkList, l.targetNode = nodeId ∧ l.targetPort = portId
  acyclic : Acyclic (Joins s)

section Valid

variable {s : FlowGraphSchema}

theorem portAt_eq_some {nodeId portId : Uuid} {port : PortDef} :
    s.portAt nodeId portId = some port ↔
      ∃ node, s.nodes[nodeId]? = some node ∧ node.ports[portId]? = some port := by
  rw [FlowGraphSchema.portAt, Option.bind_eq_some_iff]

theorem mem_inputs {node : GraphNode} {port : PortDef} :
    port ∈ node.inputs ↔
      (∃ portId : Uuid, node.ports[portId]? = some port) ∧ port.direction = .input := by
  rw [GraphNode.inputs, List.mem_filter, Maps.mem_values, decide_eq_true_eq]

theorem PortsKeyed.inputsConnected_iff (h : PortsKeyed s) :
    InputsConnected s ↔ ∀ nodeId portId port, s.portAt nodeId portId = some port →
      port.direction = .input → port.required = true →
        ∃ l ∈ s.linkList, l.targetNode = nodeId ∧ l.targetPort = portId := by
  constructor
  · intro hconnected nodeId portId port hport hdirection hrequired
    obtain ⟨node, hnode, hget⟩ := portAt_eq_some.mp hport
    rw [← h nodeId node hnode portId port hget]
    exact hconnected nodeId node hnode port (mem_inputs.mpr ⟨⟨portId, hget⟩, hdirection⟩)
      hrequired
  · intro hinputs nodeId node hnode port hmem hrequired
    obtain ⟨⟨portId, hget⟩, hdirection⟩ := mem_inputs.mp hmem
    rw [h nodeId node hnode portId port hget]
    exact hinputs nodeId portId port (portAt_eq_some.mpr ⟨node, hnode, hget⟩) hdirection
      hrequired

end Valid

/-- `validate` reports a valid graph exactly if the graph is well formed. -/
theorem validate_iff_wellFormed (g : FlowGraph) (hports : PortsKeyed g.schema) :
    ∃ report, g.validate = .ok report ∧ (report.valid = true ↔ WellFormed g.schema) := by
  obtain ⟨report, hreport, hvalid⟩ := validate_valid_iff g
  refine ⟨report, hreport, hvalid.trans ?_⟩
  rw [hports.inputsConnected_iff]
  constructor
  · rintro ⟨⟨hlinks, hinputs⟩, hcycle⟩
    have hsources := fun l hl => (hlinks l hl).endpointsExist.1
    exact ⟨hlinks, hinputs, (detectCycle_ok_iff g.schema hsources).mp hcycle⟩
  · rintro ⟨hlinks, hinputs, hacyclic⟩
    have hsources := fun l hl => (hlinks l hl).endpointsExist.1
    exact ⟨⟨hlinks, hinputs⟩, (detectCycle_ok_iff g.schema hsources).mpr hacyclic⟩

theorem portsKeyed_plannedSample : PortsKeyed plannedSample.schema := by
  intro nodeId node hnode portId port hport
  have hkeyed : ∀ entry ∈ plannedSample.schema.nodes.toList,
      ∀ slot ∈ entry.2.ports.toList, slot.2.id = slot.1 := by decide
  exact hkeyed (nodeId, node) (Maps.mem_toList.mpr hnode) (portId, port)
    (Maps.mem_toList.mpr hport)

theorem validate_iff_wellFormed_sample : WellFormed plannedSample.schema := by
  obtain ⟨report, hreport, hvalid⟩ :=
    validate_iff_wellFormed plannedSample portsKeyed_plannedSample
  have hrun : plannedSample.validate = .ok .new := by decide
  rw [hreport] at hrun
  exact hvalid.mp (by rw [Except.ok.inj hrun]; rfl)

/-! ## The issues of links -/

/-- No issue of the report is about a link. -/
def ValidationReport.LinksClean (report : ValidationReport) : Prop :=
  ∀ issue ∈ report.issues, issue.linkId = none

instance (report : ValidationReport) : Decidable report.LinksClean :=
  inferInstanceAs (Decidable (∀ issue ∈ report.issues, issue.linkId = none))

namespace ValidationReport

@[simp] theorem linksClean_push (report : ValidationReport) (issue : ValidationIssue) :
    (report.push issue).LinksClean ↔ report.LinksClean ∧ issue.linkId = none := by
  simp [LinksClean, push, or_imp, forall_and]

@[simp] theorem linksClean_pushIf (report : ValidationReport) (c : Bool)
    (issue : ValidationIssue) :
    (report.pushIf c issue).LinksClean ↔
      report.LinksClean ∧ (c = true → issue.linkId = none) := by
  cases c <;> simp [pushIf]

end ValidationReport

section Issues

variable {s : FlowGraphSchema}

theorem linksClean_validateLink (acc : ValidationReport × Incoming) (entry : Uuid × Link) :
    (validateLink s acc entry).1.LinksClean ↔ acc.1.LinksClean ∧ LinkSound s entry.2 := by
  refine validateLink_iff (fun report issue hissue hclean => ?_) acc entry
  rw [((report.linksClean_push issue).mp hclean).2] at hissue
  cases hissue

theorem linksClean_foldl_link (links : List (Uuid × Link))
    (acc : ValidationReport × Incoming) :
    (links.foldl (validateLink s) acc).1.LinksClean ↔
      acc.1.LinksClean ∧ ∀ entry ∈ links, LinkSound s entry.2 :=
  foldl_iff (P := fun acc => acc.1.LinksClean) linksClean_validateLink links acc

theorem linksClean_foldl_node (incoming : Incoming) (nodes : List (Uuid × GraphNode))
    (report : ValidationReport) :
    (nodes.foldl (validateNode incoming) report).LinksClean ↔ report.LinksClean := by
  have hport (nodeId : Uuid) (report : ValidationReport) (port : PortDef) :
      (validatePort incoming nodeId report port).LinksClean ↔ report.LinksClean ∧ True := by
    rw [validatePort]
    simp
  have hnode (report : ValidationReport) (entry : Uuid × GraphNode) :
      (validateNode incoming report entry).LinksClean ↔ report.LinksClean ∧ True := by
    rw [validateNode, foldl_iff (hport entry.1)]
    simp
  rw [foldl_iff hnode]
  simp

theorem validate_linksClean_iff (g : FlowGraph) :
    ∃ report, g.validate = .ok report ∧ (report.LinksClean ↔ LinksSound g.schema) := by
  have hlinks : (g.schema.links.toList.foldl (validateLink g.schema) (.new, ∅)).1.LinksClean ↔
      LinksSound g.schema := by
    rw [linksClean_foldl_link, LinksSound, FlowGraphSchema.linkList, List.forall_mem_map]
    simp [ValidationReport.LinksClean, ValidationReport.new]
  unfold FlowGraph.validate
  rcases detectCycle_spec g.schema with ⟨hok, -⟩ | ⟨path, hcycle, -⟩
  · rw [hok]
    exact ⟨_, rfl, (linksClean_foldl_node _ _ _).trans hlinks⟩
  · rw [hcycle]
    refine ⟨_, rfl, ?_⟩
    rw [ValidationReport.linksClean_push, linksClean_foldl_node, hlinks]
    simp

end Issues

/-! ## Admitted links -/

/-- The link leads from an output port to an input port. -/
def Directed (s : FlowGraphSchema) (link : Link) : Prop :=
  ∀ src tgt, s.portAt link.sourceNode link.sourcePort = some src →
    s.portAt link.targetNode link.targetPort = some tgt →
      src.direction = .output ∧ tgt.direction = .input

section Admission

variable {s : FlowGraphSchema} {link : Link}

theorem portAt_eq_bind (s : FlowGraphSchema) (v p : Uuid) :
    s.portAt v p = (s.portsOf v).bind fun ports => ports[p]? := by
  unfold FlowGraphSchema.portAt FlowGraphSchema.portsOf
  cases s.nodes[v]? <;> rfl

theorem Fits.linkSound_iff (h : Fits s link) : LinkSound s link ↔ Directed s link := by
  obtain ⟨src, tgt, p, q, hsrc, hp, htgt, hq, hcompatible⟩ := h
  have hsource : s.portAt link.sourceNode link.sourcePort = some p := by
    rw [portAt_eq_bind, hsrc, Option.bind_some, hp]
  have htarget : s.portAt link.targetNode link.targetPort = some q := by
    rw [portAt_eq_bind, htgt, Option.bind_some, hq]
  simp [LinkSound, Directed, hsource, htarget, hcompatible]

theorem linksSound_putLink_iff (h : LinksSound s) (hfits : Fits s link) :
    LinksSound (s.putLink link) ↔ Directed s link := by
  rw [← hfits.linkSound_iff]
  constructor
  · intro hsound
    refine hsound link (mem_linkList.mpr ⟨link.id, ?_⟩)
    rw [FlowGraphSchema.putLink, Maps.getElem?_insert_ite, if_pos rfl]
  · intro hlink l hl
    rcases mem_linkList_putLink s hl with rfl | hold
    · exact hlink
    · exact h l hold

end Admission

/-- After `add_link` admits a link to a graph without issues of links, there is still no
such issue exactly if the link leads from an output port to an input port. -/
theorem addLink_linksClean_iff (g : FlowGraph) (link : Link)
    (hclean : ∃ report, g.validate = .ok report ∧ report.LinksClean)
    (hadmitted : (g.addLink link).1 = .ok link.id) :
    ∃ report, (g.addLink link).2.validate = .ok report ∧
      (report.LinksClean ↔ Directed g.schema link) := by
  obtain ⟨before, hbefore, hsound⟩ := validate_linksClean_iff g
  obtain ⟨after, hafter, hiff⟩ := validate_linksClean_iff (g.addLink link).2
  refine ⟨after, hafter, hiff.trans ?_⟩
  have hlinks : LinksSound g.schema := by
    obtain ⟨report, hreport, hclean⟩ := hclean
    rw [hbefore] at hreport
    exact hsound.mp (Except.ok.inj hreport ▸ hclean)
  unfold FlowGraph.addLink at hadmitted ⊢
  split at hadmitted
  · cases hadmitted
  · next hcheck => exact linksSound_putLink_iff hlinks (checkLink_iff.mp hcheck)

/-- Two nodes without links. -/
def unlinkedSample : FlowGraph :=
  (((FlowGraph.new 1 7).addNode (sampleNode 2)).2.addNode (sampleNode 3)).2

theorem addLink_linksClean_iff_sample :
    ∃ report, (unlinkedSample.addLink (Link.new 4 2 11 3 10)).2.validate = .ok report ∧
      report.LinksClean := by
  obtain ⟨report, hreport, hclean⟩ := addLink_linksClean_iff unlinkedSample
    (Link.new 4 2 11 3 10)
    ⟨.new, by decide, by simp [ValidationReport.LinksClean, ValidationReport.new]⟩ (by decide)
  refine ⟨report, hreport, hclean.mpr fun src tgt hsrc htgt => ?_⟩
  cases hsrc
  cases htgt
  exact ⟨rfl, rfl⟩

/-- A link from an input port to an input port is admitted and reported. -/
theorem admitted_wrong_direction :
    ¬ ∀ report, unlinkedSample.validate = .ok .new →
      (unlinkedSample.addLink (Link.new 4 2 10 3 10)).1 = .ok 4 →
      (unlinkedSample.addLink (Link.new 4 2 10 3 10)).2.validate = .ok report →
        report.LinksClean := by
  intro h
  have hclean := h _ (by decide) (by decide) rfl
  revert hclean
  decide

end Graph

end InfinityOS
