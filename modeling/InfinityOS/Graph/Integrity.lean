import InfinityOS.Transition.Run
import InfinityOS.Graph.Order

/-!
# Link integrity

A property of links that only looks at the ports of the two endpoints is an
`EndpointRule`. Every edit keeps such a property of all links, provided that the
two edits the graph does not check are made with care: a node added under an id
in use must fit the links already attached to it, and a link added by a patch
must have the property.
-/

namespace InfinityOS

namespace Graph

open Transition

def FlowGraphSchema.portsOf (s : FlowGraphSchema) (v : Uuid) :
    Option (BTreeMap Uuid PortDef) :=
  s.nodes[v]?.map GraphNode.ports

def EndpointsExist (s : FlowGraphSchema) (l : Link) : Prop :=
  s.nodes.contains l.sourceNode = true ∧ s.nodes.contains l.targetNode = true

/-- Both endpoints are nodes that have the named ports, of compatible types. -/
def Fits (s : FlowGraphSchema) (l : Link) : Prop :=
  ∃ src tgt p q, s.portsOf l.sourceNode = some src ∧ src[l.sourcePort]? = some p ∧
    s.portsOf l.targetNode = some tgt ∧ tgt[l.targetPort]? = some q ∧
    p.dataType.isCompatibleWith q.dataType = true

/-- Every link of the schema has the property `P`. -/
def AllLinks (P : FlowGraphSchema → Link → Prop) (s : FlowGraphSchema) : Prop :=
  ∀ l ∈ s.linkList, P s l

/-- `P` requires both endpoints, depends on their ports only, and is established by
the checks of `add_link`. -/
structure EndpointRule (P : FlowGraphSchema → Link → Prop) : Prop where
  present : ∀ {s l}, P s l → EndpointsExist s l
  frame : ∀ {s s' l}, s'.portsOf l.sourceNode = s.portsOf l.sourceNode →
    s'.portsOf l.targetNode = s.portsOf l.targetNode → P s l → P s' l
  checked : ∀ {s l}, s.checkLink l = .ok () → P s l

theorem contains_iff_portsOf {s : FlowGraphSchema} {v : Uuid} :
    s.nodes.contains v = true ↔ (s.portsOf v).isSome := by
  rw [FlowGraphSchema.portsOf, Option.isSome_map,
    Std.ExtTreeMap.contains_eq_isSome_getElem?]

theorem checkLink_iff {s : FlowGraphSchema} {l : Link} :
    s.checkLink l = .ok () ↔ Fits s l := by
  unfold FlowGraphSchema.checkLink Fits FlowGraphSchema.portsOf
  cases hsrc : s.nodes[l.sourceNode]? with
  | none => simp
  | some src =>
      cases hp : src.ports[l.sourcePort]? with
      | none => simp [hp]
      | some p =>
          cases htgt : s.nodes[l.targetNode]? with
          | none => simp [hp]
          | some tgt =>
              cases hq : tgt.ports[l.targetPort]? with
              | none => simp [hp, hq]
              | some q => simp [hp, hq]

theorem Fits.endpointsExist {s : FlowGraphSchema} {l : Link} (h : Fits s l) :
    EndpointsExist s l := by
  obtain ⟨src, tgt, p, q, hsrc, -, htgt, -, -⟩ := h
  constructor
  · rw [contains_iff_portsOf, hsrc]
    rfl
  · rw [contains_iff_portsOf, htgt]
    rfl

theorem endpointRule_fits : EndpointRule Fits where
  present h := h.endpointsExist
  frame hsrc htgt h := by
    unfold Fits at h ⊢
    rwa [hsrc, htgt]
  checked := checkLink_iff.mp

theorem endpointRule_endpointsExist : EndpointRule EndpointsExist where
  present h := h
  frame hsrc htgt h := by
    unfold EndpointsExist at h ⊢
    rwa [contains_iff_portsOf, contains_iff_portsOf, hsrc, htgt, ← contains_iff_portsOf,
      ← contains_iff_portsOf]
  checked h := (checkLink_iff.mp h).endpointsExist

/-! ## What the edits do to ports and links -/

theorem mem_linkList {s : FlowGraphSchema} {l : Link} :
    l ∈ s.linkList ↔ ∃ id : Uuid, s.links[id]? = some l := by
  rw [FlowGraphSchema.linkList, List.mem_map]
  constructor
  · rintro ⟨⟨id, l'⟩, hmem, rfl⟩
    exact ⟨id, Maps.mem_toList.mp hmem⟩
  · rintro ⟨id, hget⟩
    exact ⟨(id, l), Maps.mem_toList.mpr hget, rfl⟩

section Effects

variable (s : FlowGraphSchema)

theorem portsOf_putNode (node : GraphNode) (v : Uuid) :
    (s.putNode node).portsOf v = if v = node.id then some node.ports else s.portsOf v := by
  rw [FlowGraphSchema.portsOf, FlowGraphSchema.putNode, Maps.getElem?_insert_ite]
  split <;> rfl

theorem portsOf_dropNode {id v : Uuid} (h : v ≠ id) :
    (s.dropNode id).portsOf v = s.portsOf v := by
  rw [FlowGraphSchema.portsOf, FlowGraphSchema.dropNode, Maps.getElem?_erase_ite, if_neg h]
  rfl

theorem mem_linkList_dropNode {id : Uuid} {l : Link} :
    l ∈ (s.dropNode id).linkList ↔
      l ∈ s.linkList ∧ l.sourceNode ≠ id ∧ l.targetNode ≠ id := by
  rw [mem_linkList, mem_linkList, FlowGraphSchema.dropNode, FlowGraphSchema.detachLinks]
  simp only [Std.ExtTreeMap.getElem?_filter', Option.filter_eq_some_iff, Bool.and_eq_true,
    decide_eq_true_eq]
  constructor
  · rintro ⟨i, hget, hne⟩
    exact ⟨⟨i, hget⟩, hne⟩
  · rintro ⟨⟨i, hget⟩, hne⟩
    exact ⟨i, hget, hne⟩

theorem mem_linkList_putLink {link l : Link} (h : l ∈ (s.putLink link).linkList) :
    l = link ∨ l ∈ s.linkList := by
  rw [mem_linkList] at h
  obtain ⟨i, hget⟩ := h
  rw [FlowGraphSchema.putLink, Maps.getElem?_insert_ite] at hget
  split at hget
  · exact .inl (Option.some.inj hget).symm
  · exact .inr (mem_linkList.mpr ⟨i, hget⟩)

theorem mem_linkList_dropLink {id : Uuid} {l : Link} (h : l ∈ (s.dropLink id).linkList) :
    l ∈ s.linkList := by
  rw [mem_linkList] at h
  obtain ⟨i, hget⟩ := h
  rw [FlowGraphSchema.dropLink, Maps.getElem?_erase_ite] at hget
  split at hget
  · cases hget
  · exact mem_linkList.mpr ⟨i, hget⟩

end Effects

/-! ## One operation of a patch -/

def AddsGoodLink (P : FlowGraphSchema → Link → Prop) (s : FlowGraphSchema) :
    GraphPatchOp → Prop
  | .addLink link => P s link
  | _ => True

section Rule

variable {P : FlowGraphSchema → Link → Prop} {s s' : FlowGraphSchema}

theorem AllLinks.of_frame (hP : EndpointRule P) (h : AllLinks P s)
    (hlinks : ∀ l ∈ s'.linkList, l ∈ s.linkList)
    (hports : ∀ v, s'.portsOf v = s.portsOf v) : AllLinks P s' := by
  intro l hl
  exact hP.frame (hports _) (hports _) (h l (hlinks l hl))

theorem AllLinks.dropNode (hP : EndpointRule P) (h : AllLinks P s) (id : Uuid) :
    AllLinks P (s.dropNode id) := by
  intro l hl
  obtain ⟨hold, hsrc, htgt⟩ := (mem_linkList_dropNode s).mp hl
  exact hP.frame (portsOf_dropNode s hsrc) (portsOf_dropNode s htgt) (h l hold)

theorem AllLinks.putLink (hP : EndpointRule P) (h : AllLinks P s) {link : Link}
    (hlink : P s link) : AllLinks P (s.putLink link) := by
  intro l hl
  rcases mem_linkList_putLink s hl with rfl | hold
  · exact hP.frame (s := s) rfl rfl hlink
  · exact hP.frame (s := s) rfl rfl (h l hold)

theorem AllLinks.dropLink (hP : EndpointRule P) (h : AllLinks P s) (id : Uuid) :
    AllLinks P (s.dropLink id) :=
  h.of_frame hP (fun _ => mem_linkList_dropLink s) fun _ => rfl

theorem AllLinks.putNode (hP : EndpointRule P) (h : AllLinks P s) {node : GraphNode}
    (hnode : ∀ l ∈ s.linkList, l.sourceNode = node.id ∨ l.targetNode = node.id →
      P (s.putNode node) l) : AllLinks P (s.putNode node) := by
  intro l hl
  by_cases hattached : l.sourceNode = node.id ∨ l.targetNode = node.id
  · exact hnode l hl hattached
  · rw [not_or] at hattached
    refine hP.frame ?_ ?_ (h l hl)
    · rw [portsOf_putNode, if_neg hattached.1]
    · rw [portsOf_putNode, if_neg hattached.2]

theorem AllLinks.not_attached (hP : EndpointRule P) (h : AllLinks P s) {id : Uuid}
    (hid : ¬ s.nodes.contains id = true) {l : Link} (hl : l ∈ s.linkList) :
    ¬ (l.sourceNode = id ∨ l.targetNode = id) := by
  rintro (rfl | rfl)
  · exact hid (hP.present (h l hl)).1
  · exact hid (hP.present (h l hl)).2

theorem AllLinks.updateNode (hP : EndpointRule P) (h : AllLinks P s) {id : Uuid}
    {f : GraphNode → GraphNode} (hok : s.updateNode id f = .ok s')
    (hf : ∀ node, (f node).ports = node.ports) : AllLinks P s' := by
  unfold FlowGraphSchema.updateNode at hok
  cases hget : s.nodes[id]? with
  | none =>
      rw [hget] at hok
      cases hok
  | some node =>
      rw [hget] at hok
      obtain rfl := Except.ok.inj hok
      refine h.of_frame hP (fun _ hl => hl) fun v => ?_
      rw [FlowGraphSchema.portsOf, FlowGraphSchema.portsOf, Maps.getElem?_insert_ite]
      split
      · next hv => rw [hv, hget, Option.map_some, Option.map_some, hf]
      · rfl

theorem AllLinks.updateGroup (hP : EndpointRule P) (h : AllLinks P s) {id : Uuid}
    {f : Group → Group} (hok : s.updateGroup id f = .ok s') : AllLinks P s' := by
  unfold FlowGraphSchema.updateGroup at hok
  cases hget : s.groups[id]? with
  | none =>
      rw [hget] at hok
      cases hok
  | some group =>
      rw [hget] at hok
      obtain rfl := Except.ok.inj hok
      exact h.of_frame hP (fun _ hl => hl) fun _ => rfl

theorem ok_of_refused {c : Prop} [Decidable c] {e : FlowGraphError} {t : FlowGraphSchema}
    (hok : (if c then .error e else .ok t : Except FlowGraphError FlowGraphSchema) = .ok s') :
    ¬ c ∧ t = s' := by
  split at hok
  · cases hok
  · next h => exact ⟨h, Except.ok.inj hok⟩

theorem ok_of_required {c : Prop} [Decidable c] {e : FlowGraphError} {t : FlowGraphSchema}
    (hok : (if c then .ok t else .error e : Except FlowGraphError FlowGraphSchema) = .ok s') :
    t = s' := by
  split at hok
  · exact Except.ok.inj hok
  · cases hok

theorem AllLinks.applyOpToSchema (hP : EndpointRule P) (h : AllLinks P s)
    {op : GraphPatchOp} (hop : AddsGoodLink P s op) (hok : s.applyOpToSchema op = .ok s') :
    AllLinks P s' := by
  cases op with
  | updateNodeLabel id newLabel => exact h.updateNode hP hok fun _ => rfl
  | updateNodeParams id params => exact h.updateNode hP hok fun _ => rfl
  | moveNode id position => exact h.updateNode hP hok fun _ => rfl
  | addNodeToGroup nodeId groupId => exact h.updateGroup hP hok
  | removeNodeFromGroup nodeId groupId => exact h.updateGroup hP hok
  | addNode node =>
      obtain ⟨hid, rfl⟩ := ok_of_refused hok
      exact h.putNode hP fun l hl hattached => absurd hattached (h.not_attached hP hid hl)
  | removeNode id =>
      obtain rfl := ok_of_required hok
      exact h.dropNode hP id
  | addLink link =>
      obtain ⟨-, rfl⟩ := ok_of_refused hok
      exact h.putLink hP hop
  | removeLink id =>
      obtain rfl := ok_of_required hok
      exact h.dropLink hP id
  | addGroup group =>
      obtain ⟨-, rfl⟩ := ok_of_refused hok
      exact h.of_frame hP (fun _ hl => hl) fun _ => rfl
  | removeGroup id =>
      obtain rfl := ok_of_required hok
      exact h.of_frame hP (fun _ hl => hl) fun _ => rfl
  | addSubgraph subgraph =>
      obtain ⟨-, rfl⟩ := ok_of_refused hok
      exact h.of_frame hP (fun _ hl => hl) fun _ => rfl
  | removeSubgraph id =>
      obtain rfl := ok_of_required hok
      exact h.of_frame hP (fun _ hl => hl) fun _ => rfl

/-- Every operation of a patch is made on a working copy that admits it. -/
def AlongOps (P : FlowGraphSchema → GraphPatchOp → Prop) :
    FlowGraphSchema → List GraphPatchOp → Prop
  | _, [] => True
  | s, op :: ops => P s op ∧ ∀ s', s.applyOpToSchema op = .ok s' → AlongOps P s' ops

theorem AllLinks.applyOps (hP : EndpointRule P) (h : AllLinks P s) {ops : List GraphPatchOp}
    (hops : AlongOps (AddsGoodLink P) s ops) (hok : s.applyOps ops = .ok s') :
    AllLinks P s' := by
  induction ops generalizing s with
  | nil =>
      obtain rfl := Except.ok.inj hok
      exact h
  | cons op ops ih =>
      rw [FlowGraphSchema.applyOps, List.foldlM_cons] at hok
      cases hop : s.applyOpToSchema op with
      | error e =>
          rw [hop] at hok
          cases hok
      | ok m =>
          rw [hop] at hok
          exact ih (h.applyOpToSchema hP hops.1 hop) (hops.2 m hop) hok

end Rule

/-! ## Runs -/

/-- The links that an edit leaves unchecked have the property: those attached to
the id of an added node, and those that a successful patch adds. -/
def KeepsLinks (P : FlowGraphSchema → Link → Prop) (g : FlowGraph) : Edit → Prop
  | .addNode node => ∀ l ∈ g.schema.linkList,
      l.sourceNode = node.id ∨ l.targetNode = node.id → P (g.schema.putNode node) l
  | .applyPatch patch => (g.applyPatch patch).1 = .ok () →
      AlongOps (AddsGoodLink P) g.schema patch.ops
  | _ => True

theorem AllLinks.step {P : FlowGraphSchema → Link → Prop} (hP : EndpointRule P)
    {g : FlowGraph} (h : AllLinks P g.schema) {edit : Edit} (hedit : KeepsLinks P g edit) :
    AllLinks P (g.step edit).2.schema := by
  have hcase := g.editCase edit
  generalize (g.step edit).2 = g' at hcase ⊢
  cases hcase with
  | addedNode node => exact h.putNode hP hedit
  | missingNode id hget => exact h
  | removedNode id node hget => exact h.dropNode hP id
  | refusedLink link => exact h
  | addedLink link hcheck => exact h.putLink hP (hP.checked hcheck)
  | missingLink id => exact h
  | removedLink id => exact h.dropLink hP id
  | addedGroup group => exact h.of_frame hP (fun _ hl => hl) fun _ => rfl
  | refusedRelation relation => exact h
  | addedRelation relation hfrom hto => exact h.of_frame hP (fun _ hl => hl) fun _ => rfl
  | failedPatch patch hfail => exact h
  | patched patch working hsuccess hok => exact h.applyOps hP (hedit hsuccess) hok

theorem allLinks_final {P : FlowGraphSchema → Link → Prop} (hP : EndpointRule P)
    (graphId : Uuid) (dim : DimensionId) (edits : List Edit)
    (hedits : Along (KeepsLinks P) FlowGraph.step (FlowGraph.new graphId dim) edits) :
    AllLinks P (final FlowGraph.step (FlowGraph.new graphId dim) edits).schema := by
  refine invariant_final (fun g => AllLinks P g.schema)
    (fun g edit h hedit => h.step hP hedit) ?_ hedits
  intro l hl
  obtain ⟨id, hget⟩ := mem_linkList.mp hl
  change (∅ : BTreeMap Uuid Link)[id]? = some l at hget
  simp at hget

/-- In every run whose added nodes fit the links already attached to their id, and
whose patches only add links that `add_link` would accept, every link joins two
nodes at existing ports of compatible types. -/
theorem links_fit (graphId : Uuid) (dim : DimensionId) (edits : List Edit)
    (hedits : Along (KeepsLinks Fits) FlowGraph.step (FlowGraph.new graphId dim) edits) :
    ∀ l ∈ (final FlowGraph.step (FlowGraph.new graphId dim) edits).schema.linkList,
      Fits (final FlowGraph.step (FlowGraph.new graphId dim) edits).schema l :=
  allLinks_final endpointRule_fits graphId dim edits hedits

/-- A linked node is added again, with the ports that its link needs and a further one, and a
patch adds a node and a link to it. -/
def sampleEdits : List Edit :=
  [.addNode (sampleNode 2), .addNode (sampleNode 3), .addLink (Link.new 4 2 11 3 10),
    .addNode { sampleNode 2 with
      ports := (sampleNode 2).ports.insert 12 (PortDef.new 12 "rest" .output .any) },
    .applyPatch (.new 5 "agent" 0 [.addNode (sampleNode 6), .addLink (Link.new 7 2 12 6 10)])]

theorem links_fit_sample :
    AllLinks Fits (final FlowGraph.step (FlowGraph.new 1 7) sampleEdits).schema ∧
      (final FlowGraph.step (FlowGraph.new 1 7) sampleEdits).schema.linkList =
        [Link.new 4 2 11 3 10, Link.new 7 2 12 6 10] := by
  have hnone : ∀ (g : FlowGraph) (node : GraphNode), g.schema.linkList = [] →
      KeepsLinks Fits g (.addNode node) := by
    intro g node hempty l hl
    rw [hempty] at hl
    cases hl
  refine ⟨links_fit 1 7 _ ⟨hnone _ _ (by decide), hnone _ _ (by decide), trivial, ?_, ?_, trivial⟩,
    by decide⟩
  · intro l hl _
    have hlinks : (final FlowGraph.step (FlowGraph.new 1 7) (sampleEdits.take 3)).schema.linkList =
        [Link.new 4 2 11 3 10] := by
      decide
    obtain rfl := List.mem_singleton.mp (hlinks ▸ hl)
    exact checkLink_iff.mp rfl
  · rintro -
    refine ⟨trivial, fun s hs => ⟨?_, fun _ _ => trivial⟩⟩
    cases hs
    exact checkLink_iff.mp rfl

/-- A patch links two nodes of which one does not exist. -/
theorem patch_adds_dangling_link :
    ¬ ∀ l ∈ (final FlowGraph.step (FlowGraph.new 1 7)
        [.addNode (sampleNode 3),
         .applyPatch (.new 5 "agent" 0 [.addLink (Link.new 4 9 11 3 10)])]).schema.linkList,
      Fits (final FlowGraph.step (FlowGraph.new 1 7)
        [.addNode (sampleNode 3),
         .applyPatch (.new 5 "agent" 0 [.addLink (Link.new 4 9 11 3 10)])]).schema l := by
  intro h
  have hfit := h (Link.new 4 9 11 3 10) (by decide)
  have hsource := hfit.endpointsExist.1
  revert hsource
  decide

end Graph

end InfinityOS
