import InfinityOS.Core.Maps
import InfinityOS.Graph.Types

/-!
# Expanding a template

A template declares parameters with an inheritance rule, a default and a flag `required`;
an instance brings overrides. `resolve_params` merges the two, `expand` gives every node of
the snapshot a fresh id and the resolved parameters that it has no value for. The flag
`required` is not read by either.
-/

namespace InfinityOS

namespace Instance

open InfinityOS.Graph (FlowGraphSchema GraphNode NodeProvenance)

inductive InstanceError where
  | templateReadOnly (id : Uuid)
  | frozenParam (templateId : Uuid) (param : String)
  deriving DecidableEq

inductive ParamInheritance where
  | frozen
  | overridable
  | instanceOnly
  deriving DecidableEq

structure ParamSchema where
  name : String
  description : String
  inheritance : ParamInheritance
  defaultValue : Option Json
  required : Bool

namespace ParamSchema

def overridable (name : String) (default : Json) : ParamSchema :=
  { name, description := "", inheritance := .overridable, defaultValue := some default,
    required := false }

def frozen (name : String) (value : Json) : ParamSchema :=
  { name, description := "", inheritance := .frozen, defaultValue := some value,
    required := false }

def instanceOnly (name : String) : ParamSchema :=
  { name, description := "", inheritance := .instanceOnly, defaultValue := none,
    required := true }

end ParamSchema

inductive LockPolicy where
  | editable
  | readOnly
  deriving DecidableEq

structure InstanceTemplate where
  id : Uuid
  version : UInt32
  name : String
  graphSnapshot : FlowGraphSchema
  paramSchema : BTreeMap String ParamSchema
  lockPolicy : LockPolicy

/-- `InstanceTemplate::new` with the generated id. -/
def InstanceTemplate.new (id : Uuid) (name : String) (graphSnapshot : FlowGraphSchema) :
    InstanceTemplate :=
  { id, version := 1, name, graphSnapshot, paramSchema := ∅, lockPolicy := .editable }

def InstanceTemplate.withParam (t : InstanceTemplate) (schema : ParamSchema) :
    InstanceTemplate :=
  { t with paramSchema := t.paramSchema.insert schema.name schema }

abbrev Params := BTreeMap String Json

def InstanceTemplate.isFrozen (t : InstanceTemplate) (key : String) : Bool :=
  match t.paramSchema[key]? with
  | none => false
  | some schema => decide (schema.inheritance = .frozen)

def InstanceTemplate.defaults (t : InstanceTemplate) : Params :=
  .ofList (t.paramSchema.values.filterMap fun s => s.defaultValue.map fun v => (s.name, v))

def InstanceTemplate.resolveParams (t : InstanceTemplate) (overrides : Params) :
    Except InstanceError Params :=
  if t.lockPolicy = .readOnly ∧ ¬ overrides.isEmpty then .error (.templateReadOnly t.id)
  else
    match overrides.keys.find? t.isFrozen with
    | some key => .error (.frozenParam t.id key)
    | none => .ok (overrides.toList.foldl (fun m p => m.insert p.1 p.2) t.defaults)

structure InstanceConfig where
  params : Params
  position : UInt64 × UInt64
  label : Option String

def InstanceConfig.empty : InstanceConfig :=
  { params := ∅, position := (0, 0), label := none }

structure NodeInstance where
  id : Uuid
  templateId : Uuid
  templateVersion : UInt32
  dimensionId : DimensionId
  resolvedParams : Params
  config : InstanceConfig
  nodes : List GraphNode
  provenance : NodeProvenance

/-- An id and a reading of the clock. -/
structure Draw where
  id : Uuid
  nowMs : UInt64

/-- The copy of one node of the snapshot. -/
def expandNode (resolved : Params) (actor : String) (node : GraphNode) (draw : Draw) :
    GraphNode :=
  { node with
    id := draw.id
    parameters := resolved.toList.foldl (fun m p => m.insertIfNew p.1 p.2) node.parameters
    provenance := .forActor actor draw.nowMs }

/-- The prefix that a label of the instance puts before the label of a node. -/
def applyLabel (label : Option String) (node : GraphNode) : GraphNode :=
  match label with
  | none => node
  | some label => { node with label := label ++ "/" ++ node.label }

/-- `expand`; the `k`-th node of the snapshot draws `draws k`, the instance `draw`. -/
def NodeInstance.expand (template : InstanceTemplate) (dimensionId : DimensionId)
    (config : InstanceConfig) (actor : String) (draws : ℕ → Draw) (draw : Draw) :
    Except InstanceError NodeInstance :=
  match template.resolveParams config.params with
  | .error e => .error e
  | .ok resolvedParams =>
      let nodes := template.graphSnapshot.nodes.values.mapIdx fun k node =>
        applyLabel config.label (expandNode resolvedParams actor node (draws k))
      let reason := "expanded from template '" ++ template.name ++ "' v" ++
        toString template.version.toNat
      .ok
        { id := draw.id, templateId := template.id, templateVersion := template.version
          dimensionId, resolvedParams, config, nodes
          provenance := { NodeProvenance.forActor actor draw.nowMs with reason := some reason } }

/-! ## Resolution -/

/-- Every parameter is declared under its own name. -/
def Keyed (t : InstanceTemplate) : Prop :=
  ∀ (key : String) (schema : ParamSchema), t.paramSchema[key]? = some schema → schema.name = key

theorem keyed_new (id : Uuid) (name : String) (snapshot : FlowGraphSchema) :
    Keyed (.new id name snapshot) := by
  intro key schema hget
  simp [InstanceTemplate.new] at hget

theorem Keyed.withParam {t : InstanceTemplate} (h : Keyed t) (schema : ParamSchema) :
    Keyed (t.withParam schema) := by
  intro key other hget
  rw [InstanceTemplate.withParam, Maps.getElem?_insert_ite] at hget
  split at hget
  · next hkey =>
      cases hget
      exact hkey.symm
  · exact h key other hget

section Resolve

variable {t : InstanceTemplate}

/-- The entries of the defaults, of which no two have the same key in a keyed template. -/
def defaultEntries (t : InstanceTemplate) : List (String × Json) :=
  t.paramSchema.values.filterMap fun s => s.defaultValue.map fun v => (s.name, v)

theorem mem_defaultEntries (hkeyed : Keyed t) {key : String} {v : Json} :
    (key, v) ∈ defaultEntries t ↔ t.paramSchema[key]?.bind ParamSchema.defaultValue = some v := by
  unfold defaultEntries
  simp only [List.mem_filterMap, Maps.mem_values, Option.map_eq_some_iff, Prod.mk.injEq,
    Option.bind_eq_some_iff]
  constructor
  · rintro ⟨s, ⟨k, hget⟩, w, hdefault, hname, rfl⟩
    rw [hkeyed k s hget] at hname
    subst hname
    exact ⟨s, hget, hdefault⟩
  · rintro ⟨s, hget, hdefault⟩
    exact ⟨s, ⟨key, hget⟩, v, hdefault, hkeyed key s hget, rfl⟩

theorem distinct_defaultEntries (hkeyed : Keyed t) :
    (defaultEntries t).Pairwise fun p q => p.1 ≠ q.1 := by
  unfold defaultEntries
  rw [Maps.values_eq, List.filterMap_map, List.pairwise_filterMap]
  refine Std.ExtTreeMap.distinct_keys_toList.imp_of_mem fun {p q} hp hq hne => ?_
  intro x hx y hy heq
  obtain ⟨v, -, rfl⟩ := Option.map_eq_some_iff.mp hx
  obtain ⟨w, -, rfl⟩ := Option.map_eq_some_iff.mp hy
  dsimp only at heq
  rw [hkeyed p.1 p.2 (Maps.mem_toList.mp hp), hkeyed q.1 q.2 (Maps.mem_toList.mp hq)] at heq
  exact hne (Std.LawfulEqCmp.compare_eq_iff_eq.mpr heq)

theorem getElem?_defaults (hkeyed : Keyed t) (key : String) :
    t.defaults[key]? = t.paramSchema[key]?.bind ParamSchema.defaultValue := by
  refine Option.ext fun v => ?_
  rw [← mem_defaultEntries hkeyed]
  exact Maps.getElem?_ofList_eq_some_iff (distinct_defaultEntries hkeyed)

/-- The inputs that `resolve_params` refuses: overrides of a read-only template, and an
override of a frozen parameter. -/
def Refused (t : InstanceTemplate) (overrides : Params) : Prop :=
  (t.lockPolicy = .readOnly ∧ overrides.isEmpty = false) ∨
    ∃ key, overrides.contains key = true ∧ t.isFrozen key = true

/-- Resolution succeeds on the inputs that are not refused, and gives every parameter its
override if there is one and else its default. -/
theorem resolveParams_spec (hkeyed : Keyed t) (overrides : Params) :
    (Refused t overrides ∧ ∃ e, t.resolveParams overrides = .error e) ∨
      (¬ Refused t overrides ∧ ∃ resolved, t.resolveParams overrides = .ok resolved ∧
        ∀ key : String, resolved[key]? =
          overrides[key]?.or (t.paramSchema[key]?.bind ParamSchema.defaultValue)) := by
  unfold InstanceTemplate.resolveParams
  by_cases hlock : t.lockPolicy = .readOnly ∧ ¬ overrides.isEmpty
  · rw [if_pos hlock]
    exact .inl ⟨.inl ⟨hlock.1, by simpa using hlock.2⟩, _, rfl⟩
  · rw [if_neg hlock]
    cases hfrozen : overrides.keys.find? t.isFrozen with
    | some key =>
        refine .inl ⟨.inr ⟨key, ?_, List.find?_some hfrozen⟩, _, rfl⟩
        exact Std.ExtTreeMap.mem_keys.mp (List.mem_of_find?_eq_some hfrozen)
    | none =>
        refine .inr ⟨?_, _, rfl, fun key => ?_⟩
        · rintro (⟨hread, hsome⟩ | ⟨key, hkey, hfreeze⟩)
          · exact hlock ⟨hread, by simp [hsome]⟩
          · have hmiss := List.find?_eq_none.mp hfrozen key (Std.ExtTreeMap.mem_keys.mpr hkey)
            exact hmiss hfreeze
        · rw [Maps.getElem?_insertAll, getElem?_defaults hkeyed]

end Resolve

/-! ## What an instance guarantees -/

def RequiredResolved (t : InstanceTemplate) (resolved : Params) : Prop :=
  ∀ (key : String) (schema : ParamSchema), t.paramSchema[key]? = some schema →
    schema.required = true → resolved.contains key = true

/-- A frozen parameter with a default has the default, any other overridden parameter its
override. -/
def ValuesInherited (t : InstanceTemplate) (overrides resolved : Params) : Prop :=
  (∀ (key : String) (schema : ParamSchema) (v : Json), t.paramSchema[key]? = some schema →
      schema.inheritance = .frozen → schema.defaultValue = some v → resolved[key]? = some v) ∧
    ∀ (key : String) (v : Json), t.isFrozen key = false → overrides[key]? = some v →
      resolved[key]? = some v

/-- The nodes are those of the snapshot, in order, each with its own value of a resolved
parameter if it has one and else the resolved value. -/
def NodesFilled (snapshot nodes : List GraphNode) (resolved : Params) : Prop :=
  List.Forall₂ (fun source node => ∀ (key : String) (v : Json), resolved[key]? = some v →
    node.parameters[key]? = source.parameters[key]?.or (some v)) snapshot nodes

/-- The guarantees of an instance. -/
def Guaranteed (t : InstanceTemplate) (config : InstanceConfig) (inst : NodeInstance) : Prop :=
  RequiredResolved t inst.resolvedParams ∧
    ValuesInherited t config.params inst.resolvedParams ∧
    NodesFilled t.graphSnapshot.nodes.values inst.nodes inst.resolvedParams

/-- Every required parameter has a default or an override. -/
def RequiredSupplied (t : InstanceTemplate) (overrides : Params) : Prop :=
  ∀ (key : String) (schema : ParamSchema), t.paramSchema[key]? = some schema →
    schema.required = true →
      schema.defaultValue.isSome = true ∨ overrides.contains key = true

theorem parameters_applyLabel (label : Option String) (node : GraphNode) :
    (applyLabel label node).parameters = node.parameters := by
  cases label <;> rfl

theorem forall₂_mapIdx {α β : Type} {R : α → β → Prop} (l : List α) {f : ℕ → α → β}
    (h : ∀ k a, R a (f k a)) : List.Forall₂ R l (l.mapIdx f) := by
  induction l generalizing f with
  | nil => exact .nil
  | cons a l ih =>
      rw [List.mapIdx_cons]
      exact .cons (h 0 a) (ih fun k b => h (k + 1) b)

theorem nodesFilled_expand (snapshot : List GraphNode) (label : Option String)
    (resolved : Params) (actor : String) (draws : ℕ → Draw) :
    NodesFilled snapshot
      (snapshot.mapIdx fun k node => applyLabel label (expandNode resolved actor node (draws k)))
      resolved := by
  refine forall₂_mapIdx snapshot fun k node key v hget => ?_
  rw [parameters_applyLabel, expandNode, Maps.getElem?_insertAllIfNew, hget]

section Resolved

variable {t : InstanceTemplate} {overrides resolved : Params}

theorem requiredResolved_iff
    (hresolved : ∀ key : String, resolved[key]? =
      overrides[key]?.or (t.paramSchema[key]?.bind ParamSchema.defaultValue)) :
    RequiredResolved t resolved ↔ RequiredSupplied t overrides := by
  unfold RequiredResolved RequiredSupplied
  refine forall_congr' fun key => forall_congr' fun schema => ?_
  refine imp_congr_right fun hget => imp_congr_right fun _ => ?_
  rw [Std.ExtTreeMap.contains_eq_isSome_getElem?, Std.ExtTreeMap.contains_eq_isSome_getElem?,
    hresolved, hget, Option.bind_some, Option.isSome_or, Bool.or_eq_true, or_comm]

theorem valuesInherited (hrefused : ¬ Refused t overrides)
    (hresolved : ∀ key : String, resolved[key]? =
      overrides[key]?.or (t.paramSchema[key]?.bind ParamSchema.defaultValue)) :
    ValuesInherited t overrides resolved := by
  constructor
  · intro key schema v hget hfrozen hdefault
    have hnone : overrides[key]? = none := by
      by_contra hsome
      refine hrefused (.inr ⟨key, ?_, ?_⟩)
      · rw [Std.ExtTreeMap.contains_eq_isSome_getElem?]
        exact Option.isSome_iff_ne_none.mpr hsome
      · rw [InstanceTemplate.isFrozen, hget]
        exact decide_eq_true hfrozen
    rw [hresolved, hnone, hget]
    exact hdefault
  · intro key v _ hget
    rw [hresolved, hget]
    rfl

end Resolved

/-- For a keyed template, every instance has the guarantees exactly if the inputs are refused
or every required parameter has a default or an override. -/
theorem expand_guaranteed_iff (template : InstanceTemplate) (hkeyed : Keyed template)
    (dimensionId : DimensionId) (config : InstanceConfig) (actor : String) (draws : ℕ → Draw)
    (draw : Draw) :
    (∀ inst, NodeInstance.expand template dimensionId config actor draws draw = .ok inst →
        Guaranteed template config inst) ↔
      Refused template config.params ∨ RequiredSupplied template config.params := by
  unfold NodeInstance.expand
  rcases resolveParams_spec hkeyed config.params with
    ⟨hrefused, e, hfail⟩ | ⟨hrefused, resolved, hok, hresolved⟩
  · rw [hfail]
    exact iff_of_true (fun inst h => by cases h) (.inl hrefused)
  · rw [hok]
    simp only [Except.ok.injEq, forall_eq', or_iff_right hrefused, Guaranteed]
    rw [← requiredResolved_iff hresolved]
    constructor
    · exact fun h => h.1
    · intro hrequired
      exact ⟨hrequired, valuesInherited hrefused hresolved, nodesFilled_expand _ _ _ _ _⟩

/-- A node with a value of its own. -/
def mirrorNode : GraphNode :=
  { GraphNode.new 3 "http.get" "mirror" 0 with
    parameters := Std.ExtTreeMap.empty.insert "endpoint" (.string "http://mirror") }

/-- Two nodes, one of them with a value of its own. -/
def fetcherSnapshot : FlowGraphSchema :=
  { FlowGraphSchema.new 2 7 with
    nodes := (Std.ExtTreeMap.empty.insert 3 mirrorNode).insert 4 (.new 4 "http.get" "main" 0) }

/-- A template with a frozen parameter and one that every instance has to supply. -/
def fetcherTemplate : InstanceTemplate :=
  ((InstanceTemplate.new 1 "fetcher" fetcherSnapshot).withParam
    (.frozen "scheme" (.string "http"))).withParam (.instanceOnly "endpoint")

theorem keyed_fetcherTemplate : Keyed fetcherTemplate :=
  ((keyed_new 1 "fetcher" fetcherSnapshot).withParam _).withParam _

/-- Overrides that supply the second one. -/
def endpointConfig : InstanceConfig :=
  { InstanceConfig.empty with
    params := Std.ExtTreeMap.empty.insert "endpoint" (.string "http://localhost") }

theorem requiredSupplied_fetcher : RequiredSupplied fetcherTemplate endpointConfig.params := by
  refine fun key schema hget hrequired => .inr ?_
  have hkey : key = "endpoint" := by
    rw [fetcherTemplate, InstanceTemplate.withParam, Maps.getElem?_insert_ite] at hget
    split at hget
    · assumption
    · rw [InstanceTemplate.withParam, Maps.getElem?_insert_ite] at hget
      split at hget
      · cases hget
        cases hrequired
      · simp [InstanceTemplate.new] at hget
  rw [hkey]
  rfl

theorem expand_guaranteed_endpoint :
    ∃ inst, NodeInstance.expand fetcherTemplate 7 endpointConfig "agent"
      (fun k => ⟨.ofNat 128 (k + 5), 0⟩) ⟨9, 0⟩ = .ok inst ∧
      Guaranteed fetcherTemplate endpointConfig inst :=
  ⟨_, rfl, (expand_guaranteed_iff fetcherTemplate keyed_fetcherTemplate 7 endpointConfig "agent"
    (fun k => ⟨.ofNat 128 (k + 5), 0⟩) ⟨9, 0⟩).mpr (.inr requiredSupplied_fetcher) _ rfl⟩

def endpointTemplate : InstanceTemplate :=
  (InstanceTemplate.new 1 "fetcher" (.new 2 7)).withParam (.instanceOnly "endpoint")

/-- Nothing is supplied, and the instance is made all the same. -/
theorem expand_without_endpoint :
    ¬ ∀ inst, NodeInstance.expand endpointTemplate 7 .empty "agent" (fun _ => ⟨4, 0⟩) ⟨5, 0⟩ =
      .ok inst → Guaranteed endpointTemplate .empty inst := by
  intro h
  have hrequired := (h _ rfl).1 "endpoint" (.instanceOnly "endpoint") rfl rfl
  cases hrequired

end Instance

end InfinityOS
