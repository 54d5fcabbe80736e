import InfinityOS.Editor.NodeGraph
import InfinityOS.Registry.ActionLog

/-!
# Customising a node

`customize` writes the updates into the node and logs them, and only then looks for a
required parameter of the template that is missing. So a call that fails has changed the node
and the log already, and the node is left alone only where the check cannot fail.
-/

namespace InfinityOS

namespace Editor

open Registry (Stamp)

structure NodeCustomizer where
  templates : HashMap Uuid NodeTemplate

namespace NodeCustomizer

def new : NodeCustomizer :=
  { templates := ∅ }

def registerTemplate (c : NodeCustomizer) (template : NodeTemplate) : NodeCustomizer :=
  { templates := c.templates.insert template.id template }

/-- The check of a node against its template; a template that is not registered checks
nothing. -/
def validateParams (c : NodeCustomizer) (node : Node) : Except NodeError Unit :=
  match c.templates[node.templateId]? with
  | none => .ok ()
  | some template =>
      match missingParameter template node.parameters with
      | none => .ok ()
      | some p => .error (.missingRequiredParameter node.id p.name)

/-- The entry about an update of the node, with the names in the order of the map. -/
def updateEntry (node : Node) (taskId : TaskId) {updates : Parameters}
    (order : Maps.Enumeration updates) (stamp : Stamp) : ActionLog.Entry :=
  .new .nodeUpdated .system (some node.dimensionId) (some taskId)
    (.object [("changed_fields", .array (order.entries.map fun p => .string p.1)),
      ("node_id", .string node.id.display)])
    stamp

/-- `customize`, with the node and the log as the call leaves them. -/
def customize (c : NodeCustomizer) (node : Node) (taskId : TaskId) (updates : Parameters)
    (order : Maps.Enumeration updates) (stamp : Stamp) (log : List ActionLog.Entry) :
    Except NodeError Unit × Node × List ActionLog.Entry :=
  let node := { node with parameters := Parameters.extend node.parameters updates }
  let log := log ++ [updateEntry node taskId order stamp]
  (c.validateParams node, node, log)

end NodeCustomizer

theorem contains_extend (params updates : Parameters) (name : String) :
    (params.extend updates).contains name = (updates.contains name || params.contains name) := by
  rw [Parameters.extend, Std.ExtTreeMap.contains_eq_isSome_getElem?, Maps.getElem?_insertAll,
    Option.isSome_or, ← Std.ExtTreeMap.contains_eq_isSome_getElem?,
    ← Std.ExtTreeMap.contains_eq_isSome_getElem?]

/-- Every required parameter of the node's template is set, in the node or by the updates. -/
def RequiredSet (c : NodeCustomizer) (node : Node) (updates : Parameters) : Prop :=
  ∀ template, c.templates[node.templateId]? = some template →
    ∀ p ∈ template.parameters, p.required = true →
      updates.contains p.name = true ∨ node.parameters.contains p.name = true

theorem validateParams_extend_iff (c : NodeCustomizer) (node : Node) (updates : Parameters) :
    c.validateParams { node with parameters := Parameters.extend node.parameters updates } =
        .ok () ↔ RequiredSet c node updates := by
  unfold NodeCustomizer.validateParams RequiredSet
  dsimp only
  cases c.templates[node.templateId]? with
  | none => simp
  | some template =>
      dsimp only
      have hmissing : missingParameter template (node.parameters.extend updates) = none ↔
          ∀ p ∈ template.parameters, p.required = true →
            updates.contains p.name = true ∨ node.parameters.contains p.name = true := by
        unfold missingParameter
        rw [List.find?_eq_none]
        refine forall_congr' fun p => imp_congr_right fun _ => ?_
        rw [contains_extend]
        cases p.required <;> cases updates.contains p.name <;> simp
      simp only [Option.some.injEq, forall_eq']
      rw [← hmissing]
      cases missingParameter template (node.parameters.extend updates) <;> simp

/-- A failed call leaves the node and the log as they were exactly if it cannot happen: no
required parameter is missing from the node and the updates. -/
theorem customize_atomic_iff (c : NodeCustomizer) (node : Node) (taskId : TaskId)
    (updates : Parameters) (order : Maps.Enumeration updates) (stamp : Stamp)
    (log : List ActionLog.Entry) :
    ((∃ e, (c.customize node taskId updates order stamp log).1 = .error e) →
        (c.customize node taskId updates order stamp log).2 = (node, log)) ↔
      RequiredSet c node updates := by
  rw [← validateParams_extend_iff, NodeCustomizer.customize]
  dsimp only
  cases c.validateParams { node with parameters := Parameters.extend node.parameters updates } with
  | ok u => simp
  | error e =>
      refine iff_of_false (fun h => ?_) (by simp)
      have hlog := congrArg Prod.snd (h ⟨e, rfl⟩)
      simp at hlog

def requestTemplate : NodeTemplate :=
  { id := 3, parameters := [{ name := "url", default := none, required := true }] }

def bareNode : Node :=
  { id := 1, dimensionId := 7, templateId := 3, name := "fetch", parameters := ∅,
    position := (0, 0) }

/-- The updates do not set the required parameter. -/
def timeoutUpdate : Parameters :=
  Std.ExtTreeMap.empty.insert "timeout_ms" (.number (.posInt 500))

/-- The call of `customize` with this update. -/
def timeoutCall : Except NodeError Unit × Node × List ActionLog.Entry :=
  (NodeCustomizer.new.registerTemplate requestTemplate).customize bareNode 9 timeoutUpdate
    ⟨timeoutUpdate.toList, .refl _⟩ { eventId := 2, occurredAtMs := 0 } []

theorem customize_fails_changed :
    ¬ ((∃ e, timeoutCall.1 = .error e) → timeoutCall.2 = (bareNode, [])) := by
  intro h
  have hlog := congrArg Prod.snd (h ⟨.missingRequiredParameter 1 "url", rfl⟩)
  cases hlog

end Editor

end InfinityOS
