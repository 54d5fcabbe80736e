import InfinityOS.Registry.Blocks

/-!
# Staging of blocks

A block with a binding has an interpreter, one with an interpreter has an editor, and the
ids that they store are those of the block and of its editor. A call that is answered with
an error changes nothing; every other one registers a block or takes one block through one
stage that it had not been through.
-/

namespace InfinityOS

namespace Registry

open Transition

inductive Stage where
  | editor
  | interpreter
  | binding
  deriving DecidableEq

namespace RegisteredBlock

def has (b : RegisteredBlock) : Stage → Bool
  | .editor => b.editor.isSome
  | .interpreter => b.interpreter.isSome
  | .binding => b.binding.isSome

/-- The stages are in order, and what they store is about the block with this id. -/
structure Consistent (id : Uuid) (b : RegisteredBlock) : Prop where
  interpreter_of_binding : b.has .binding = true → b.has .interpreter = true
  editor_of_interpreter : b.has .interpreter = true → b.has .editor = true
  editor : ∀ e, b.editor = some e → e.dimensionId = b.dimensionId
  interpreter : ∀ i e, b.interpreter = some i → b.editor = some e → i.editorId = e.id
  binding : ∀ t e, b.binding = some t → b.editor = some e →
    t.blockId = id ∧ t.editorId = e.id ∧ t.dimensionId = b.dimensionId ∧ t.taskId = b.taskId

/-- The block `b'` is `b` after one more stage. -/
structure Advances (id : Uuid) (stage : Stage) (b b' : RegisteredBlock) : Prop where
  pending : b.has stage = false
  done : b'.has stage = true
  kept : ∀ other, b.has other = true → b'.has other = true
  consistent : b.Consistent id → b'.Consistent id

variable {id : Uuid} {b : RegisteredBlock}

theorem Consistent.of_editor (h : b.Consistent id) (hpending : b.editor = none) :
    b.interpreter = none ∧ b.binding = none := by
  have hinterpreter : b.interpreter = none := by
    by_contra hsome
    have heditor := h.editor_of_interpreter (Option.isSome_iff_ne_none.mpr hsome)
    rw [has, hpending] at heditor
    cases heditor
  refine ⟨hinterpreter, ?_⟩
  by_contra hsome
  have hattached := h.interpreter_of_binding (Option.isSome_iff_ne_none.mpr hsome)
  rw [has, hinterpreter] at hattached
  cases hattached

theorem advances_editor (hpending : b.editor = none) (editorId : Uuid) (language content : String) :
    Advances id .editor b
      { b with editor := some ⟨editorId, b.dimensionId, language, content⟩ } where
  pending := by rw [has, hpending]; rfl
  done := rfl
  kept other h := by
    cases other with
    | editor => rfl
    | interpreter => exact h
    | binding => exact h
  consistent h := by
    obtain ⟨hinterpreter, hbinding⟩ := h.of_editor hpending
    refine ⟨h.interpreter_of_binding, fun _ => rfl, fun e he => ?_, fun i e hi => ?_,
      fun t e ht => ?_⟩
    · obtain rfl := Option.some.inj he
      rfl
    · rw [hinterpreter] at hi
      cases hi
    · rw [hbinding] at ht
      cases ht

theorem advances_interpreter {editor : EditorInstance} (heditor : b.editor = some editor)
    (hpending : b.interpreter = none) (interpreterType : String) (config : Json) :
    Advances id .interpreter b
      { b with interpreter := some ⟨editor.id, interpreterType, config⟩ } where
  pending := by rw [has, hpending]; rfl
  done := rfl
  kept other h := by
    cases other with
    | editor => exact h
    | interpreter => rfl
    | binding => exact h
  consistent h := by
    refine ⟨fun _ => rfl, fun _ => ?_, h.editor, fun i e hi he => ?_, h.binding⟩
    · change b.editor.isSome = true
      rw [heditor]
      rfl
    · obtain rfl := Option.some.inj hi
      obtain rfl := Option.some.inj (heditor.symm.trans he)
      rfl

theorem advances_binding {editor : EditorInstance} (heditor : b.editor = some editor)
    (hattached : b.has .interpreter = true) (hpending : b.binding = none) :
    Advances id .binding b
      { b with binding := some ⟨id, editor.id, b.dimensionId, b.taskId⟩ } where
  pending := by rw [has, hpending]; rfl
  done := rfl
  kept other h := by
    cases other with
    | editor => exact h
    | interpreter => exact h
    | binding => rfl
  consistent h := by
    refine ⟨fun _ => hattached, h.editor_of_interpreter, h.editor, h.interpreter,
      fun t e ht he => ?_⟩
    obtain rfl := Option.some.inj ht
    obtain rfl := Option.some.inj (heditor.symm.trans he)
    exact ⟨rfl, rfl, rfl, rfl⟩

end RegisteredBlock

def BlockCall.target : BlockCall → Option (Stage × Uuid)
  | registerBlock _ _ _ _ => none
  | createEditor blockId _ _ _ => some (.editor, blockId)
  | attachInterpreter blockId _ _ _ => some (.interpreter, blockId)
  | bindRuntime blockId _ => some (.binding, blockId)

def BlockCall.registers : BlockCall → Option Uuid
  | registerBlock _ _ id _ => some id
  | _ => none

/-- What a call does: nothing, or it registers a block, or takes one through a stage. -/
inductive StepCase (r : BlockRegistry) (call : BlockCall) :
    BlockAnswer × BlockRegistry → Prop where
  | refused (answer : BlockAnswer) (herror : answer.isOk = false) : StepCase r call (answer, r)
  | registered (answer : BlockAnswer) (id : Uuid) (dimensionId : DimensionId)
      (taskId : TaskId) (entry : ActionLogEntry) (hok : answer.isOk = true)
      (hcall : call.registers = some id) (htarget : call.target = none) :
      StepCase r call (answer, r.record id ⟨dimensionId, taskId, none, none, none⟩ entry)
  | advanced (answer : BlockAnswer) (stage : Stage) (id : Uuid) (b b' : RegisteredBlock)
      (entry : ActionLogEntry) (hok : answer.isOk = true)
      (htarget : call.target = some (stage, id)) (hget : r.blocks[id]? = some b)
      (hadvance : b.Advances id stage b') : StepCase r call (answer, r.record id b' entry)

theorem stepCase_createEditor (r : BlockRegistry) (blockId : Uuid) (language : String)
    (editorId : Uuid) (stamp : Stamp) :
    StepCase r (.createEditor blockId language editorId stamp)
      (r.step (.createEditor blockId language editorId stamp)) := by
  unfold BlockRegistry.step BlockRegistry.createEditor
  cases hget : r.blocks[blockId]? with
  | none =>
      simp only [hget]
      exact .refused _ rfl
  | some b =>
      cases heditor : b.editor with
      | some editor =>
          simp only [hget, heditor, Option.isSome_some, if_true]
          exact .refused _ rfl
      | none =>
          simp only [hget, heditor, Option.isSome_none, Bool.false_eq_true, if_false]
          exact .advanced _ .editor blockId b _ _ rfl rfl hget
            (RegisteredBlock.advances_editor heditor _ _ _)

theorem stepCase_attachInterpreter (r : BlockRegistry) (blockId : Uuid)
    (interpreterType : String) (config : Json) (stamp : Stamp) :
    StepCase r (.attachInterpreter blockId interpreterType config stamp)
      (r.step (.attachInterpreter blockId interpreterType config stamp)) := by
  unfold BlockRegistry.step BlockRegistry.attachInterpreter
  cases hget : r.blocks[blockId]? with
  | none =>
      simp only [hget]
      exact .refused _ rfl
  | some b =>
      cases heditor : b.editor with
      | none =>
          simp only [hget, heditor, Option.map_none]
          exact .refused _ rfl
      | some editor =>
          cases hinterpreter : b.interpreter with
          | some interpreter =>
              simp only [hget, heditor, Option.map_some, hinterpreter, Option.isSome_some,
                if_true]
              exact .refused _ rfl
          | none =>
              simp only [hget, heditor, Option.map_some, hinterpreter, Option.isSome_none,
                Bool.false_eq_true, if_false]
              have hadvance : RegisteredBlock.Advances blockId .interpreter b _ :=
                RegisteredBlock.advances_interpreter heditor hinterpreter interpreterType config
              rw [heditor] at hadvance
              exact .advanced _ .interpreter blockId b _ _ rfl rfl hget hadvance

theorem stepCase_bindRuntime (r : BlockRegistry) (blockId : Uuid) (stamp : Stamp) :
    StepCase r (.bindRuntime blockId stamp) (r.step (.bindRuntime blockId stamp)) := by
  unfold BlockRegistry.step BlockRegistry.bindRuntime
  cases hget : r.blocks[blockId]? with
  | none =>
      simp only [hget]
      exact .refused _ rfl
  | some b =>
      cases heditor : b.editor with
      | none =>
          simp only [hget, heditor, Option.map_none]
          exact .refused _ rfl
      | some editor =>
          cases hinterpreter : b.interpreter with
          | none =>
              simp only [hget, heditor, Option.map_some, hinterpreter, Option.isNone_none, if_true]
              exact .refused _ rfl
          | some interpreter =>
              cases hbinding : b.binding with
              | some binding =>
                  simp only [hget, heditor, Option.map_some, hinterpreter, Option.isNone_some,
                    Bool.false_eq_true, if_false, hbinding, Option.isSome_some, if_true]
                  exact .refused _ rfl
              | none =>
                  simp only [hget, heditor, Option.map_some, hinterpreter, Option.isNone_some,
                    Bool.false_eq_true, if_false, hbinding, Option.isSome_none]
                  have hattached : b.has .interpreter = true := by
                    rw [RegisteredBlock.has, hinterpreter]
                    rfl
                  have hadvance : RegisteredBlock.Advances blockId .binding b _ :=
                    RegisteredBlock.advances_binding heditor hattached hbinding
                  rw [heditor, hinterpreter] at hadvance
                  exact .advanced _ .binding blockId b _ _ rfl rfl hget hadvance

theorem stepCase (r : BlockRegistry) (call : BlockCall) : StepCase r call (r.step call) := by
  cases call with
  | registerBlock dimensionId taskId id stamp => exact .registered _ id _ _ _ rfl rfl rfl
  | createEditor blockId language editorId stamp => exact stepCase_createEditor r _ _ _ _
  | attachInterpreter blockId interpreterType config stamp =>
      exact stepCase_attachInterpreter r _ _ _ _
  | bindRuntime blockId stamp => exact stepCase_bindRuntime r _ _

/-! ## Runs -/

/-- Every block is in order. -/
def AllConsistent (r : BlockRegistry) : Prop :=
  ∀ (id : Uuid) (b : RegisteredBlock), r.blocks[id]? = some b → b.Consistent id

theorem AllConsistent.record {r : BlockRegistry} (h : AllConsistent r) {id : Uuid}
    {block : RegisteredBlock} (hblock : block.Consistent id) (entry : ActionLogEntry) :
    AllConsistent (r.record id block entry) := by
  intro v b hb
  rw [BlockRegistry.record, Maps.getElem?_insert_ite] at hb
  split at hb
  · next hv =>
      obtain rfl := Option.some.inj hb
      rwa [hv]
  · exact h v b hb

theorem AllConsistent.step {r : BlockRegistry} (h : AllConsistent r) (call : BlockCall) :
    AllConsistent (r.step call).2 := by
  have hcase := stepCase r call
  generalize r.step call = result at hcase ⊢
  cases hcase with
  | refused answer herror => exact h
  | registered answer id dimensionId taskId entry hok hcall htarget =>
      apply h.record
      refine ⟨fun hb => ?_, fun hi => ?_, fun e he => ?_, fun i e hi => ?_, fun t e ht => ?_⟩
      · cases hb
      · cases hi
      · cases he
      · cases hi
      · cases ht
  | advanced answer stage id b b' entry hok htarget hget hadvance =>
      exact h.record (hadvance.consistent (h id b hget)) entry

def HasStage (stage : Stage) (id : Uuid) (r : BlockRegistry) : Prop :=
  ∃ b, r.blocks[id]? = some b ∧ b.has stage = true

/-- A block is registered under an id that is not in use. -/
def DrawsFreshBlockId (r : BlockRegistry) (call : BlockCall) : Prop :=
  ∀ id, call.registers = some id → r.blocks[id]? = none

def succeeds (stage : Stage) (id : Uuid) (_ : BlockRegistry) (call : BlockCall)
    (answer : BlockAnswer) (_ : BlockRegistry) : Bool :=
  decide (call.target = some (stage, id)) && answer.isOk

variable {stage : Stage} {id : Uuid} {r : BlockRegistry} {call : BlockCall}

theorem hasStage_of_succeeds
    (h : succeeds stage id r call (r.step call).1 (r.step call).2 = true) :
    ¬ HasStage stage id r ∧ HasStage stage id (r.step call).2 := by
  have hcase := stepCase r call
  generalize r.step call = result at hcase h ⊢
  rw [succeeds, Bool.and_eq_true, decide_eq_true_eq] at h
  cases hcase with
  | refused answer herror =>
      rw [herror] at h
      cases h.2
  | registered answer id' dimensionId taskId entry hok hcall htarget =>
      rw [htarget] at h
      cases h.1
  | advanced answer stage' id' b b' entry hok htarget hget hadvance =>
      obtain ⟨rfl, rfl⟩ := Prod.mk.inj (Option.some.inj (htarget.symm.trans h.1))
      refine ⟨?_, b', Std.ExtTreeMap.getElem?_insert_self, hadvance.done⟩
      rintro ⟨c, hc, hhas⟩
      obtain rfl := Option.some.inj (hget.symm.trans hc)
      rw [hadvance.pending] at hhas
      cases hhas

theorem HasStage.step (h : HasStage stage id r) (hfresh : DrawsFreshBlockId r call) :
    HasStage stage id (r.step call).2 := by
  obtain ⟨b, hb, hhas⟩ := h
  have hcase := stepCase r call
  generalize r.step call = result at hcase ⊢
  cases hcase with
  | refused answer herror => exact ⟨b, hb, hhas⟩
  | registered answer id' dimensionId taskId entry hok hcall htarget =>
      refine ⟨b, ?_, hhas⟩
      rw [BlockRegistry.record, Maps.getElem?_insert_ite, if_neg]
      · exact hb
      · rintro rfl
        rw [hfresh id hcall] at hb
        cases hb
  | advanced answer stage' id' c c' entry hok htarget hget hadvance =>
      by_cases hid : id = id'
      · subst hid
        obtain rfl := Option.some.inj (hget.symm.trans hb)
        exact ⟨c', Std.ExtTreeMap.getElem?_insert_self, hadvance.kept stage hhas⟩
      · refine ⟨b, ?_, hhas⟩
        rw [BlockRegistry.record, Maps.getElem?_insert_ite, if_neg hid]
        exact hb

theorem step_eq_of_error (h : (r.step call).1.isOk = false) : (r.step call).2 = r := by
  have hcase := stepCase r call
  generalize r.step call = result at hcase h ⊢
  cases hcase with
  | refused answer herror => rfl
  | registered answer id' dimensionId taskId entry hok hcall htarget =>
      rw [hok] at h
      cases h
  | advanced answer stage' id' b b' entry hok htarget hget hadvance =>
      rw [hok] at h
      cases h

/-- In every run whose blocks are registered under fresh ids every block is in order in
every state, each later stage succeeds at most once for a block, and a call that returns
an error leaves the registry and its action log as they were. -/
theorem block_staging (calls : List BlockCall)
    (hfresh : Along DrawsFreshBlockId BlockRegistry.step .new calls) :
    (∀ (id : Uuid) (b : RegisteredBlock),
      (final BlockRegistry.step .new calls).blocks[id]? = some b → b.Consistent id) ∧
    (∀ stage id, tally (succeeds stage id) BlockRegistry.step .new calls ≤ 1) ∧
    ∀ call, ((final BlockRegistry.step .new calls).step call).1.isOk = false →
      ((final BlockRegistry.step .new calls).step call).2 =
        final BlockRegistry.step .new calls := by
  refine ⟨?_, fun stage id => ?_, fun call herror => step_eq_of_error herror⟩
  · refine invariant_final_of_forall AllConsistent (fun r call h => h.step call) calls ?_
    intro id b hb
    simp [BlockRegistry.new] at hb
  · exact (tally_le_one (HasStage stage id)
      (fun r call h => hasStage_of_succeeds h)
      (fun r call hfresh h => h.step hfresh) hfresh).1

/-- One block is bound and then bound again, another one before it has an interpreter. -/
def pipelineCalls : List BlockCall :=
  [.registerBlock 7 8 1 ⟨9, 0⟩, .registerBlock 7 6 2 ⟨10, 0⟩, .createEditor 2 "python" 3 ⟨11, 0⟩,
    .createEditor 1 "rust" 4 ⟨12, 0⟩, .attachInterpreter 1 "lsp" .null ⟨13, 0⟩,
    .bindRuntime 2 ⟨14, 0⟩, .bindRuntime 1 ⟨15, 0⟩, .bindRuntime 1 ⟨16, 0⟩]

theorem block_staging_pipeline :
    AllConsistent (final BlockRegistry.step .new pipelineCalls) ∧
      tally (succeeds .binding 1) BlockRegistry.step .new pipelineCalls ≤ 1 ∧
      ((final BlockRegistry.step .new pipelineCalls).step (.bindRuntime 2 ⟨17, 0⟩)).2 =
        final BlockRegistry.step .new pipelineCalls := by
  have hfresh : Along DrawsFreshBlockId BlockRegistry.step .new pipelineCalls := by
    refine ⟨fun id hid => ?_, fun id hid => ?_, ?_, ?_, ?_, ?_, ?_, ?_, trivial⟩
    · simp [BlockRegistry.new]
    · cases hid
      decide
    all_goals
      intro id hid
      cases hid
  obtain ⟨hconsistent, honce, herror⟩ := block_staging pipelineCalls hfresh
  exact ⟨hconsistent, honce .binding 1, herror _ (by decide)⟩

end Registry

end InfinityOS
