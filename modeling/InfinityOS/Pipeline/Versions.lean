import InfinityOS.Core.Maps
import InfinityOS.Core.Types
import InfinityOS.Transition.Run

/-!
# Versions of a pipeline

An update of a pipeline records its steps under the version number that the caller's copy
carries, and a replay returns the first record with the number it asks for. So the numbers
identify the steps as long as no update brings a number that is recorded with other steps.
The action log, and the parts of the registry that versions do not read, are left out.
-/

namespace InfinityOS

namespace Pipeline

open Transition

inductive PipelineError where
  | pipelineNotFound (id : Uuid)
  | versionNotFound (pipelineId : Uuid) (version : UInt32)
  deriving DecidableEq

inductive StepKind where
  | map
  | filter
  | reduce
  | aggregate
  | window
  deriving DecidableEq

structure PipelineStep where
  id : Uuid
  name : String
  kind : StepKind
  params : Json
  outputSchemaId : Option Uuid

/-- `PipelineStep::new` with the generated id. -/
def PipelineStep.new (id : Uuid) (name : String) (kind : StepKind) : PipelineStep :=
  { id, name, kind, params := .object [], outputSchemaId := none }

/-- `Pipeline` of the source. -/
structure Definition where
  id : Uuid
  name : String
  dimensionId : DimensionId
  steps : List PipelineStep
  version : UInt32
  createdAtMs : UInt64
  updatedAtMs : UInt64

namespace Definition

/-- `Pipeline::new` with the generated id, at the time `nowMs`. -/
def new (id : Uuid) (name : String) (dimensionId : DimensionId) (nowMs : UInt64) :
    Definition :=
  { id, name, dimensionId, steps := [], version := 1, createdAtMs := nowMs,
    updatedAtMs := nowMs }

def addStep (p : Definition) (step : PipelineStep) (nowMs : UInt64) : Definition :=
  { p with steps := p.steps ++ [step], version := p.version + 1, updatedAtMs := nowMs }

end Definition

structure TransformVersion where
  id : Uuid
  pipelineId : Uuid
  version : UInt32
  stepsSnapshot : List PipelineStep
  savedAtMs : UInt64
  author : String
  description : String

/-- `TransformVersion::capture` with the generated id, at the time `nowMs`. -/
def TransformVersion.capture (p : Definition) (author description : String) (id : Uuid)
    (nowMs : UInt64) : TransformVersion :=
  { id, pipelineId := p.id, version := p.version, stepsSnapshot := p.steps,
    savedAtMs := nowMs, author, description }

structure TransformReplayRequest where
  pipelineId : Uuid
  version : UInt32
  inputRecords : List Json
  taskId : TaskId

structure PipelineRegistry where
  pipelines : HashMap Uuid Definition
  versions : HashMap Uuid (List TransformVersion)

namespace PipelineRegistry

def new : PipelineRegistry :=
  { pipelines := ∅, versions := ∅ }

def registerPipeline (r : PipelineRegistry) (p : Definition) : Uuid × PipelineRegistry :=
  (p.id, { r with pipelines := r.pipelines.insert p.id p })

def getPipeline (r : PipelineRegistry) (id : Uuid) : Except PipelineError Definition :=
  match r.pipelines[id]? with
  | none => .error (.pipelineNotFound id)
  | some p => .ok p

def updatePipeline (r : PipelineRegistry) (p : Definition) (author description : String)
    (recordId : Uuid) (nowMs : UInt64) :
    Except PipelineError TransformVersion × PipelineRegistry :=
  let version := TransformVersion.capture p author description recordId nowMs
  (.ok version,
    { pipelines := r.pipelines.insert p.id p
      versions := r.versions.insert p.id (r.versions[p.id]?.getD [] ++ [version]) })

def versionsForPipeline (r : PipelineRegistry) (pipelineId : Uuid) : List TransformVersion :=
  r.versions[pipelineId]?.getD []

def replayVersion (r : PipelineRegistry) (req : TransformReplayRequest) :
    Except PipelineError (TransformVersion × List Json) :=
  match r.getPipeline req.pipelineId with
  | .error e => .error e
  | .ok _ =>
      match r.versions[req.pipelineId]?.bind fun v =>
        v.find? fun tv => tv.version = req.version with
      | none => .error (.versionNotFound req.pipelineId req.version)
      | some version => .ok (version, req.inputRecords)

end PipelineRegistry

inductive PipelineCall where
  | register (p : Definition)
  | update (p : Definition) (author description : String) (recordId : Uuid) (nowMs : UInt64)
  | replay (req : TransformReplayRequest)

inductive PipelineAnswer where
  | registered (id : Uuid)
  | updated (result : Except PipelineError TransformVersion)
  | replayed (result : Except PipelineError (TransformVersion × List Json))

def PipelineRegistry.step (r : PipelineRegistry) :
    PipelineCall → PipelineAnswer × PipelineRegistry
  | .register p => let a := r.registerPipeline p; (.registered a.1, a.2)
  | .update p author description recordId nowMs =>
      let a := r.updatePipeline p author description recordId nowMs
      (.updated a.1, a.2)
  | .replay req => (.replayed (r.replayVersion req), r)

/-! ## Recorded versions -/

def answered (r : PipelineRegistry) (calls : List PipelineCall) : List TransformVersion :=
  (trace PipelineRegistry.step r calls).filterMap fun
    | (_, .updated (.ok version)) => some version
    | _ => none

/-- A replay with the number of the version returns its steps. -/
def Replays (r : PipelineRegistry) (version : TransformVersion) : Prop :=
  ∀ req : TransformReplayRequest, req.pipelineId = version.pipelineId →
    req.version = version.version →
    ∃ tv, r.replayVersion req = .ok (tv, req.inputRecords) ∧
      tv.stepsSnapshot = version.stepsSnapshot

/-- The number of a recorded version determines its steps. -/
def NumbersIdentify (r : PipelineRegistry) : Prop :=
  ∀ id, ∀ a ∈ r.versionsForPipeline id, ∀ b ∈ r.versionsForPipeline id,
    a.version = b.version → a.stepsSnapshot = b.stepsSnapshot

/-- An update does not bring a number that is recorded for the pipeline with other
steps. -/
def DrawsFreshNumber (r : PipelineRegistry) : PipelineCall → Prop
  | .update p _ _ _ _ => ∀ tv ∈ r.versionsForPipeline p.id, tv.version = p.version →
      tv.stepsSnapshot = p.steps
  | _ => True

section Step

variable (r : PipelineRegistry)

theorem versionsForPipeline_update (p : Definition) (author description : String)
    (recordId : Uuid) (nowMs : UInt64) (id : Uuid) :
    (r.updatePipeline p author description recordId nowMs).2.versionsForPipeline id =
      if id = p.id then
        r.versionsForPipeline p.id ++ [.capture p author description recordId nowMs]
      else r.versionsForPipeline id := by
  unfold PipelineRegistry.updatePipeline PipelineRegistry.versionsForPipeline
  rw [Maps.getElem?_insert_ite]
  split <;> rfl

def RecordsStored (r : PipelineRegistry) : Prop :=
  ∀ id, r.versionsForPipeline id ≠ [] → r.pipelines[id]?.isSome

variable {r}

theorem RecordsStored.step (h : RecordsStored r) (call : PipelineCall) :
    RecordsStored (r.step call).2 := by
  have hinsert : ∀ (p : Definition) (id : Uuid), (id ≠ p.id → r.pipelines[id]?.isSome) →
      (r.pipelines.insert p.id p)[id]?.isSome := by
    intro p id hid
    rw [Maps.getElem?_insert_ite]
    split
    · rfl
    · next hne => exact hid hne
  intro id hid
  cases call with
  | register p => exact hinsert p id fun _ => h id hid
  | replay req => exact h id hid
  | update p author description recordId nowMs =>
      refine hinsert p id fun hne => h id ?_
      change (r.updatePipeline p author description recordId nowMs).2.versionsForPipeline id ≠ []
        at hid
      rwa [versionsForPipeline_update, if_neg hne] at hid

theorem NumbersIdentify.step (h : NumbersIdentify r) (call : PipelineCall) :
    NumbersIdentify (r.step call).2 ↔ DrawsFreshNumber r call := by
  cases call with
  | register p => exact iff_of_true h trivial
  | replay req => exact iff_of_true h trivial
  | update p author description recordId nowMs =>
      change NumbersIdentify (r.updatePipeline p author description recordId nowMs).2 ↔
        ∀ tv ∈ r.versionsForPipeline p.id, tv.version = p.version → tv.stepsSnapshot = p.steps
      unfold NumbersIdentify
      simp only [versionsForPipeline_update]
      constructor
      · intro hafter tv htv hversion
        have hboth := hafter p.id
        rw [if_pos rfl] at hboth
        exact hboth tv (List.mem_append_left _ htv)
          (.capture p author description recordId nowMs) (by simp) hversion
      · intro hfresh id
        split
        · intro a ha b hb hversion
          rw [List.mem_append, List.mem_singleton] at ha hb
          rcases ha with ha | rfl
          · rcases hb with hb | rfl
            · exact h p.id a ha b hb hversion
            · exact hfresh a ha hversion
          · rcases hb with hb | rfl
            · exact (hfresh b hb hversion.symm).symm
            · rfl
        · exact h id

theorem mem_versions_step {id : Uuid} {tv : TransformVersion}
    (h : tv ∈ r.versionsForPipeline id) (call : PipelineCall) :
    tv ∈ (r.step call).2.versionsForPipeline id := by
  cases call with
  | register p => exact h
  | replay req => exact h
  | update p author description recordId nowMs =>
      change tv ∈ (r.updatePipeline p author description recordId nowMs).2.versionsForPipeline id
      rw [versionsForPipeline_update]
      split
      · next hid =>
          subst hid
          exact List.mem_append_left _ h
      · exact h

end Step

/-! ## Runs -/

theorem mem_versions_final {r : PipelineRegistry} {id : Uuid} {tv : TransformVersion}
    (h : tv ∈ r.versionsForPipeline id) (calls : List PipelineCall) :
    tv ∈ (final PipelineRegistry.step r calls).versionsForPipeline id :=
  invariant_final_of_forall (fun r : PipelineRegistry => tv ∈ r.versionsForPipeline id)
    (fun _ call h => mem_versions_step h call) calls h

theorem recorded_of_answered {r : PipelineRegistry} {calls : List PipelineCall}
    {tv : TransformVersion} (h : tv ∈ answered r calls) :
    tv ∈ (final PipelineRegistry.step r calls).versionsForPipeline tv.pipelineId := by
  induction calls generalizing r with
  | nil => cases h
  | cons call calls ih =>
      unfold answered at h
      rw [trace_cons, List.filterMap_cons] at h
      rw [final_cons]
      cases call with
      | register p => exact ih h
      | replay req => exact ih h
      | update p author description recordId nowMs =>
          change tv ∈ TransformVersion.capture p author description recordId nowMs ::
            answered _ calls at h
          rcases List.mem_cons.mp h with rfl | htail
          · apply mem_versions_final
            change _ ∈ (r.updatePipeline p author description recordId nowMs).2.versionsForPipeline
              p.id
            rw [versionsForPipeline_update, if_pos rfl]
            exact List.mem_append_right _ (List.mem_singleton_self _)
          · exact ih htail

theorem replays_of_recorded {r : PipelineRegistry} (hstored : RecordsStored r)
    (hidentify : NumbersIdentify r) {tv : TransformVersion}
    (h : tv ∈ r.versionsForPipeline tv.pipelineId) : Replays r tv := by
  intro req hpipeline hversion
  have hget : ∃ p, r.pipelines[req.pipelineId]? = some p := by
    rw [hpipeline, ← Option.isSome_iff_exists]
    exact hstored tv.pipelineId (List.ne_nil_of_mem h)
  obtain ⟨p, hp⟩ := hget
  rw [← hpipeline] at h
  unfold PipelineRegistry.versionsForPipeline at h
  cases hversions : r.versions[req.pipelineId]? with
  | none =>
      rw [hversions] at h
      cases h
  | some versions =>
      rw [hversions] at h
      change tv ∈ versions at h
      cases hfind : versions.find? fun tv => tv.version = req.version with
      | none =>
          have hother := List.find?_eq_none.mp hfind tv h
          simp [hversion] at hother
      | some found =>
          refine ⟨found, ?_, ?_⟩
          · unfold PipelineRegistry.replayVersion PipelineRegistry.getPipeline
            simp only [hp, hversions, Option.bind_some, hfind]
          · have hnumber := List.find?_some hfind
            rw [decide_eq_true_eq] at hnumber
            refine hidentify req.pipelineId found ?_ tv ?_ (hnumber.trans hversion)
            · unfold PipelineRegistry.versionsForPipeline
              rw [hversions]
              exact List.mem_of_find?_eq_some hfind
            · unfold PipelineRegistry.versionsForPipeline
              rw [hversions]
              exact h

/-- The runs in which, in every state, each update can be replayed under the number with
which it was answered and no number is recorded with two lists of steps are those whose
updates bring fresh numbers. -/
theorem versions_replay_iff (calls : List PipelineCall) :
    (∀ made, made <+: calls →
        (∀ tv ∈ answered .new made, Replays (final PipelineRegistry.step .new made) tv) ∧
          NumbersIdentify (final PipelineRegistry.step .new made)) ↔
      Along DrawsFreshNumber PipelineRegistry.step .new calls := by
  have hempty : ∀ id, PipelineRegistry.new.versionsForPipeline id = [] := by
    intro id
    simp [PipelineRegistry.new, PipelineRegistry.versionsForPipeline]
  have hidentify : NumbersIdentify .new := by
    intro id a ha
    rw [hempty] at ha
    cases ha
  have hstored : RecordsStored .new := fun id hid => absurd (hempty id) hid
  rw [← forall_reached_iff_along NumbersIdentify (fun _ call h => h.step call) calls hidentify]
  refine forall_congr' fun made => forall_congr' fun _ => ?_
  refine and_iff_right_of_imp fun hmade tv htv => ?_
  have hstoredMade : RecordsStored (final PipelineRegistry.step .new made) :=
    invariant_final_of_forall RecordsStored (fun _ call h => h.step call) made hstored
  exact replays_of_recorded hstoredMade hmade (recorded_of_answered htv)

def concurrentEdits : List PipelineCall :=
  let copy := Definition.new 1 "prices" 7 0
  [.register copy,
   .update (copy.addStep (.new 2 "clean" .map) 0) "alice" "" 3 0,
   .update (copy.addStep (.new 4 "sum" .reduce) 0) "bob" "" 5 0]

theorem same_number_twice :
    ¬ ((∀ tv ∈ answered .new concurrentEdits,
          Replays (final PipelineRegistry.step .new concurrentEdits) tv) ∧
        NumbersIdentify (final PipelineRegistry.step .new concurrentEdits)) := by
  rintro ⟨-, h⟩
  let copy := Definition.new 1 "prices" 7 0
  have hsteps := h 1
    (.capture (copy.addStep (.new 2 "clean" .map) 0) "alice" "" 3 0) List.mem_cons_self
    (.capture (copy.addStep (.new 4 "sum" .reduce) 0) "bob" "" 5 0)
    (List.mem_cons_of_mem _ List.mem_cons_self) rfl
  have hids := congrArg (List.map PipelineStep.id) hsteps
  revert hids
  decide

end Pipeline

end InfinityOS
