import InfinityOS.ModelRuntime.Performance
import InfinityOS.Transition.Run

/-!
# The cooldown of reloads

Over a run of registrations and samples, the reload requests of one model are spaced by the
cooldown of the policy the model was registered with, as long as the times of its samples do
not decrease: the test against the last reload subtracts with saturation.
-/

namespace InfinityOS

namespace ModelRuntime

open Transition
open Registry (Stamp)

namespace ModelPerformanceManager

inductive Call where
  | registerModel (profile : ModelProfile)
  | recordPerformance (modelId : String) (sample : PerformanceSample) (stamps : ℕ → Stamp)

inductive Answer where
  | registered (result : Except ModelRuntimeError Unit)
  | recorded (result : Except ModelRuntimeError ModelOptimizationDecision)

/-- One call; the lock makes calls atomic. -/
def step (m : ModelPerformanceManager) : Call → Answer × ModelPerformanceManager
  | .registerModel profile =>
      let (result, m') := m.registerModel profile
      (.registered result, m')
  | .recordPerformance modelId sample stamps =>
      let (result, m') := m.recordPerformance modelId sample stamps
      (.recorded result, m')

def Answer.reload : Answer → Option ModelReloadRequest
  | .recorded (.ok decision) => decision.reload
  | _ => none

def reloadOf (modelId : String) : Call × Answer → Option ModelReloadRequest
  | (.recordPerformance modelId' _ _, answer) => if modelId' = modelId then answer.reload else none
  | _ => none

def reloads (modelId : String) (calls : List Call) : List ModelReloadRequest :=
  (trace step new calls).filterMap (reloadOf modelId)

def registeredPolicy (modelId : String) (calls : List Call) : Option ModelReloadPolicy :=
  calls.findSome? fun call =>
    match call with
    | .registerModel profile =>
        if profile.modelId = modelId then some profile.reloadPolicy else none
    | .recordPerformance _ _ _ => none

def sampleTimes (modelId : String) (calls : List Call) : List UInt64 :=
  calls.filterMap fun call =>
    match call with
    | .registerModel _ => none
    | .recordPerformance modelId' sample _ =>
        if modelId' = modelId then some sample.capturedAtMs else none

/-- The second of two requests comes after the cooldown and raises the generation by one. -/
def Spaced (policy : ModelReloadPolicy) (first second : ModelReloadRequest) : Prop :=
  first.requestedAtMs.toNat + policy.cooldownMs.toNat ≤ second.requestedAtMs.toNat ∧
    second.reloadGeneration = first.reloadGeneration + 1

structure Follows (policy : ModelReloadPolicy) (state : ModelState)
    (requests : List ModelReloadRequest) : Prop where
  registered : state.profile.reloadPolicy = policy
  spaced : requests.IsChain (Spaced policy)
  last : state.lastReloadAtMs = requests.getLast?.map ModelReloadRequest.requestedAtMs
  raised : ∀ request ∈ requests.getLast?, request.reloadGeneration = state.reloadGeneration
  generation : state.reloadGeneration = .ofNat requests.length

/-! ## One sample -/

def Cooled (state : ModelState) (sample : PerformanceSample) : Prop :=
  ∀ last ∈ state.lastReloadAtMs,
    ¬ saturatingSub sample.capturedAtMs last < state.profile.reloadPolicy.cooldownMs

inductive Reloads (state state' : ModelState) (sample : PerformanceSample) :
    Option ModelReloadRequest → Prop
  | kept (hgeneration : state'.reloadGeneration = state.reloadGeneration)
      (hlast : state'.lastReloadAtMs = state.lastReloadAtMs) : Reloads state state' sample none
  | requested (request : ModelReloadRequest) (hcooled : Cooled state sample)
      (htime : request.requestedAtMs = sample.capturedAtMs)
      (hrequest : request.reloadGeneration = state'.reloadGeneration)
      (hgeneration : state'.reloadGeneration = state.reloadGeneration + 1)
      (hlast : state'.lastReloadAtMs = some sample.capturedAtMs) :
      Reloads state state' sample (some request)

/-- Adjustments before the policy is looked at do not matter. -/
theorem Reloads.of_tuned {state tuned state' : ModelState} {sample : PerformanceSample}
    {request : Option ModelReloadRequest} (h : Reloads tuned state' sample request)
    (hpolicy : tuned.profile.reloadPolicy = state.profile.reloadPolicy)
    (hgeneration : tuned.reloadGeneration = state.reloadGeneration)
    (hlast : tuned.lastReloadAtMs = state.lastReloadAtMs) :
    Reloads state state' sample request := by
  cases h with
  | kept hkept hkeptLast => exact .kept (hkept.trans hgeneration) (hkeptLast.trans hlast)
  | requested request hcooled htime hrequest hraised hnow =>
      refine .requested request ?_ htime hrequest (by rw [hraised, hgeneration]) hnow
      rwa [Cooled, hlast, hpolicy] at hcooled

theorem adjust_keeps (stamps : ℕ → Stamp) (k : ℕ) (adjustments : List HyperparameterAdjustment)
    (state : ModelState) (log : List ActionLog.Entry) :
    (adjust stamps k adjustments (state, log)).1.reloadGeneration = state.reloadGeneration ∧
      (adjust stamps k adjustments (state, log)).1.lastReloadAtMs = state.lastReloadAtMs := by
  induction adjustments generalizing k state log with
  | nil => exact ⟨rfl, rfl⟩
  | cons adjustment rest ih => exact ih (k + 1) (applyAdjustment state adjustment) _

theorem checkReloadPolicy_reloads (state : ModelState) (sample : PerformanceSample) :
    (checkReloadPolicy state sample).2.profile = state.profile ∧
      Reloads state (checkReloadPolicy state sample).2 sample
        ((checkReloadPolicy state sample).1.toOption.join) := by
  rw [checkReloadPolicy]
  dsimp only
  split
  · exact ⟨rfl, .kept rfl rfl⟩
  · split
    · exact ⟨rfl, .kept rfl rfl⟩
    · split
      · exact ⟨rfl, .kept rfl rfl⟩
      · split
        · exact ⟨rfl, .kept rfl rfl⟩
        · next hcooled =>
            refine ⟨rfl, .requested _ ?_ rfl rfl rfl rfl⟩
            intro last hlast
            rw [Option.mem_def] at hlast
            simpa [hlast] using hcooled

theorem recordPerformance_reloads {m : ModelPerformanceManager} {modelId : String}
    {state : ModelState} (hget : m.models[modelId]? = some state) (sample : PerformanceSample)
    (stamps : ℕ → Stamp) :
    ∃ state', (m.recordPerformance modelId sample stamps).2.models =
        m.models.insert modelId state' ∧
      state'.profile.reloadPolicy = state.profile.reloadPolicy ∧
      Reloads state state' sample
        (Answer.recorded (m.recordPerformance modelId sample stamps).1).reload := by
  unfold recordPerformance
  rw [hget]
  dsimp only
  split
  · exact ⟨_, rfl, rfl, .kept rfl rfl⟩
  · next found _ =>
      obtain ⟨hgeneration, hlast⟩ := adjust_keeps stamps 0 (found.filterMap id)
        { state with sampleCount := state.sampleCount + 1 } m.actionLog
      obtain ⟨-, hpolicy⟩ := adjust_frame stamps 0 (found.filterMap id)
        { state with sampleCount := state.sampleCount + 1 } m.actionLog
      generalize adjust stamps 0 (found.filterMap id)
        ({ state with sampleCount := state.sampleCount + 1 }, m.actionLog) = tuned at *
      obtain ⟨hprofile, hreloads⟩ := checkReloadPolicy_reloads tuned.1 sample
      dsimp only at hgeneration hlast hpolicy
      refine ⟨(checkReloadPolicy tuned.1 sample).2, ?_, ?_, ?_⟩
      · split
        all_goals
          next heq => rw [heq]
      · rw [hprofile, hpolicy]
      · have hanswer := hreloads.of_tuned hpolicy hgeneration hlast
        split
        all_goals
          next heq =>
            rw [heq] at hanswer ⊢
            exact hanswer

/-- The invariant of one model through a sample. -/
theorem Follows.sample {policy : ModelReloadPolicy} {state state' : ModelState}
    {sample : PerformanceSample} {requests : List ModelReloadRequest}
    {request : Option ModelReloadRequest} (h : Follows policy state requests)
    (hpolicy : state'.profile.reloadPolicy = state.profile.reloadPolicy)
    (hreloads : Reloads state state' sample request)
    (htimes : ∀ earlier ∈ requests, earlier.requestedAtMs ≤ sample.capturedAtMs) :
    Follows policy state' (requests ++ request.toList) := by
  cases hreloads with
  | kept hgeneration hlast =>
      rw [Option.toList_none, List.append_nil]
      exact ⟨hpolicy.trans h.registered, h.spaced, hlast.trans h.last,
        fun request hrequest => (h.raised request hrequest).trans hgeneration.symm,
        hgeneration.trans h.generation⟩
  | requested request hcooled htime hrequest hgeneration hlast =>
      rw [Option.toList_some]
      refine ⟨hpolicy.trans h.registered, ?_, ?_, ?_, ?_⟩
      · rw [List.isChain_append]
        refine ⟨h.spaced, List.isChain_singleton _, ?_⟩
        intro earlier hearlier later hlater
        rw [List.head?_cons, Option.mem_some_iff] at hlater
        subst hlater
        have hle := htimes earlier (List.mem_of_getLast? hearlier)
        rw [Option.mem_def] at hearlier
        have hspace := hcooled earlier.requestedAtMs
          (by rw [h.last, hearlier, Option.map_some, Option.mem_some_iff])
        refine ⟨?_, by rw [hrequest, hgeneration, h.raised earlier hearlier]⟩
        rw [h.registered, saturatingSub, if_neg (UInt64.not_lt.mpr hle),
          UInt64.lt_iff_toNat_lt, UInt64.toNat_sub_of_le _ _ hle] at hspace
        rw [UInt64.le_iff_toNat_le] at hle
        rw [htime]
        omega
      · rw [List.getLast?_concat, Option.map_some, htime, hlast]
      · intro last hmem
        rw [List.getLast?_concat, Option.mem_some_iff] at hmem
        rw [← hmem, hrequest]
      · rw [hgeneration, h.generation, List.length_append, List.length_singleton, UInt64.ofNat_add]
        rfl

/-! ## Runs -/

section Runs

variable {modelId : String} {policy : ModelReloadPolicy}

theorem reloads_concat (past : List Call) (call : Call) :
    reloads modelId (past ++ [call]) = reloads modelId past ++
      (reloadOf modelId (call, (step (final step new past) call).1)).toList := by
  rw [reloads, trace_append, List.filterMap_append]
  rfl

theorem registeredPolicy_concat (past : List Call) (call : Call) :
    registeredPolicy modelId (past ++ [call]) =
      (registeredPolicy modelId past).or (registeredPolicy modelId [call]) := by
  rw [registeredPolicy, List.findSome?_append]
  rfl

theorem sampleTimes_concat (past : List Call) (call : Call) :
    sampleTimes modelId (past ++ [call]) =
      sampleTimes modelId past ++ sampleTimes modelId [call] :=
  List.filterMap_append

/-- The manager knows the model under its policy, or not at all, and the requests of the run
are those of the model. -/
structure Tracked (modelId : String) (past : List Call) (m : ModelPerformanceManager) : Prop where
  unknown : m.models[modelId]? = none →
    registeredPolicy modelId past = none ∧ reloads modelId past = []
  known : ∀ state, m.models[modelId]? = some state →
    ∃ policy, registeredPolicy modelId past = some policy ∧
      Follows policy state (reloads modelId past)
  times : ∀ request ∈ reloads modelId past, request.requestedAtMs ∈ sampleTimes modelId past

theorem Tracked.frame {past : List Call} {m m' : ModelPerformanceManager} {call : Call}
    (h : Tracked modelId past m) (hmodel : m'.models[modelId]? = m.models[modelId]?)
    (hpolicy : registeredPolicy modelId (past ++ [call]) = registeredPolicy modelId past)
    (hreloads : reloads modelId (past ++ [call]) = reloads modelId past) :
    Tracked modelId (past ++ [call]) m' := by
  refine ⟨?_, ?_, ?_⟩
  · intro hnone
    rw [hpolicy, hreloads]
    exact h.unknown (hmodel ▸ hnone)
  · intro state hstate
    rw [hpolicy, hreloads]
    exact h.known state (hmodel ▸ hstate)
  · intro request hrequest
    rw [hreloads] at hrequest
    rw [sampleTimes_concat]
    exact List.mem_append_left _ (h.times request hrequest)

theorem tracked_registerModel {past : List Call} (profile : ModelProfile)
    (h : Tracked modelId past (final step new past)) :
    Tracked modelId (past ++ [.registerModel profile])
      ((final step new past).registerModel profile).2 := by
  have hreloads : reloads modelId (past ++ [.registerModel profile]) = reloads modelId past := by
    rw [reloads_concat]
    exact List.append_nil _
  by_cases hid : profile.modelId = modelId
  · subst hid
    cases hget : (final step new past).models[profile.modelId]? with
    | some state =>
        obtain ⟨policy, hpolicy, -⟩ := h.known state hget
        refine h.frame ?_ (by rw [registeredPolicy_concat, hpolicy, Option.some_or]) hreloads
        rw [registerModel, if_pos (by simp [Std.ExtTreeMap.contains_eq_isSome_getElem?, hget])]
    | none =>
        obtain ⟨hpolicy, hnil⟩ := h.unknown hget
        rw [registerModel, if_neg (by simp [Std.ExtTreeMap.contains_eq_isSome_getElem?, hget])]
        refine ⟨?_, ?_, ?_⟩
        · intro hnone
          simp at hnone
        · intro state hstate
          rw [Maps.getElem?_insert_ite, if_pos rfl, Option.some.injEq] at hstate
          subst hstate
          refine ⟨profile.reloadPolicy, ?_, ?_⟩
          · rw [registeredPolicy_concat, hpolicy]
            simp [registeredPolicy]
          · rw [hreloads, hnil]
            exact ⟨rfl, .nil, rfl, by simp, rfl⟩
        · rw [hreloads, hnil]
          simp
  · refine h.frame ?_ ?_ hreloads
    · rw [registerModel]
      split
      · rfl
      · rw [Maps.getElem?_insert_ite, if_neg (Ne.symm hid)]
    · rw [registeredPolicy_concat]
      simp [registeredPolicy, hid]

theorem tracked_recordPerformance {past : List Call} {modelId' : String}
    {sample : PerformanceSample} {stamps : ℕ → Stamp}
    (h : Tracked modelId past (final step new past))
    (htimes : (sampleTimes modelId
      (past ++ [.recordPerformance modelId' sample stamps])).Pairwise (· ≤ ·)) :
    Tracked modelId (past ++ [.recordPerformance modelId' sample stamps])
      ((final step new past).recordPerformance modelId' sample stamps).2 := by
  have hpolicy : registeredPolicy modelId (past ++ [.recordPerformance modelId' sample stamps]) =
      registeredPolicy modelId past := by
    rw [registeredPolicy_concat]
    exact Option.or_none
  cases hget : (final step new past).models[modelId']? with
  | none =>
      refine h.frame ?_ hpolicy ?_
      · rw [recordPerformance, hget]
      · rw [reloads_concat, step, reloadOf, recordPerformance, hget]
        simp [Answer.reload]
  | some state =>
      obtain ⟨state', hmodels, hsame, hstep⟩ := recordPerformance_reloads hget sample stamps
      by_cases hid : modelId' = modelId
      · subst hid
        have htimes' : sampleTimes modelId' [.recordPerformance modelId' sample stamps] =
            [sample.capturedAtMs] := by
          simp [sampleTimes]
        rw [sampleTimes_concat, htimes', List.pairwise_append] at htimes
        have hreloads : reloads modelId' (past ++ [.recordPerformance modelId' sample stamps]) =
            reloads modelId' past ++ (Answer.recorded ((final step new past).recordPerformance
              modelId' sample stamps).1).reload.toList := by
          rw [reloads_concat, step, reloadOf, if_pos rfl]
        obtain ⟨policy, hregistered, hfollows⟩ := h.known state hget
        have hfollows' := hfollows.sample hsame hstep fun earlier hearlier =>
          htimes.2.2 _ (h.times earlier hearlier) _ List.mem_cons_self
        refine ⟨?_, ?_, ?_⟩
        · intro hnone
          rw [hmodels, Maps.getElem?_insert_ite, if_pos rfl] at hnone
          cases hnone
        · intro state'' hstate
          rw [hmodels, Maps.getElem?_insert_ite, if_pos rfl, Option.some.injEq] at hstate
          subst hstate
          rw [hpolicy, hreloads]
          exact ⟨policy, hregistered, hfollows'⟩
        · intro request hrequest
          rw [sampleTimes_concat, htimes']
          rw [hreloads, List.mem_append] at hrequest
          cases hrequest with
          | inl hearlier => exact List.mem_append_left _ (h.times request hearlier)
          | inr hnow =>
              refine List.mem_append_right _ (List.mem_singleton.mpr ?_)
              generalize (Answer.recorded ((final step new past).recordPerformance modelId' sample
                stamps).1).reload = asked at hstep hnow
              cases hstep with
              | kept _ _ => cases hnow
              | requested request' _ htime _ _ _ =>
                  rw [← htime, List.mem_singleton.mp hnow]
      · refine h.frame ?_ hpolicy ?_
        · rw [hmodels, Maps.getElem?_insert_ite, if_neg (Ne.symm hid)]
        · rw [reloads_concat, step, reloadOf, if_neg hid]
          exact List.append_nil _

theorem tracked_final {calls : List Call}
    (htimes : (sampleTimes modelId calls).Pairwise (· ≤ ·)) :
    Tracked modelId calls (final step new calls) := by
  induction calls using List.reverseRecOn with
  | nil =>
      refine ⟨fun _ => ⟨rfl, rfl⟩, ?_, ?_⟩
      · intro state hstate
        simp [new] at hstate
      · intro request hrequest
        cases hrequest
  | append_singleton past call ih =>
      have hpast := htimes
      rw [sampleTimes_concat, List.pairwise_append] at hpast
      rw [final_concat]
      cases call with
      | registerModel profile => exact tracked_registerModel profile (ih hpast.1)
      | recordPerformance modelId' sample stamps =>
          exact tracked_recordPerformance (ih hpast.1) htimes

/-- The reload requests of a registered model are spaced by the cooldown of its policy, each
raising the generation by one, when the times of its samples do not decrease. -/
theorem reloads_spaced {calls : List Call} (hpolicy : registeredPolicy modelId calls = some policy)
    (htimes : (sampleTimes modelId calls).Pairwise (· ≤ ·)) :
    (reloads modelId calls).IsChain (Spaced policy) ∧
      ∃ state, (final step new calls).models[modelId]? = some state ∧
        state.reloadGeneration = .ofNat (reloads modelId calls).length := by
  have htracked := tracked_final htimes
  cases hget : (final step new calls).models[modelId]? with
  | none =>
      rw [(htracked.unknown hget).1] at hpolicy
      cases hpolicy
  | some state =>
      obtain ⟨policy', hpolicy', hfollows⟩ := htracked.known state hget
      rw [hpolicy, Option.some.injEq] at hpolicy'
      subst hpolicy'
      exact ⟨hfollows.spaced, state, rfl, hfollows.generation⟩

def inaccurateAt (capturedAtMs : UInt64) : Call :=
  .recordPerformance "model-a" { capturedAtMs, metrics := (∅ : HashMap _ _).insert "accuracy" 0.5 }
    fun _ => { eventId := 3, occurredAtMs := 0 }

theorem reloads_spaced_inaccurate :
    (reloads "model-a"
      [.registerModel { accuracyProfile with
        reloadPolicy := { ModelReloadPolicy.immediate "accuracy" .atMost 0.9 with
          cooldownMs := 1000 } },
        inaccurateAt 0, inaccurateAt 500, inaccurateAt 1000]).IsChain
      (Spaced { ModelReloadPolicy.immediate "accuracy" .atMost 0.9 with cooldownMs := 1000 }) :=
  (reloads_spaced (by rfl) (by simp [sampleTimes, inaccurateAt])).1

end Runs

end ModelPerformanceManager

end ModelRuntime

end InfinityOS
