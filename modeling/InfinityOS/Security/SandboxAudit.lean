import InfinityOS.Security.Sandbox
import InfinityOS.Transition.Run

/-!
# The audit of the sandbox

An enforcer with an action log enters every request that a profile denies. A request of a
tool without a profile is denied before the step that writes the entry, and leaves no trace.
-/

namespace InfinityOS

namespace Security

open Transition

/-- The arguments of a call of `check`. -/
structure SandboxRequest where
  tool : String
  resource : SandboxResource

def SandboxResource.text : SandboxResource → String
  | .path p _ => p
  | .host h => h
  | .model m => m

/-- The entry is of the tool, and what was asked for stands in its reason. -/
def Violation.Names (v : Violation) (request : SandboxRequest) : Prop :=
  v.tool = request.tool ∧
    ∃ before after, v.reason = before ++ request.resource.text ++ after

namespace SandboxEnforcer

def withActionLog (policy : SandboxPolicy) (log : List Violation) : SandboxEnforcer :=
  { policy, actionLog := some log }

def step (e : SandboxEnforcer) (request : SandboxRequest) :
    Except SandboxError Unit × SandboxEnforcer :=
  e.check request.tool request.resource

/-- A denied request appends one entry, which names it, and an allowed one none. -/
def Audits (e : SandboxEnforcer) (request : SandboxRequest) : Prop :=
  match (e.step request).1 with
  | .ok () => (e.step request).2.actionLog = e.actionLog
  | .error _ => ∃ log v, e.actionLog = some log ∧
      (e.step request).2.actionLog = some (log ++ [v]) ∧ v.Names request

theorem display_of_checkInner {tool : String} {profile : SandboxProfile}
    {resource : SandboxResource} {err : SandboxError}
    (h : checkInner tool profile resource = .error err) :
    ∃ before after, err.display = before ++ resource.text ++ after := by
  cases resource with
  | path path access =>
      rw [checkInner] at h
      split at h
      · cases h
        refine ⟨"sandbox: path '",
          "' not in allowed prefix list for tool '" ++ tool ++ "'", ?_⟩
        unfold SandboxError.display SandboxResource.text
        simp only [String.append_assoc]
      · split at h
        · cases h
          refine ⟨"sandbox: filesystem write access denied for tool '" ++ tool ++ "' on path '",
            "'", ?_⟩
          unfold SandboxError.display SandboxResource.text
          dsimp only
        · cases h
  | host host =>
      have hdenied : err = .hostNotAllowed tool host := by
        rw [checkInner] at h
        split at h
        · cases h
          rfl
        · split at h
          · cases h
            rfl
          · cases h
      rw [hdenied]
      refine ⟨"sandbox: network host '", "' not allowed for tool '" ++ tool ++ "'", ?_⟩
      unfold SandboxError.display SandboxResource.text
      simp only [String.append_assoc]
  | model modelId =>
      rw [checkInner] at h
      split at h
      · cases h
        refine ⟨"sandbox: model '", "' not allowed for tool '" ++ tool ++ "'", ?_⟩
        unfold SandboxError.display SandboxResource.text
        simp only [String.append_assoc]
      · cases h

theorem audits_iff {e : SandboxEnforcer} {log : List Violation} (hlog : e.actionLog = some log)
    (request : SandboxRequest) :
    e.Audits request ↔ (e.policy.get request.tool).isSome := by
  unfold Audits step check
  cases hget : e.policy.get request.tool with
  | none =>
      refine iff_of_false ?_ Bool.false_ne_true
      rintro ⟨log', v, hbefore, hafter, -⟩
      dsimp only at hafter
      rw [hbefore] at hafter
      have hlength := congrArg List.length (Option.some.inj hafter)
      rw [List.length_append] at hlength
      exact absurd hlength (Nat.ne_of_lt (Nat.lt_succ_self _))
  | some profile =>
      refine iff_of_true ?_ rfl
      dsimp only
      cases hinner : checkInner request.tool profile request.resource with
      | ok done => rfl
      | error err =>
          dsimp only
          refine ⟨log, ⟨request.tool, err.display⟩, hlog, ?_, rfl, display_of_checkInner hinner⟩
          rw [emitViolation, hlog]
          rfl

theorem step_keeps (e : SandboxEnforcer) (request : SandboxRequest) :
    (e.step request).2.policy = e.policy ∧
      ((e.step request).2.actionLog.isSome = e.actionLog.isSome) := by
  unfold step check
  split
  · exact ⟨rfl, rfl⟩
  · split
    · exact ⟨rfl, Option.isSome_map⟩
    · exact ⟨rfl, rfl⟩

/-- Every request of a sequence is audited exactly if every tool that asks has a profile. -/
theorem audits_along_iff (policy : SandboxPolicy) (log : List Violation)
    (requests : List SandboxRequest) :
    Along Audits step (withActionLog policy log) requests ↔
      ∀ request ∈ requests, (policy.get request.tool).isSome := by
  have hconst : Along (fun _ request => (policy.get request.tool).isSome) step
      (withActionLog policy log) requests ↔ _ := along_const
  rw [← hconst]
  apply along_congr fun e => e.policy = policy ∧ e.actionLog.isSome
  · rintro e request ⟨rfl, hattached⟩
    obtain ⟨log', hlog⟩ := Option.isSome_iff_exists.mp hattached
    exact audits_iff hlog request
  · rintro e request ⟨hpolicy, hattached⟩ -
    obtain ⟨hkeeps, hkeeps'⟩ := e.step_keeps request
    exact ⟨hkeeps.trans hpolicy, hkeeps'.trans hattached⟩
  · exact ⟨rfl, rfl⟩

/-- A tool without a profile asks for a path. -/
theorem unregistered_not_audited :
    ¬ Along Audits step (withActionLog ⟨∅⟩ [])
      [⟨"rogue-tool", .path "/etc/passwd" .read⟩] := by
  rintro ⟨haudits, -⟩
  rw [audits_iff rfl] at haudits
  exact absurd haudits (by decide)

end SandboxEnforcer

end Security

end InfinityOS
