import InfinityOS.Core.Types
import InfinityOS.Filesystem.Components

/-!
# The sandbox

The check of a tool's access to a resource against the profile registered for the
tool. A path is compared with the allowed prefixes component by component as it is
written, so a path that begins with a prefix may lead out of it again by `..`.
-/

namespace InfinityOS

namespace Security

open Filesystem

inductive SandboxError where
  | pathNotAllowed (tool path : String)
  | writeNotAllowed (tool path : String)
  | hostNotAllowed (tool host : String)
  | modelNotAllowed (tool modelId : String)
  | noProfile (tool : String)
  deriving DecidableEq

def SandboxError.display : SandboxError → String
  | pathNotAllowed tool path =>
      "sandbox: path '" ++ path ++ "' not in allowed prefix list for tool '" ++ tool ++ "'"
  | writeNotAllowed tool path =>
      "sandbox: filesystem write access denied for tool '" ++ tool ++ "' on path '" ++ path ++ "'"
  | hostNotAllowed tool host =>
      "sandbox: network host '" ++ host ++ "' not allowed for tool '" ++ tool ++ "'"
  | modelNotAllowed tool modelId =>
      "sandbox: model '" ++ modelId ++ "' not allowed for tool '" ++ tool ++ "'"
  | noProfile tool => "sandbox: no profile registered for tool '" ++ tool ++ "'"

inductive PathAccess where
  | read
  | write
  deriving DecidableEq

structure SandboxProfile where
  toolName : String
  allowedPaths : List String
  allowedHosts : List String
  allowedModels : List String
  allowFsWrite : Bool
  allowNetwork : Bool
  deriving DecidableEq

inductive SandboxResource where
  | path (path : String) (access : PathAccess)
  | host (host : String)
  | model (modelId : String)
  deriving DecidableEq

structure SandboxPolicy where
  profiles : HashMap String SandboxProfile

def SandboxPolicy.register (policy : SandboxPolicy) (profile : SandboxProfile) : SandboxPolicy :=
  { profiles := policy.profiles.insert profile.toolName profile }

def SandboxPolicy.get (policy : SandboxPolicy) (toolName : String) : Option SandboxProfile :=
  policy.profiles[toolName]?

/-- The payload of an entry of type `SecuritySandboxViolation` in the action log. -/
structure Violation where
  tool : String
  reason : String
  deriving DecidableEq

/-- An enforcer with the violations in its action log, if it has one. -/
structure SandboxEnforcer where
  policy : SandboxPolicy
  actionLog : Option (List Violation)

namespace SandboxEnforcer

def checkInner (toolName : String) (profile : SandboxProfile) :
    SandboxResource → Except SandboxError Unit
  | .path path access =>
      if profile.allowedPaths.any (startsWith path) = false then
        .error (.pathNotAllowed toolName path)
      else if access = .write ∧ profile.allowFsWrite = false then
        .error (.writeNotAllowed toolName path)
      else
        .ok ()
  | .host host =>
      if profile.allowNetwork = false then
        .error (.hostNotAllowed toolName host)
      else if profile.allowedHosts.any (· == host) = false then
        .error (.hostNotAllowed toolName host)
      else
        .ok ()
  | .model modelId =>
      if profile.allowedModels.any (· == modelId) = false then
        .error (.modelNotAllowed toolName modelId)
      else
        .ok ()

def emitViolation (e : SandboxEnforcer) (toolName reason : String) : SandboxEnforcer :=
  { e with actionLog := e.actionLog.map (· ++ [⟨toolName, reason⟩]) }

def check (e : SandboxEnforcer) (toolName : String) (resource : SandboxResource) :
    Except SandboxError Unit × SandboxEnforcer :=
  match e.policy.get toolName with
  | none => (.error (.noProfile toolName), e)
  | some profile =>
      match checkInner toolName profile resource with
      | .error err => (.error err, e.emitViolation toolName err.display)
      | .ok () => (.ok (), e)

/-! ## Confinement -/

end SandboxEnforcer

end Security

end InfinityOS
