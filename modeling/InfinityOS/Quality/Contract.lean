import InfinityOS.Core.Maps
import InfinityOS.Core.Types

/-!
# Interface contracts

The contracts of the interfaces, each a list of mandatory and advisory invariants, and the
runner that records the results of probes. Its verdict looks up the failed probes alone, so
an invariant that no probe has visited does not count against it.
-/

namespace InfinityOS

namespace Quality

inductive ContractError where
  | duplicateContract (name : String)
  deriving DecidableEq

inductive InterfaceLayer where
  | kernelAbi
  | rustTraits
  | meshProtocol
  | actionLogSchema
  | editorApi
  deriving DecidableEq

structure ContractInvariant where
  id : String
  description : String
  mandatory : Bool
  deriving DecidableEq

/-- `ContractInvariant::mandatory`. -/
def mandatoryInvariant (id description : String) : ContractInvariant where
  id := id
  description := description
  mandatory := true

/-- `ContractInvariant::advisory`. -/
def advisoryInvariant (id description : String) : ContractInvariant where
  id := id
  description := description
  mandatory := false

structure InterfaceContract where
  name : String
  layer : InterfaceLayer
  version : String
  invariants : List ContractInvariant
  deriving DecidableEq

namespace InterfaceContract

def new (name : String) (layer : InterfaceLayer) (version : String) : InterfaceContract where
  name := name
  layer := layer
  version := version
  invariants := []

def withInvariant (contract : InterfaceContract) (inv : ContractInvariant) : InterfaceContract :=
  { contract with invariants := contract.invariants ++ [inv] }

def find (contract : InterfaceContract) (id : String) : Option ContractInvariant :=
  contract.invariants.find? fun inv => inv.id == id

end InterfaceContract

structure ProbeResult where
  contract : String
  invariantId : String
  passed : Bool
  message : Option String

/-- A contract is registered under its own name. -/
structure ContractRegistry where
  contracts : HashMap String InterfaceContract
  keyed : ∀ (name : String) (contract : InterfaceContract),
    contracts[name]? = some contract → contract.name = name

namespace ContractRegistry

def empty : ContractRegistry where
  contracts := ∅
  keyed name contract h := by simp at h

def add (r : ContractRegistry) (contract : InterfaceContract) :
    Except ContractError Unit × ContractRegistry :=
  if r.contracts.contains contract.name then (.error (.duplicateContract contract.name), r)
  else
    (.ok (),
      { contracts := r.contracts.insert contract.name contract
        keyed := by
          intro name other h
          rw [Maps.getElem?_insert_ite] at h
          split at h
          · next hname =>
              obtain rfl := Option.some.inj h
              exact hname.symm
          · exact r.keyed name other h })

def all (r : ContractRegistry) : List InterfaceContract :=
  r.contracts.toList.map Prod.snd

def get (r : ContractRegistry) (name : String) : Option InterfaceContract :=
  r.contracts[name]?

def canonical : ContractRegistry :=
  [(InterfaceContract.new "mesh-artifact-api-v1" .rustTraits "1.0.0")
      |>.withInvariant (mandatoryInvariant "produce-returns-artifact-id"
        "produce() must return a non-empty ArtifactId on success")
      |>.withInvariant (mandatoryInvariant "consume-returns-latest-immutable"
        "consume() on an Immutable artifact must always return the same bytes")
      |>.withInvariant (mandatoryInvariant "snapshot-is-consistent"
        "snapshot() must capture a point-in-time view with no partial writes")
      |>.withInvariant (advisoryInvariant "diff-patch-idempotent"
        "Applying a patch twice must yield the same result as applying it once"),
    (InterfaceContract.new "event-bus-api-v1" .rustTraits "1.0.0")
      |>.withInvariant (mandatoryInvariant "emit-records-event"
        "emit() must persist the event before returning")
      |>.withInvariant (mandatoryInvariant "replay-ordered"
        "replay() must return events in emission order")
      |>.withInvariant (mandatoryInvariant "correlation-id-propagated"
        "All emitted events must carry a non-empty correlation_id"),
    (InterfaceContract.new "node-execution-api-v1" .rustTraits "1.0.0")
      |>.withInvariant (mandatoryInvariant "plan-returns-dag"
        "plan() must return a DAG with at least one node")
      |>.withInvariant (mandatoryInvariant "execute-emits-started-completed"
        "execute() must emit NodeStarted and NodeCompleted (or NodeFailed) events")
      |>.withInvariant (mandatoryInvariant "report-includes-task-id"
        "report() output must include the originating TaskId"),
    (InterfaceContract.new "kernel-abi-v1" .kernelAbi "1.0.0")
      |>.withInvariant (mandatoryInvariant "ffi-init-returns-zero-on-success"
        "ify_kernel_init() must return 0 on success, non-zero on failure")
      |>.withInvariant (mandatoryInvariant "task-id-monotonic"
        "Consecutive ify_task_next() calls must return strictly increasing IDs")
      |>.withInvariant (mandatoryInvariant "alloc-returns-aligned-pointer"
        "ify_alloc() must return a pointer aligned to at least 8 bytes, or NULL on OOM"),
    (InterfaceContract.new "editor-integration-api-v1" .editorApi "1.0.0")
      |>.withInvariant (mandatoryInvariant "attach-interpreter-idempotent"
        "Attaching the same interpreter twice must be a no-op (not an error)")
      |>.withInvariant (mandatoryInvariant "bind-runtime-returns-handle"
        "bind_runtime() must return a non-null RuntimeHandle")].foldl
    (fun r contract => (r.add contract).2) empty

theorem mem_all_iff {r : ContractRegistry} {contract : InterfaceContract} :
    contract ∈ r.all ↔ r.get contract.name = some contract := by
  unfold all get
  rw [List.mem_map]
  constructor
  · rintro ⟨⟨name, _⟩, hmem, rfl⟩
    have hget := Maps.mem_toList.mp hmem
    rwa [r.keyed _ _ hget]
  · intro h
    exact ⟨(contract.name, contract), Maps.mem_toList.mpr h, rfl⟩

end ContractRegistry

structure ContractTestRunner where
  results : List ProbeResult

namespace ContractTestRunner

def new : ContractTestRunner where
  results := []

def record (runner : ContractTestRunner) (result : ProbeResult) : ContractTestRunner :=
  { runner with results := runner.results ++ [result] }

/-- The loop of `allMandatoryPassed`. -/
def noneBlocks (registry : ContractRegistry) : List ProbeResult → Bool
  | [] => true
  | result :: results =>
      if result.passed then noneBlocks registry results
      else
        match registry.get result.contract with
        | none => noneBlocks registry results
        | some contract =>
            match contract.find result.invariantId with
            | none => noneBlocks registry results
            | some inv => if inv.mandatory then false else noneBlocks registry results

def allMandatoryPassed (runner : ContractTestRunner) (registry : ContractRegistry) : Bool :=
  noneBlocks registry runner.results

end ContractTestRunner

/-- A failed probe of an id that its contract lists first as mandatory. -/
def Blocks (registry : ContractRegistry) (result : ProbeResult) : Prop :=
  result.passed = false ∧ ∃ contract, registry.get result.contract = some contract ∧
    ∃ inv, contract.find result.invariantId = some inv ∧ inv.mandatory = true

/-- A failed probe of an id that its contract lists first as advisory and again as
mandatory. -/
def Shadowed (registry : ContractRegistry) (result : ProbeResult) : Prop :=
  result.passed = false ∧ ∃ contract, registry.get result.contract = some contract ∧
    (∃ inv, contract.find result.invariantId = some inv ∧ inv.mandatory = false) ∧
      ∃ inv ∈ contract.invariants, inv.id = result.invariantId ∧ inv.mandatory = true

def Probes (contract : InterfaceContract) (inv : ContractInvariant) (result : ProbeResult) :
    Prop :=
  result.contract = contract.name ∧ result.invariantId = inv.id

/-- Every mandatory invariant has been probed and has passed. -/
def Covered (registry : ContractRegistry) (results : List ProbeResult) : Prop :=
  ∀ contract ∈ registry.all, ∀ inv ∈ contract.invariants, inv.mandatory = true →
    ∃ result ∈ results, Probes contract inv result ∧ result.passed = true

/-- No probe of a mandatory invariant has failed. -/
def Unfailed (registry : ContractRegistry) (results : List ProbeResult) : Prop :=
  ∀ contract ∈ registry.all, ∀ inv ∈ contract.invariants, inv.mandatory = true →
    ∀ result ∈ results, Probes contract inv result → result.passed = true

section Verdict

variable {registry : ContractRegistry} {results : List ProbeResult}

theorem noneBlocks_iff :
    ContractTestRunner.noneBlocks registry results = true ↔
      ∀ result ∈ results, ¬ Blocks registry result := by
  induction results with
  | nil => simp [ContractTestRunner.noneBlocks]
  | cons result results ih =>
      rw [ContractTestRunner.noneBlocks, List.forall_mem_cons, ← ih]
      unfold Blocks
      cases result.passed with
      | true => simp
      | false =>
          cases registry.get result.contract with
          | none => simp
          | some contract =>
              cases hfind : contract.find result.invariantId with
              | none => simp [hfind]
              | some inv => cases hinv : inv.mandatory <;> simp [hfind, hinv]

theorem ContractRegistry.mem_all_of_get {name : String} {contract : InterfaceContract}
    (h : registry.get name = some contract) : contract ∈ registry.all ∧ contract.name = name := by
  have hname := registry.keyed _ _ h
  refine ⟨mem_all_iff.mpr ?_, hname⟩
  rwa [hname]

theorem InterfaceContract.find_eq_some {contract : InterfaceContract} {id : String}
    {inv : ContractInvariant} (h : contract.find id = some inv) :
    inv ∈ contract.invariants ∧ inv.id = id := by
  have hid := List.find?_some h
  exact ⟨List.mem_of_find?_eq_some h, beq_iff_eq.mp hid⟩

/-- Under the id of an invariant some invariant is listed first. -/
theorem InterfaceContract.exists_find {contract : InterfaceContract} {inv : ContractInvariant}
    (h : inv ∈ contract.invariants) : ∃ first, contract.find inv.id = some first := by
  rw [← Option.isSome_iff_exists]
  unfold find
  rw [List.find?_isSome]
  exact ⟨inv, h, beq_self_eq_true _⟩

theorem Unfailed.passed (h : Unfailed registry results) {result : ProbeResult}
    {contract : InterfaceContract} {inv : ContractInvariant} (hresult : result ∈ results)
    (hget : registry.get result.contract = some contract) (hinv : inv ∈ contract.invariants)
    (hid : inv.id = result.invariantId) (hmandatory : inv.mandatory = true) :
    result.passed = true := by
  obtain ⟨hall, hname⟩ := ContractRegistry.mem_all_of_get hget
  exact h contract hall inv hinv hmandatory result hresult ⟨hname.symm, hid.symm⟩

/-- A probe of a mandatory invariant fails only if it blocks or is shadowed. -/
theorem unfailed_iff :
    Unfailed registry results ↔
      ∀ result ∈ results, ¬ Blocks registry result ∧ ¬ Shadowed registry result := by
  constructor
  · intro h result hresult
    constructor
    · rintro ⟨hfailed, contract, hget, inv, hfind, hmandatory⟩
      obtain ⟨hinv, hid⟩ := InterfaceContract.find_eq_some hfind
      have hpassed := h.passed hresult hget hinv hid hmandatory
      rw [hfailed] at hpassed
      cases hpassed
    · rintro ⟨hfailed, contract, hget, -, inv, hinv, hid, hmandatory⟩
      have hpassed := h.passed hresult hget hinv hid hmandatory
      rw [hfailed] at hpassed
      cases hpassed
  · intro h contract hcontract inv hinv hmandatory result hresult hprobes
    obtain ⟨hname, hid⟩ := hprobes
    obtain ⟨hblocks, hshadowed⟩ := h result hresult
    have hget : registry.get result.contract = some contract := by
      rw [hname]
      exact ContractRegistry.mem_all_iff.mp hcontract
    obtain ⟨first, hfind⟩ := InterfaceContract.exists_find hinv
    rw [← hid] at hfind
    by_contra hpassed
    rw [Bool.not_eq_true] at hpassed
    cases hfirst : first.mandatory with
    | true => exact hblocks ⟨hpassed, contract, hget, first, hfind, hfirst⟩
    | false =>
        exact hshadowed ⟨hpassed, contract, hget, ⟨first, hfind, hfirst⟩, inv, hinv, hid.symm,
          hmandatory⟩

theorem not_shadowed (hunique : ∀ contract ∈ registry.all,
    (contract.invariants.map ContractInvariant.id).Nodup) (result : ProbeResult) :
    ¬ Shadowed registry result := by
  rintro ⟨-, contract, hget, ⟨first, hfind, hadvisory⟩, inv, hinv, hid, hmandatory⟩
  obtain ⟨hfirst, hfirstId⟩ := InterfaceContract.find_eq_some hfind
  have hnodup := hunique contract (ContractRegistry.mem_all_of_get hget).1
  have heq : inv = first :=
    List.inj_on_of_nodup_map hnodup hinv hfirst (hid.trans hfirstId.symm)
  rw [heq, hadvisory] at hmandatory
  cases hmandatory

end Verdict

/-- The verdict says whether every mandatory invariant has a passing probe and no failing
one, as long as a failed probe blocks, or all of them have been probed and no failed probe
is shadowed. -/
theorem verdict_sound_iff (runner : ContractTestRunner) (registry : ContractRegistry) :
    (runner.allMandatoryPassed registry = true ↔
        Covered registry runner.results ∧ Unfailed registry runner.results) ↔
      (∃ result ∈ runner.results, Blocks registry result) ∨
        Covered registry runner.results ∧
          ∀ result ∈ runner.results, ¬ Shadowed registry result := by
  unfold ContractTestRunner.allMandatoryPassed
  rw [noneBlocks_iff, unfailed_iff]
  constructor
  · intro h
    by_cases hblocks : ∃ result ∈ runner.results, Blocks registry result
    · exact .inl hblocks
    · have hnone : ∀ result ∈ runner.results, ¬ Blocks registry result :=
        fun result hmem hb => hblocks ⟨result, hmem, hb⟩
      obtain ⟨hcovered, hunfailed⟩ := h.mp hnone
      exact .inr ⟨hcovered, fun result hmem => (hunfailed result hmem).2⟩
  · rintro (⟨result, hmem, hblocks⟩ | ⟨hcovered, hshadowed⟩)
    · constructor
      · intro hnone
        exact absurd hblocks (hnone result hmem)
      · rintro ⟨-, hunfailed⟩
        exact absurd hblocks (hunfailed result hmem).1
    · constructor
      · intro hnone
        exact ⟨hcovered, fun result hmem => ⟨hnone result hmem, hshadowed result hmem⟩⟩
      · rintro ⟨-, hunfailed⟩ result hmem
        exact (hunfailed result hmem).1

/-- Before any probe has run the verdict on the canonical contracts is positive. -/
theorem verdict_of_no_probe :
    ¬ ∀ (runner : ContractTestRunner) (registry : ContractRegistry),
      runner.allMandatoryPassed registry = true ↔
        Covered registry runner.results ∧ Unfailed registry runner.results := by
  intro h
  obtain ⟨hcovered, -⟩ := (h .new .canonical).mp rfl
  have hmem : ∃ contract ∈ ContractRegistry.canonical.all, ∃ inv ∈ contract.invariants,
      inv.mandatory = true := by decide
  obtain ⟨contract, hcontract, inv, hinvs, hinv⟩ := hmem
  obtain ⟨result, hresult, -⟩ := hcovered contract hcontract inv hinvs hinv
  cases hresult

end Quality

end InfinityOS
