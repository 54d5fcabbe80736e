import InfinityOS.Core.LockInvariant
import InfinityOS.Kernel.ServiceRegistry

/-!
# The identity of services

Ids come from a counter that is never set back while the registry is up, names are looked up
before a slot is taken. Whatever threads register, start, stop and unregister services, and
in whatever order their steps come, no two registered services have one id or one name, until
the counter has gone round. `ify_service_unregister` refuses a service that is running or
starting and removes every other one, so also one that is stopping or was never started.
-/

namespace InfinityOS

namespace Kernel

open Transition LockProgram

namespace Registry

def live (r : Registry) : Set ℕ :=
  {k | (r.slot k).state ≠ .unregistered}

/-- The registered services are told apart by their ids and by their names, as far as these
are compared, and none has the id that is no service's. -/
structure Identified (r : Registry) : Prop where
  ids : r.live.InjOn fun k => (r.slot k).id
  names : r.live.InjOn fun k => (r.slot k).desc.name.take serviceNameMax
  nonzero : ∀ k ∈ r.live, (r.slot k).id ≠ 0

/-- The ids of the registered services are among the `n` given out so far. -/
structure Numbered (r : Registry) (n : ℕ) : Prop extends r.Identified where
  issued : ∀ k ∈ r.live, (r.slot k).id.toNat ≤ n
  next : r.nextId.toNat = n + 1

/-- The table after `ify_service_register` has entered a service in slot `k`. -/
def enter (r : Registry) (k : ℕ) (desc : ServiceDescriptor) : Registry :=
  { r with
    slots := r.slots.set k { desc, id := r.nextId, state := .registered, restartCount := 0 }
    nextId := r.nextId + 1 }

variable {r : Registry} {j k n : ℕ} {f : ServiceSlot → ServiceSlot}

/-! ## The slots -/

theorem mem_live : k ∈ r.live ↔ (r.slot k).state ≠ .unregistered :=
  Iff.rfl

theorem slot_modifySlot_of_ne (h : j ≠ k) : (r.modifySlot k f).slot j = r.slot j := by
  unfold slot modifySlot
  simp [List.getD_eq_getElem?_getD, List.getElem?_modify_ne, h.symm]

theorem lt_length_of_live (h : k ∈ r.live) : k < r.slots.length := by
  by_contra hlength
  apply h
  unfold slot
  rw [List.getD_eq_default _ _ (not_lt.mp hlength)]
  rfl

theorem slot_modifySlot_self (h : k ∈ r.live) : (r.modifySlot k f).slot k = f (r.slot k) := by
  have hlength := lt_length_of_live h
  unfold slot modifySlot
  simp [List.getD_eq_getElem?_getD, hlength]

theorem slot_enter_of_ne {desc : ServiceDescriptor} (h : j ≠ k) :
    (r.enter k desc).slot j = r.slot j := by
  unfold slot enter
  rw [List.getD_eq_getElem?_getD, List.getD_eq_getElem?_getD, List.getElem?_set_ne h.symm]

theorem slot_enter_self {desc : ServiceDescriptor} (h : k < r.slots.length) :
    (r.enter k desc).slot k =
      { desc, id := r.nextId, state := .registered, restartCount := 0 } := by
  unfold slot enter
  simp [List.getD_eq_getElem?_getD, h]

theorem slot_eq_getElem (h : k < r.slots.length) : r.slot k = r.slots[k] := by
  unfold slot
  simp [List.getD_eq_getElem?_getD, h]

theorem live_of_slotById {id : ServiceId} (h : r.slotById id = some k) : k ∈ r.live := by
  obtain ⟨hlength, hfound, -⟩ := List.findIdx?_eq_some_iff_getElem.mp h
  have hk := (of_decide_eq_true hfound).2
  rwa [← slot_eq_getElem hlength] at hk

theorem lt_length_of_slotFree (h : r.slotFree = some k) : k < r.slots.length :=
  (List.findIdx?_eq_some_iff_getElem.mp h).1

theorem name_ne_of_slotByName {name : List UInt8} (h : r.slotByName name = none)
    (hk : k ∈ r.live) : (r.slot k).desc.name.take serviceNameMax ≠ name.take serviceNameMax := by
  intro hname
  have hlength := lt_length_of_live hk
  have hnot := List.findIdx?_eq_none_iff.mp h r.slots[k] (List.getElem_mem hlength)
  rw [← slot_eq_getElem hlength] at hnot
  exact of_decide_eq_false hnot ⟨hk, hname⟩

/-! ## What the writes keep -/

theorem Numbered.of_kept {r' : Registry} (h : r.Numbered n) (hnext : r'.nextId = r.nextId)
    (hkept : ∀ k ∈ r'.live, k ∈ r.live ∧ (r'.slot k).id = (r.slot k).id ∧
      (r'.slot k).desc = (r.slot k).desc) : r'.Numbered n := by
  have hlive : r'.live ⊆ r.live := fun k hk => (hkept k hk).1
  constructor
  · constructor
    · apply (h.ids.mono hlive).congr
      intro k hk
      exact (hkept k hk).2.1.symm
    · apply (h.names.mono hlive).congr
      intro k hk
      dsimp only
      rw [(hkept k hk).2.2]
    · intro k hk
      rw [(hkept k hk).2.1]
      exact h.nonzero k (hlive hk)
  · intro k hk
    rw [(hkept k hk).2.1]
    exact h.issued k (hlive hk)
  · rw [hnext]
    exact h.next

theorem Numbered.modifySlot (h : r.Numbered n) (hk : k ∈ r.live)
    (hf : ∀ s, (f s).state ≠ .unregistered → (f s).id = s.id ∧ (f s).desc = s.desc) :
    (r.modifySlot k f).Numbered n := by
  refine h.of_kept rfl fun j hj => ?_
  by_cases hjk : j = k
  · subst hjk
    rw [mem_live, slot_modifySlot_self hk] at hj
    rw [slot_modifySlot_self hk]
    exact ⟨hk, hf _ hj⟩
  · rw [mem_live, slot_modifySlot_of_ne hjk] at hj
    rw [slot_modifySlot_of_ne hjk]
    exact ⟨hj, rfl, rfl⟩

theorem injOn_enter {α : Type*} (key : ServiceSlot → α) {desc : ServiceDescriptor}
    (h : r.live.InjOn fun j => key (r.slot j)) (hk : k < r.slots.length)
    (hnew : ∀ j ∈ r.live, key (r.slot j) ≠ key ⟨desc, r.nextId, .registered, 0⟩) :
    (r.enter k desc).live.InjOn fun j => key ((r.enter k desc).slot j) := by
  have hlive {j : ℕ} (hj : j ∈ (r.enter k desc).live) (hjk : j ≠ k) : j ∈ r.live := by
    rwa [mem_live, slot_enter_of_ne hjk] at hj
  intro i hi j hj heq
  dsimp only at heq
  by_cases hik : i = k
  · by_cases hjk : j = k
    · rw [hik, hjk]
    · rw [hik, slot_enter_self hk, slot_enter_of_ne hjk] at heq
      exact absurd heq.symm (hnew j (hlive hj hjk))
  · by_cases hjk : j = k
    · rw [hjk, slot_enter_self hk, slot_enter_of_ne hik] at heq
      exact absurd heq (hnew i (hlive hi hik))
    · rw [slot_enter_of_ne hik, slot_enter_of_ne hjk] at heq
      exact h (hlive hi hik) (hlive hj hjk) heq

theorem forall_live_enter {P : ServiceSlot → Prop} {desc : ServiceDescriptor}
    (hk : k < r.slots.length) (h : ∀ j ∈ r.live, P (r.slot j))
    (hnew : P ⟨desc, r.nextId, .registered, 0⟩) :
    ∀ j ∈ (r.enter k desc).live, P ((r.enter k desc).slot j) := by
  intro j hj
  by_cases hjk : j = k
  · rw [hjk, slot_enter_self hk]
    exact hnew
  · rw [mem_live, slot_enter_of_ne hjk] at hj
    rw [slot_enter_of_ne hjk]
    exact h j hj

/-- A service comes in under a new name, and the counter does not go round: its id is above
all others. -/
theorem Numbered.enter {desc : ServiceDescriptor} (h : r.Numbered n) (hn : n + 2 < 2 ^ 32)
    (hname : r.slotByName desc.name = none) (hfree : r.slotFree = some k) :
    (r.enter k desc).Numbered (n + 1) := by
  have hk := lt_length_of_slotFree hfree
  constructor
  · constructor
    · apply injOn_enter ServiceSlot.id h.ids hk
      intro j hj heq
      have hissued := h.issued j hj
      rw [heq, h.next] at hissued
      omega
    · apply injOn_enter (fun s => s.desc.name.take serviceNameMax) h.names hk
      intro j hj
      exact name_ne_of_slotByName hname hj
    · apply forall_live_enter (P := fun s => s.id ≠ 0) hk h.nonzero
      intro hzero
      have hnext := h.next
      dsimp only at hzero
      rw [hzero, UInt32.toNat_zero] at hnext
      omega
  · apply forall_live_enter (P := fun s => s.id.toNat ≤ n + 1) hk
    · intro j hj
      exact Nat.le_succ_of_le (h.issued j hj)
    · exact h.next.le
  · change (r.nextId + 1).toNat = n + 1 + 1
    rw [UInt32.toNat_add, h.next, UInt32.toNat_one, Nat.mod_eq_of_lt hn]

end Registry

/-! ## The functions keep it -/

/-- The registrations after a write of the table: each gives out the next id. -/
def countRegistration (n : ℕ) (r r' : Registry) : ℕ :=
  if r'.nextId = r.nextId then n else n + 1

/-- The table with the number of registrations, as long as these are fewer than the ids. -/
def services : Resource ℕ Registry :=
  { record := countRegistration
    inv := fun n r => n < 2 ^ 32 - 1 → r.Numbered n
    record_self := fun _ _ => if_pos rfl }

section Keeping

variable {n : ℕ} {r : Registry} {k : ℕ} {next : ServiceProg}

theorem keeps_modifySlot {f : ServiceSlot → ServiceSlot} (h : services.inv n r)
    (hk : k ∈ r.live)
    (hf : ∀ s, (f s).state ≠ .unregistered → (f s).id = s.id ∧ (f s).desc = s.desc)
    (hnext : services.inv n (r.modifySlot k f) →
      Keeps services (some (n, r.modifySlot k f)) next) :
    Keeps services (some (n, r)) (write (fun r => r.modifySlot k f) next) := by
  have hinv : services.inv n (r.modifySlot k f) := fun hn => (h hn).modifySlot hk hf
  exact keeps_access_of_record_eq (if_pos rfl) hinv (hnext hinv)

theorem keeps_setState {state : ServiceState} {result : Returned} (h : services.inv n r)
    (hk : k ∈ r.live) :
    Keeps services (some (n, r)) (write (fun r => r.setState k state) (unlockRet result)) :=
  keeps_modifySlot h hk (fun _ _ => ⟨rfl, rfl⟩) fun _ => trivial

theorem keeps_lookup {site : Site} {id : ServiceId} {absent : ServiceProg}
    {found : Registry → ℕ → ServiceProg} (habsent : ∀ x, Keeps services (some x) absent)
    (hfound : ∀ n r k, services.inv n r → k ∈ r.live →
      Keeps services (some (n, r)) (found r k)) (known : Option (ℕ × Registry)) :
    Keeps services known (.lock (.access site (fun r => r) fun r =>
      match r.slotById id with
      | none => absent
      | some k => found r k)) := by
  apply keeps_lock_look fun _ => rfl
  intro n r h
  split
  · exact habsent _
  · next k hk => exact hfound n r k h (Registry.live_of_slotById hk)

theorem keeps_startAttempt (id : ServiceId) {failed : ℕ → StatusCode → ServiceProg}
    (h : ∀ n r k rc, services.inv n r → k ∈ r.live → Keeps services (some (n, r)) (failed k rc))
    (x : ℕ × Registry) : Keeps services (some x) (startAttempt id failed) := by
  intro rc
  apply keeps_lookup
  · exact fun _ => trivial
  · intro n r k hinv hk
    split
    · exact keeps_setState hinv hk
    · refine keeps_modifySlot hinv hk (fun _ _ => ⟨rfl, rfl⟩) fun hinv => h _ _ _ _ hinv ?_
      rw [Registry.mem_live, Registry.slot_modifySlot_self hk]
      exact hk

theorem keeps_startLoop (id : ServiceId) (maxRestarts backoffBase : UInt32) (left : ℕ)
    (x : ℕ × Registry) : Keeps services (some x) (startLoop id maxRestarts backoffBase left) := by
  induction left generalizing x with
  | zero =>
      apply keeps_startAttempt
      intro n r k rc hinv hk
      exact keeps_setState hinv hk
  | succ left ih =>
      apply keeps_startAttempt
      intro n r k rc _ _
      have hagain : Keeps services none
          (.lock (.access (.refetch id) (fun r => r) fun r =>
            match r.slotById id with
            | none => .ret (.status errNotFound)
            | some _ => startLoop id maxRestarts backoffBase left)) := by
        apply keeps_lookup
        · exact fun _ => trivial
        · exact fun n r _ _ _ => ih (n, r)
      unfold Keeps
      split
      · exact fun _ => hagain
      · exact hagain

theorem keeps_serviceRegister (desc : Option ServiceDescriptor) (hasOut : Bool)
    (known : Option (ℕ × Registry)) : Keeps services known (serviceRegister desc hasOut) := by
  cases desc with
  | none => exact keeps_ret _ _
  | some desc =>
      rw [serviceRegister]
      split
      · exact keeps_ret _ _
      · apply keeps_lock_look fun _ => rfl
        intro n r h
        split
        · trivial
        · next hname =>
            split
            · trivial
            · next k hfree =>
                have hnext : (r.enter k desc).nextId ≠ r.nextId := by
                  change r.nextId + 1 ≠ r.nextId
                  simp
                have hrecord : services.record n r (r.enter k desc) = n + 1 := if_neg hnext
                have hinv : services.inv (services.record n r (r.enter k desc))
                    (r.enter k desc) := by
                  rw [hrecord]
                  intro hn
                  exact (h (by omega)).enter (by omega) hname hfree
                exact ⟨hinv, trivial⟩

theorem keeps_serviceUnregister (id : ServiceId) (known : Option (ℕ × Registry)) :
    Keeps services known (serviceUnregister id) := by
  apply keeps_lookup
  · exact fun _ => trivial
  · intro n r k h hk
    split
    · trivial
    · exact keeps_modifySlot h hk (fun _ hs => absurd rfl hs) fun _ => trivial

theorem keeps_serviceStart (id : ServiceId) (known : Option (ℕ × Registry)) :
    Keeps services known (serviceStart id) := by
  apply keeps_lookup
  · exact fun _ => trivial
  · intro n r k h hk
    dsimp only
    split
    · trivial
    · exact keeps_modifySlot h hk (fun _ _ => ⟨rfl, rfl⟩) fun _ => keeps_startLoop _ _ _ _ _

theorem keeps_serviceStop (id : ServiceId) (known : Option (ℕ × Registry)) :
    Keeps services known (serviceStop id) := by
  apply keeps_lookup
  · exact fun _ => trivial
  · intro n r k h hk
    dsimp only
    split
    · trivial
    · refine keeps_modifySlot h hk (fun _ _ => ⟨rfl, rfl⟩) fun _ _ => ?_
      apply keeps_lookup
      · exact fun _ => trivial
      · exact fun n r k h hk => keeps_setState h hk

theorem keeps_serviceState (id : ServiceId) (hasOut : Bool) (known : Option (ℕ × Registry)) :
    Keeps services known (serviceState id hasOut) := by
  rw [serviceState]
  split
  · apply keeps_lookup
    · exact fun _ => trivial
    · exact fun _ _ _ _ _ => trivial
  · exact keeps_ret _ _

theorem keeps_serviceHealthCheck (id : ServiceId) (known : Option (ℕ × Registry)) :
    Keeps services known (serviceHealthCheck id) := by
  apply keeps_lookup
  · exact fun _ => trivial
  · intro n r k _ _
    unfold Keeps
    split
    · exact fun _ => trivial
    · trivial

theorem keeps_serviceFind (name : Option (List UInt8)) (hasOut : Bool)
    (known : Option (ℕ × Registry)) : Keeps services known (serviceFind name hasOut) := by
  cases name with
  | none => exact keeps_ret _ _
  | some name =>
      rw [serviceFind]
      split
      · apply keeps_lock_look fun _ => rfl
        intro n r _
        split <;> trivial
      · exact keeps_ret _ _

/-- The calls of a registry that is up: all but those of the kernel's init and shutdown. -/
def ServiceCall.whileUp : ServiceCall → Bool
  | init => false
  | shutdown => false
  | _ => true

theorem ServiceCall.keeps {call : ServiceCall} (h : call.whileUp = true)
    (known : Option (ℕ × Registry)) : Keeps services known call.program := by
  cases call with
  | init => cases h
  | shutdown => cases h
  | register desc hasOut => exact keeps_serviceRegister desc hasOut known
  | unregister id => exact keeps_serviceUnregister id known
  | start id => exact keeps_serviceStart id known
  | stop id => exact keeps_serviceStop id known
  | state id hasOut => exact keeps_serviceState id hasOut known
  | healthCheck id => exact keeps_serviceHealthCheck id known
  | find name hasOut => exact keeps_serviceFind name hasOut known

end Keeping

/-! ## Removal -/

/-- `ify_service_unregister` answers for the service in slot `k` as its header says: `IFY_OK`
if and only if the service is stopped or has failed. -/
def RemovedAsDocumented (r : Registry) (id : ServiceId) (k : ℕ) : Prop :=
  ∀ answers, ((serviceUnregister id).alone answers r).1 = .status ifyOk ↔
    (r.slot k).state = .stopped ∨ (r.slot k).state = .failed

theorem status_serviceUnregister {r : Registry} {id : ServiceId} {k : ℕ}
    (h : r.slotById id = some k) (answers : ℕ → StatusCode) :
    ((serviceUnregister id).alone answers r).1 =
      .status (if (r.slot k).state = .running ∨ (r.slot k).state = .starting then errInvalidArg
        else ifyOk) := by
  rw [serviceUnregister, Prog.alone, read, Prog.alone, h]
  dsimp only
  split
  · rfl
  · rfl

theorem removedAsDocumented_iff {r : Registry} {id : ServiceId} {k : ℕ}
    (h : r.slotById id = some k) :
    RemovedAsDocumented r id k ↔
      (r.slot k).state ≠ .registered ∧ (r.slot k).state ≠ .stopping := by
  have hlive := Registry.mem_live.mp (Registry.live_of_slotById h)
  have hok : errInvalidArg ≠ ifyOk := by decide
  unfold RemovedAsDocumented
  simp only [status_serviceUnregister h, forall_const, Returned.status.injEq]
  cases hstate : (r.slot k).state with
  | unregistered => exact absurd hstate hlive
  | registered => simp
  | starting => simp [hok]
  | running => simp [hok]
  | stopping => simp
  | failed => simp
  | stopped => simp

/-! ## All interleavings -/

section Threads

variable {ι : Type*} [DecidableEq ι]

theorem unregister_decided {m m' : RegistryMachine ι} {i : ι} {id : ServiceId}
    {lookup : ServiceProg} {answer : StatusCode} (hlookup : serviceUnregister id = .lock lookup)
    (hi : m.thread i = some lookup) (hstep : registryStep m (.run i answer) = some m') :
    ∃ rest, m'.thread i = some rest ∧ ∀ answers answers' r,
      (rest.alone answers r).1 = ((serviceUnregister id).alone answers' m.shared).1 := by
  cases hlookup
  simp only [registryStep, LockProgram.Machine.step, hi, read, Option.some.injEq] at hstep
  subst hstep
  refine ⟨_, Function.update_self i _ _, fun answers answers' r => ?_⟩
  rw [serviceUnregister, Prog.alone, read, Prog.alone]
  split
  · rfl
  · split
    · rfl
    · rfl

def RegistryLabel.whileUp : RegistryLabel ι → Bool
  | .call _ called => called.whileUp
  | .run _ _ => true

def countedStep (x : ℕ × RegistryMachine ι) (a : RegistryLabel ι) :
    Option (ℕ × RegistryMachine ι) :=
  (registryStep x.2 a).map fun m => (countRegistration x.1 x.2.shared m.shared, m)

abbrev Serving (initialized : Bool) (n : ℕ) (m : RegistryMachine ι) : Prop :=
  Reach (fun x a y => countedStep x a = some y) (fun _ a => a.whileUp = true)
    (0, .new { Registry.start with initialized }) (n, m)

theorem numbered_start (initialized : Bool) :
    ({ Registry.start with initialized } : Registry).Numbered 0 := by
  have hslot (k : ℕ) : k ∉ ({ Registry.start with initialized } : Registry).live := by
    rw [Registry.mem_live, not_not]
    unfold Registry.slot Registry.start
    dsimp only
    rw [List.getD_eq_getElem?_getD, List.getElem?_replicate]
    split
    · rfl
    · rfl
  constructor
  · constructor
    · exact fun j hj => absurd hj (hslot j)
    · exact fun j hj => absurd hj (hslot j)
    · exact fun j hj => absurd hj (hslot j)
  · exact fun j hj => absurd hj (hslot j)
  · rfl

theorem numbered_of_serving {initialized : Bool} {n : ℕ} {m : RegistryMachine ι}
    (h : Serving initialized n m) (hn : n < 2 ^ 32 - 1) : m.shared.Numbered n := by
  have hs : services.inv 0 { Registry.start with initialized } := fun _ => numbered_start _
  refine inv_of_reach hs (h.map RegistryLabel.toLabel ?_ ?_) hn
  · intro x a ha
    cases a with
    | call i call => exact call.keeps ha
    | run i answer => trivial
  · intro x a y hstep
    cases a with
    | call i call => exact hstep
    | run i answer => exact hstep

/-- Whatever calls there were, the services have their own ids and names, and the header is
right about the removal of one exactly if it is not stopping and was started before. -/
theorem services_identified {initialized : Bool} {n : ℕ} {m : RegistryMachine ι}
    (h : Serving initialized n m) (hn : n < 2 ^ 32 - 1) :
    m.shared.Identified ∧ ∀ id k, m.shared.slotById id = some k →
      (RemovedAsDocumented m.shared id k ↔
        (m.shared.slot k).state ≠ .registered ∧ (m.shared.slot k).state ≠ .stopping) :=
  ⟨(numbered_of_serving h hn).toIdentified, fun _ _ hk => removedAsDocumented_iff hk⟩

/-- The registrations and the threads after the steps of a run that can be made. -/
def servingAfter (run : List (RegistryLabel ι)) : ℕ × RegistryMachine ι :=
  follow countedStep (0, .new { Registry.start with initialized := true }) run

theorem serving_servingAfter {run : List (RegistryLabel ι)}
    (h : accepts countedStep (fun _ a => a.whileUp)
      (0, .new { Registry.start with initialized := true }) run = true) :
    Serving true (servingAfter run).1 (servingAfter run).2 :=
  reach_follow_of_admitted .refl (admitted_of_accepts (fun _ _ ha => ha) h)

def registerRun : List (RegistryLabel Bool) :=
  callSteps false (.register (some loggerDescriptor) true) 5

/-- Another service is registered, then the first name once more. The start of the first
service fails, with no restart left, and a third one is registered while its callback runs. -/
def failingRun : List (RegistryLabel Bool) :=
  registerRun ++
    callSteps false (.register (some { loggerDescriptor with name := [116, 114, 97] }) true) 5 ++
    callSteps false (.register (some loggerDescriptor) true) 4 ++ callSteps true (.start 1) 4 ++
    callSteps false (.register (some { loggerDescriptor with name := [99, 102, 103] }) true) 5 ++
    List.replicate 6 (.run true errOutOfMemory)

/-- The three services are told apart, and the one that failed can be removed. -/
theorem services_identified_failed :
    ((servingAfter failingRun).2.shared.slots.take 4).map ServiceSlot.state =
        [.failed, .registered, .registered, .unregistered] ∧
      (servingAfter failingRun).2.shared.Identified ∧
      ((serviceUnregister 1).alone (fun _ => ifyOk) (servingAfter failingRun).2.shared).1 =
        .status ifyOk := by
  have hfound : (servingAfter failingRun).2.shared.slotById 1 = some 0 := by decide +kernel
  have hfailed : ((servingAfter failingRun).2.shared.slot 0).state = .failed := by
    decide +kernel
  have hserving : Serving true (servingAfter failingRun).1 (servingAfter failingRun).2 :=
    serving_servingAfter (by decide +kernel)
  obtain ⟨hid, hremoved⟩ := services_identified hserving (by decide +kernel)
  refine ⟨by decide +kernel, hid, ((hremoved 1 0 hfound).mpr ?_ _).mpr (.inr hfailed)⟩
  rw [hfailed]
  decide

/-- A service that was never started is removed. -/
theorem not_removedAsDocumented_registered :
    ∃ (n : ℕ) (m : RegistryMachine Bool), Serving true n m ∧ n < 2 ^ 32 - 1 ∧
      ∃ id k, m.shared.slotById id = some k ∧ ¬ RemovedAsDocumented m.shared id k := by
  have hfound : (servingAfter registerRun).2.shared.slotById 1 = some 0 := by decide +kernel
  have hstate : ((servingAfter registerRun).2.shared.slot 0).state = .registered := by
    decide +kernel
  have hserving : Serving true (servingAfter registerRun).1 (servingAfter registerRun).2 :=
    serving_servingAfter (by decide +kernel)
  refine ⟨_, _, hserving, by decide +kernel, 1, 0, hfound, ?_⟩
  rw [removedAsDocumented_iff hfound]
  exact fun h => h.1 hstate

end Threads

end Kernel

end InfinityOS
