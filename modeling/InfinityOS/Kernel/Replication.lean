import InfinityOS.Kernel.Scheduler
import InfinityOS.Transition.Run

/-!
# The replication kernel

The table of replicas behind `g_rep_lock`. A create looks for a slot, leaves the lock to make
the arena and the scheduler, and looks at the slot again; a destroy leaves the lock while the
scheduler drains. Each section under the lock is one step, and the steps of calls in progress
come in any order.

An arena or scheduler is a handle. What the replica is created for and its policy are not read
here.
-/

namespace InfinityOS

namespace Kernel

open Transition

/-- `IFY_REPLICA_MAX`. -/
def replicaMax : ℕ := 32

/-- `ify_replica_id_t`. -/
abbrev ReplicaId := UInt32

/-- `ify_replica_state_t`. -/
inductive ReplicaState where
  | free
  | created
  | running
  | draining
  | destroyed
  deriving DecidableEq

/-- `replica_slot_t`. -/
structure ReplicaSlot where
  id : ReplicaId
  state : ReplicaState
  arena : Option ℕ
  scheduler : Option ℕ
  deriving DecidableEq

def ReplicaSlot.zero : ReplicaSlot :=
  { id := 0, state := .free, arena := none, scheduler := none }

def ReplicaSlot.Live (slot : ReplicaSlot) : Prop :=
  slot.state ≠ .free ∧ slot.state ≠ .destroyed

instance : DecidablePred ReplicaSlot.Live :=
  fun slot => inferInstanceAs (Decidable (slot.state ≠ .free ∧ slot.state ≠ .destroyed))

/-- The table, the slots that creates in progress have found, and the ids that destroys in
progress are draining. To speak of replicas whose slots are used again, those that were created
are kept with their slots, and those that were destroyed. -/
structure Replicas where
  slots : List ReplicaSlot
  nextId : UInt32
  creating : List ℕ
  draining : List ReplicaId
  created : List (ReplicaId × ℕ)
  destroyed : List ReplicaId
  deriving DecidableEq

/-- The sections of the calls. A create or destroy in progress is named by its place in the
list; a create comes back without memory or with an arena and a scheduler. -/
inductive ReplicaStep where
  | createBegin
  | createFail (call : ℕ)
  | createEnd (call arena scheduler : ℕ)
  | destroyBegin (id : ReplicaId)
  | destroyEnd (call : ℕ)
  | submit (id : ReplicaId) (hasFn : Bool)

/-- A section returns from the call or goes on without the lock; a submit goes on with the
scheduler of the replica. -/
inductive ReplicaAnswer where
  | status (rc : StatusCode)
  | created (id : ReplicaId)
  | unlocked
  | submitted (scheduler : Option ℕ)
  deriving DecidableEq

namespace Replicas

def start : Replicas :=
  { slots := List.replicate replicaMax .zero, nextId := 1, creating := [], draining := []
    created := [], destroyed := [] }

def repFind (s : Replicas) (id : ReplicaId) : Option ℕ :=
  s.slots.findIdx? fun slot => slot.id = id ∧ slot.Live

def repFreeSlot (s : Replicas) : Option ℕ :=
  s.slots.findIdx? fun slot => ¬ slot.Live

def slot (s : Replicas) (k : ℕ) : ReplicaSlot :=
  s.slots.getD k .zero

/-- The first section of `ify_replica_create`. -/
def createBegin (s : Replicas) : ReplicaAnswer × Replicas :=
  match s.repFreeSlot with
  | none => (.status errOverflow, s)
  | some k => (.unlocked, { s with creating := s.creating ++ [k] })

/-- The second section of `ify_replica_create`. -/
def createEnd (s : Replicas) (call arena scheduler : ℕ) : ReplicaAnswer × Replicas :=
  match s.creating[call]? with
  | none => (.unlocked, s)
  | some k =>
      let s := { s with creating := s.creating.eraseIdx call }
      -- another create may have taken the slot in between
      match if (s.slot k).Live then s.repFreeSlot else some k with
      | none => (.status errOverflow, s)
      | some k =>
          (.created s.nextId, { s with
            slots := s.slots.set k
              { id := s.nextId, state := .created, arena := some arena
                scheduler := some scheduler }
            nextId := s.nextId + 1
            created := s.created ++ [(s.nextId, k)] })

/-- The first section of `ify_replica_destroy`. -/
def destroyBegin (s : Replicas) (id : ReplicaId) : ReplicaAnswer × Replicas :=
  if id = 0 then (.status ifyOk, s)
  else
    match s.repFind id with
    | none => (.status errNotFound, s)
    | some k =>
        (.unlocked, { s with
          slots := s.slots.set k
            { s.slot k with state := .draining, arena := none, scheduler := none }
          draining := s.draining ++ [id] })

/-- The second section of `ify_replica_destroy`. -/
def destroyEnd (s : Replicas) (call : ℕ) : ReplicaAnswer × Replicas :=
  match s.draining[call]? with
  | none => (.unlocked, s)
  | some id =>
      let s := { s with draining := s.draining.eraseIdx call }
      match s.repFind id with
      | none => (.status ifyOk, s)
      | some k =>
          (.status ifyOk, { s with
            slots := s.slots.set k { s.slot k with state := .destroyed }
            destroyed := s.destroyed ++ [id] })

/-- The section of `ify_replica_submit`. -/
def submit (s : Replicas) (id : ReplicaId) (hasFn : Bool) : ReplicaAnswer × Replicas :=
  if id = 0 ∨ hasFn = false then (.status errInvalidArg, s)
  else
    match s.repFind id with
    | none => (.status errNotFound, s)
    | some k =>
        if (s.slot k).state = .draining then (.status errInvalidArg, s)
        else
          (.submitted (s.slot k).scheduler,
            { s with slots := s.slots.set k { s.slot k with state := .running } })

def step (s : Replicas) : ReplicaStep → ReplicaAnswer × Replicas
  | .createBegin => s.createBegin
  | .createFail call =>
      (.status errOutOfMemory, { s with creating := s.creating.eraseIdx call })
  | .createEnd call arena scheduler => s.createEnd call arena scheduler
  | .destroyBegin id => s.destroyBegin id
  | .destroyEnd call => s.destroyEnd call
  | .submit id hasFn => s.submit id hasFn

/-- The state of a replica: that of the slot it is in. A replica in no slot is one that was
destroyed, or there is none with the id. -/
def stateOf (s : Replicas) (id : ReplicaId) : ReplicaState :=
  match s.slots.find? fun slot => slot.id = id ∧ slot.state ≠ .free with
  | some slot => slot.state
  | none => if id ∈ s.destroyed then .destroyed else .free

end Replicas

/-- The steps of a lifecycle. -/
inductive ReplicaState.Moves : ReplicaState → ReplicaState → Prop where
  | stay (state : ReplicaState) : Moves state state
  | create : Moves .free .created
  | run : Moves .created .running
  | drainCreated : Moves .created .draining
  | drainRunning : Moves .running .draining
  | destroy : Moves .draining .destroyed

namespace ReplicaSlot

def Equipped (slot : ReplicaSlot) : Prop :=
  slot.state = .created ∨ slot.state = .running → slot.arena.isSome ∧ slot.scheduler.isSome

variable {slot : ReplicaSlot}

theorem Live.created_or_running (h : slot.Live) (hstate : slot.state ≠ .draining) :
    slot.state = .created ∨ slot.state = .running := by
  obtain ⟨hfree, hdestroyed⟩ := h
  cases hcase : slot.state with
  | free => exact absurd hcase hfree
  | created => exact .inl rfl
  | running => exact .inr rfl
  | draining => exact absurd hcase hstate
  | destroyed => exact absurd hcase hdestroyed

theorem Live.moves_draining (h : slot.Live) : slot.state.Moves .draining := by
  by_cases hstate : slot.state = .draining
  · rw [hstate]
    exact .stay _
  · rcases h.created_or_running hstate with hcreated | hrunning
    · rw [hcreated]
      exact .drainCreated
    · rw [hrunning]
      exact .drainRunning

theorem Live.moves_running (h : slot.Live) (hstate : slot.state ≠ .draining) :
    slot.state.Moves .running := by
  rcases h.created_or_running hstate with hcreated | hrunning
  · rw [hcreated]
    exact .run
  · rw [hrunning]
    exact .stay _

end ReplicaSlot

namespace Replicas

def Alive (s : Replicas) (id : ReplicaId) : Prop :=
  s.stateOf id ≠ .free ∧ s.stateOf id ≠ .destroyed

instance (s : Replicas) (id : ReplicaId) : Decidable (s.Alive id) :=
  inferInstanceAs (Decidable (_ ≠ _ ∧ _ ≠ _))

/-- Replicas that are alive have different ids and are in different slots. -/
def AliveApart (s : Replicas) : Prop :=
  (s.created.filter fun p => s.Alive p.1).Pairwise fun p q => p.1 ≠ q.1 ∧ p.2 ≠ q.2

/-! ## The table -/

/-- What a section does to the table: nothing, a step in the lifecycle of a live replica, or
a new replica in a slot that has no live one. -/
inductive Touches (s s' : Replicas) : Prop where
  | none (hslots : s'.slots = s.slots) (hnext : s'.nextId = s.nextId)
      (hcreated : s'.created = s.created) (hdestroyed : s'.destroyed = s.destroyed)
  | move (k : ℕ) (slot slot' : ReplicaSlot) (hk : s.slots[k]? = some slot) (hlive : slot.Live)
      (hid : slot'.id = slot.id) (hmoves : slot.state.Moves slot'.state)
      (hne : slot'.state ≠ .free) (hequipped : slot.Equipped → slot'.Equipped)
      (hslots : s'.slots = s.slots.set k slot') (hnext : s'.nextId = s.nextId)
      (hcreated : s'.created = s.created)
      (hdestroyed : s'.destroyed =
        if slot'.state = .destroyed then s.destroyed ++ [slot.id] else s.destroyed)
  | create (k : ℕ) (old slot' : ReplicaSlot) (hk : s.slots[k]? = some old) (hdead : ¬ old.Live)
      (hid : slot'.id = s.nextId) (hstate : slot'.state = .created) (hequipped : slot'.Equipped)
      (hslots : s'.slots = s.slots.set k slot') (hnext : s'.nextId = s.nextId + 1)
      (hcreated : s'.created = s.created ++ [(s.nextId, k)])
      (hdestroyed : s'.destroyed = s.destroyed)

/-- The replicas created so far have the ids from 1 on, and each slot in use has the one that
was created in it last. -/
structure Sound (s : Replicas) : Prop where
  nextId_eq : s.nextId.toNat = s.created.length + 1
  numbered : ∀ (i : ℕ) p, s.created[i]? = some p → p.1.toNat = i + 1
  recorded : ∀ (k : ℕ) slot, s.slots[k]? = some slot → slot.state ≠ .free →
    (slot.id, k) ∈ s.created
  equipped : ∀ slot ∈ s.slots, slot.Equipped
  gone : ∀ slot ∈ s.slots, slot.state = .destroyed → slot.id ∈ s.destroyed
  destroyed_lt : ∀ id ∈ s.destroyed, id < s.nextId
  creating_lt : ∀ k ∈ s.creating, k < s.slots.length
  draining_lt : ∀ id ∈ s.draining, id < s.nextId
  draining_moved : ∀ id ∈ s.draining, ∀ slot ∈ s.slots, slot.id = id → slot.Live →
    slot.state = .draining

variable {s s' : Replicas} {id : ReplicaId} {k : ℕ}

theorem sound_start : Sound start := by
  have hzero : ∀ slot ∈ start.slots, slot = .zero := fun slot => List.eq_of_mem_replicate
  constructor
  · rfl
  · intro i p hp
    cases hp
  · intro k slot hk hne
    rw [hzero slot (List.mem_of_getElem? hk)] at hne
    exact absurd rfl hne
  · intro slot hslot
    rw [hzero slot hslot]
    rintro (hstate | hstate)
    · cases hstate
    · cases hstate
  · intro slot hslot hstate
    rw [hzero slot hslot] at hstate
    cases hstate
  · intro id hid
    cases hid
  · intro k hk
    cases hk
  · intro id hid
    cases hid
  · intro id hid
    cases hid

theorem slot_eq_of_getElem? {slot : ReplicaSlot} (hk : s.slots[k]? = some slot) :
    s.slot k = slot := by
  rw [Replicas.slot, List.getD_eq_getElem?_getD, hk, Option.getD_some]

theorem repFind_eq_some (h : s.repFind id = some k) :
    s.slots[k]? = some (s.slot k) ∧ (s.slot k).id = id ∧ (s.slot k).Live := by
  obtain ⟨hlt, hfound, -⟩ := List.findIdx?_eq_some_iff_getElem.mp h
  have hk := List.getElem?_eq_getElem hlt
  rw [slot_eq_of_getElem? hk]
  exact ⟨hk, by simpa using hfound⟩

theorem repFreeSlot_eq_some (h : s.repFreeSlot = some k) :
    s.slots[k]? = some (s.slot k) ∧ ¬ (s.slot k).Live := by
  obtain ⟨hlt, hfound, -⟩ := List.findIdx?_eq_some_iff_getElem.mp h
  have hk := List.getElem?_eq_getElem hlt
  rw [slot_eq_of_getElem? hk]
  exact ⟨hk, by simpa using hfound⟩

theorem Sound.slot_unique (h : Sound s) {k' : ℕ} (hk : (id, k) ∈ s.created)
    (hk' : (id, k') ∈ s.created) : k = k' := by
  obtain ⟨i, hi⟩ := List.getElem?_of_mem hk
  obtain ⟨i', hi'⟩ := List.getElem?_of_mem hk'
  have hii : i = i' := by
    have hnum : id.toNat = i + 1 := h.numbered i _ hi
    have hnum' : id.toNat = i' + 1 := h.numbered i' _ hi'
    omega
  rw [hii, hi'] at hi
  exact ((Prod.mk.injEq ..).mp (Option.some.inj hi)).2.symm

theorem Sound.id_lt (h : Sound s) (hk : (id, k) ∈ s.created) : id < s.nextId := by
  obtain ⟨i, hi⟩ := List.getElem?_of_mem hk
  have hnum : id.toNat = i + 1 := h.numbered i _ hi
  have hlt := (List.getElem?_eq_some_iff.mp hi).1
  have hnext := h.nextId_eq
  rw [UInt32.lt_iff_toNat_lt]
  omega

/-! ## The state of a replica -/

theorem Sound.stateOf_of_slot (h : Sound s) {slot : ReplicaSlot} (hk : s.slots[k]? = some slot)
    (hne : slot.state ≠ .free) : s.stateOf slot.id = slot.state := by
  unfold stateOf
  cases hfind : s.slots.find? fun slot' => slot'.id = slot.id ∧ slot'.state ≠ .free with
  | none =>
      have hmiss := List.find?_eq_none.mp hfind slot (List.mem_of_getElem? hk)
      exact absurd (decide_eq_true ⟨rfl, hne⟩) hmiss
  | some slot' =>
      have hfound := List.find?_some hfind
      rw [decide_eq_true_eq] at hfound
      obtain ⟨k', hk'⟩ := List.getElem?_of_mem (List.mem_of_find?_eq_some hfind)
      have hrecorded := h.recorded k' slot' hk' hfound.2
      rw [hfound.1] at hrecorded
      have hkk := h.slot_unique (h.recorded k slot hk hne) hrecorded
      rw [← hkk, hk] at hk'
      rw [Option.some.inj hk']

theorem stateOf_of_none (h : ∀ slot ∈ s.slots, slot.id = id → slot.state = .free) :
    s.stateOf id = if id ∈ s.destroyed then .destroyed else .free := by
  have hfind : (s.slots.find? fun slot => slot.id = id ∧ slot.state ≠ .free) = none := by
    rw [List.find?_eq_none]
    intro slot hslot hboth
    rw [decide_eq_true_eq] at hboth
    exact hboth.2 (h slot hslot hboth.1)
  rw [stateOf, hfind]

/-! ## The sections under the lock -/

/-- A section does one of the touches, and leaves the calls in progress with slots of the
table and with ids that are draining. -/
structure Advances (s s' : Replicas) : Prop where
  touches : Touches s s'
  creating_lt : ∀ k ∈ s'.creating, k < s.slots.length
  draining : ∀ id ∈ s'.draining, id ∈ s.draining ∨
    id < s.nextId ∧ ∀ slot ∈ s'.slots, slot.id = id → slot.Live → slot.state = .draining

theorem getElem?_set_cases {slots : List ReplicaSlot} {j : ℕ} {slot slot' : ReplicaSlot}
    (h : (slots.set k slot')[j]? = some slot) :
    j = k ∧ slot = slot' ∨ j ≠ k ∧ slots[j]? = some slot := by
  rw [List.getElem?_set] at h
  split at h
  next hkj =>
      split at h
      next => exact .inl ⟨hkj.symm, (Option.some.inj h).symm⟩
      next => cases h
  next hkj => exact .inr ⟨Ne.symm hkj, h⟩

theorem Sound.advances_of_none (h : Sound s) (hslots : s'.slots = s.slots)
    (hnext : s'.nextId = s.nextId) (hcreated : s'.created = s.created)
    (hdestroyed : s'.destroyed = s.destroyed) (hcreating : s'.creating ⊆ s.creating)
    (hdraining : s'.draining ⊆ s.draining) : Advances s s' where
  touches := .none hslots hnext hcreated hdestroyed
  creating_lt k hk := h.creating_lt k (hcreating hk)
  draining _ hid := .inl (hdraining hid)

theorem Sound.advances_refl (h : Sound s) : Advances s s :=
  h.advances_of_none rfl rfl rfl rfl (List.Subset.refl _) (List.Subset.refl _)

theorem Sound.advances_createBegin (h : Sound s) : Advances s s.createBegin.2 := by
  unfold createBegin
  cases hfree : s.repFreeSlot with
  | none => exact h.advances_refl
  | some k =>
      refine ⟨.none rfl rfl rfl rfl, fun k' hk' => ?_, fun id hid => .inl hid⟩
      rcases List.mem_append.mp hk' with hold | hnew
      · exact h.creating_lt k' hold
      · rw [List.mem_singleton.mp hnew]
        exact (List.getElem?_eq_some_iff.mp (repFreeSlot_eq_some hfree).1).1

/-- The slot that a create writes: the one it has found, if no other create took it, else a
free one. -/
theorem Sound.chosen (h : Sound s) {call k' : ℕ} (hcall : s.creating[call]? = some k')
    (hk : (if (s.slot k').Live then s.repFreeSlot else some k') = some k) :
    s.slots[k]? = some (s.slot k) ∧ ¬ (s.slot k).Live := by
  split at hk
  next => exact repFreeSlot_eq_some hk
  next hdead =>
      rw [← Option.some.inj hk]
      have hlt := h.creating_lt k' (List.mem_of_getElem? hcall)
      have hk' := List.getElem?_eq_getElem hlt
      rw [slot_eq_of_getElem? hk'] at hdead ⊢
      exact ⟨hk', hdead⟩

theorem Sound.advances_createEnd (h : Sound s) (call arena scheduler : ℕ) :
    Advances s (s.createEnd call arena scheduler).2 := by
  have hsub : s.creating.eraseIdx call ⊆ s.creating := fun k => List.mem_of_mem_eraseIdx
  unfold createEnd
  cases hcall : s.creating[call]? with
  | none => exact h.advances_refl
  | some k' =>
      dsimp only
      split
      next => exact h.advances_of_none rfl rfl rfl rfl hsub (List.Subset.refl _)
      next k hk =>
          obtain ⟨hslot, hdead⟩ := h.chosen hcall hk
          refine ⟨?_, fun j hj => h.creating_lt j (hsub hj), fun id hid => .inl hid⟩
          exact .create k (s.slot k) _ hslot hdead rfl rfl (fun _ => ⟨rfl, rfl⟩) rfl rfl rfl rfl

theorem Sound.advances_destroyBegin (h : Sound s) (id : ReplicaId) :
    Advances s (s.destroyBegin id).2 := by
  unfold destroyBegin
  split
  next => exact h.advances_refl
  next =>
      cases hfind : s.repFind id with
      | none => exact h.advances_refl
      | some k =>
          obtain ⟨hk, hid, hlive⟩ := repFind_eq_some hfind
          have hrecorded := h.recorded k _ hk hlive.1
          rw [hid] at hrecorded
          refine ⟨?_, h.creating_lt, fun id' hid' => ?_⟩
          · refine .move k (s.slot k)
              { s.slot k with state := .draining, arena := none, scheduler := none }
              hk hlive rfl hlive.moves_draining nofun ?_ rfl rfl rfl rfl
            rintro - (hstate | hstate)
            · cases hstate
            · cases hstate
          · rcases List.mem_append.mp hid' with hold | hnew
            · exact .inl hold
            · rw [List.mem_singleton.mp hnew]
              refine .inr ⟨h.id_lt hrecorded, fun slot hslot hslotid hslotlive => ?_⟩
              obtain ⟨j, hj⟩ := List.getElem?_of_mem hslot
              rcases getElem?_set_cases hj with ⟨-, rfl⟩ | ⟨hjk, hj⟩
              · rfl
              · have hother := h.recorded j slot hj hslotlive.1
                rw [hslotid] at hother
                exact absurd (h.slot_unique hother hrecorded) hjk

theorem Sound.advances_destroyEnd (h : Sound s) (call : ℕ) :
    Advances s (s.destroyEnd call).2 := by
  have hsub : s.draining.eraseIdx call ⊆ s.draining := fun id => List.mem_of_mem_eraseIdx
  unfold destroyEnd
  cases hcall : s.draining[call]? with
  | none => exact h.advances_refl
  | some id =>
      dsimp only
      split
      next => exact h.advances_of_none rfl rfl rfl rfl (List.Subset.refl _) hsub
      next k hfind =>
          have hfind : s.repFind id = some k := hfind
          obtain ⟨hk, hid, hlive⟩ := repFind_eq_some hfind
          have hstate := h.draining_moved id (List.mem_of_getElem? hcall) _
            (List.mem_of_getElem? hk) hid hlive
          refine ⟨?_, h.creating_lt, fun id' hid' => .inl (hsub hid')⟩
          refine .move k (s.slot k) { s.slot k with state := .destroyed }
            hk hlive rfl ?_ nofun ?_ rfl rfl rfl ?_
          · rw [hstate]
            exact .destroy
          · rintro - (hcreated | hrunning)
            · cases hcreated
            · cases hrunning
          · rw [if_pos rfl, hid]

theorem Sound.advances_submit (h : Sound s) (id : ReplicaId) (hasFn : Bool) :
    Advances s (s.submit id hasFn).2 := by
  unfold submit
  split
  next => exact h.advances_refl
  next =>
      cases hfind : s.repFind id with
      | none => exact h.advances_refl
      | some k =>
          dsimp only
          split
          next => exact h.advances_refl
          next hstate =>
              obtain ⟨hk, hid, hlive⟩ := repFind_eq_some hfind
              refine ⟨?_, h.creating_lt, fun id' hid' => .inl hid'⟩
              refine .move k (s.slot k) { s.slot k with state := .running }
                hk hlive rfl (hlive.moves_running hstate) nofun ?_ rfl rfl rfl rfl
              exact fun hequipped _ => hequipped (hlive.created_or_running hstate)

theorem Sound.advances_step (h : Sound s) (a : ReplicaStep) : Advances s (s.step a).2 := by
  cases a with
  | createBegin => exact h.advances_createBegin
  | createFail call =>
      exact h.advances_of_none rfl rfl rfl rfl (fun k => List.mem_of_mem_eraseIdx)
        (List.Subset.refl _)
  | createEnd call arena scheduler => exact h.advances_createEnd call arena scheduler
  | destroyBegin id => exact h.advances_destroyBegin id
  | destroyEnd call => exact h.advances_destroyEnd call
  | submit id hasFn => exact h.advances_submit id hasFn

/-! ## What the sections keep -/

theorem Touches.length_le (t : Touches s s') : s.created.length ≤ s'.created.length := by
  cases t with
  | none _ _ hcreated _ => rw [hcreated]
  | move _ _ _ _ _ _ _ _ _ _ _ hcreated _ => rw [hcreated]
  | create _ _ _ _ _ _ _ _ _ _ hcreated _ =>
      rw [hcreated, List.length_append]
      exact Nat.le_add_right _ _

theorem Touches.created_subset (t : Touches s s') : s.created ⊆ s'.created := by
  cases t with
  | none _ _ hcreated _ => rw [hcreated]; exact List.Subset.refl _
  | move _ _ _ _ _ _ _ _ _ _ _ hcreated _ => rw [hcreated]; exact List.Subset.refl _
  | create _ _ _ _ _ _ _ _ _ _ hcreated _ =>
      rw [hcreated]
      exact List.subset_append_left _ _

theorem Touches.destroyed_subset (t : Touches s s') : s.destroyed ⊆ s'.destroyed := by
  cases t with
  | none _ _ _ hdestroyed => rw [hdestroyed]; exact List.Subset.refl _
  | move _ _ _ _ _ _ _ _ _ _ _ _ hdestroyed =>
      rw [hdestroyed]
      split
      next => exact List.subset_append_left _ _
      next => exact List.Subset.refl _
  | create _ _ _ _ _ _ _ _ _ _ _ hdestroyed => rw [hdestroyed]; exact List.Subset.refl _

/-- Where a slot comes from: it was there, its replica was moved, or it has the new one. -/
theorem Touches.slot_cases (t : Touches s s') {j : ℕ} {slot : ReplicaSlot}
    (hj : s'.slots[j]? = some slot) :
    s.slots[j]? = some slot ∨
      (∃ old, s.slots[j]? = some old ∧ old.Live ∧ slot.id = old.id ∧
        old.state.Moves slot.state ∧ (old.Equipped → slot.Equipped) ∧
        (slot.state = .destroyed → slot.id ∈ s'.destroyed)) ∨
      (slot.id = s.nextId ∧ slot.state = .created ∧ slot.Equipped ∧
        (s.nextId, j) ∈ s'.created) := by
  cases t with
  | none hslots _ _ _ =>
      rw [hslots] at hj
      exact .inl hj
  | move k old slot' hk hlive hid hmoves _ hequipped hslots _ _ hdestroyed =>
      rw [hslots] at hj
      rcases getElem?_set_cases hj with ⟨rfl, rfl⟩ | ⟨-, hj⟩
      · refine .inr (.inl ⟨old, hk, hlive, hid, hmoves, hequipped, fun hstate => ?_⟩)
        rw [hdestroyed, if_pos hstate, hid]
        exact List.mem_append_right _ (List.mem_singleton.mpr rfl)
      · exact .inl hj
  | create k old slot' _ _ hid hstate hequipped hslots _ hcreated _ =>
      rw [hslots] at hj
      rcases getElem?_set_cases hj with ⟨rfl, rfl⟩ | ⟨-, hj⟩
      · refine .inr (.inr ⟨hid, hstate, hequipped, ?_⟩)
        rw [hcreated]
        exact List.mem_append_right _ (List.mem_singleton.mpr rfl)
      · exact .inl hj

theorem Sound.nextId_eq_of_touches (h : Sound s) (t : Touches s s')
    (hcount : s'.created.length < 2 ^ 32 - 1) : s'.nextId.toNat = s'.created.length + 1 := by
  have hnextId := h.nextId_eq
  cases t with
  | none _ hnext hcreated _ => rw [hnext, hcreated, hnextId]
  | move _ _ _ _ _ _ _ _ _ _ hnext hcreated _ => rw [hnext, hcreated, hnextId]
  | create _ _ _ _ _ _ _ _ _ hnext hcreated _ =>
      rw [hcreated, List.length_append, List.length_singleton] at hcount ⊢
      rw [hnext, UInt32.toNat_add, hnextId, UInt32.toNat_one]
      exact Nat.mod_eq_of_lt (by omega)

theorem Sound.numbered_of_touches (h : Sound s) (t : Touches s s') (i : ℕ)
    (p : ReplicaId × ℕ) (hp : s'.created[i]? = some p) : p.1.toNat = i + 1 := by
  cases t with
  | none _ _ hcreated _ => rw [hcreated] at hp; exact h.numbered i p hp
  | move _ _ _ _ _ _ _ _ _ _ _ hcreated _ => rw [hcreated] at hp; exact h.numbered i p hp
  | create _ _ _ _ _ _ _ _ _ _ hcreated _ =>
      rw [hcreated, List.getElem?_append] at hp
      split at hp
      next => exact h.numbered i p hp
      next hge =>
          rw [List.getElem?_singleton] at hp
          split at hp
          next hi =>
              have hlast : i = s.created.length := by omega
              rw [← Option.some.inj hp, h.nextId_eq, hlast]
          next => cases hp

theorem Sound.recorded_of_touches (h : Sound s) (t : Touches s s') (j : ℕ) (slot : ReplicaSlot)
    (hj : s'.slots[j]? = some slot) (hne : slot.state ≠ .free) :
    (slot.id, j) ∈ s'.created := by
  rcases t.slot_cases hj with hold | ⟨old, hold, hlive, hid, -⟩ | ⟨hid, -, -, hmem⟩
  · exact t.created_subset (h.recorded j slot hold hne)
  · rw [hid]
    exact t.created_subset (h.recorded j old hold hlive.1)
  · rw [hid]
    exact hmem

theorem Sound.equipped_of_touches (h : Sound s) (t : Touches s s') :
    ∀ slot ∈ s'.slots, slot.Equipped := by
  intro slot hslot
  obtain ⟨j, hj⟩ := List.getElem?_of_mem hslot
  rcases t.slot_cases hj with hold | ⟨old, hold, -, -, -, hequipped, -⟩ | ⟨-, -, hequipped, -⟩
  · exact h.equipped slot (List.mem_of_getElem? hold)
  · exact hequipped (h.equipped old (List.mem_of_getElem? hold))
  · exact hequipped

theorem Sound.gone_of_touches (h : Sound s) (t : Touches s s') :
    ∀ slot ∈ s'.slots, slot.state = .destroyed → slot.id ∈ s'.destroyed := by
  intro slot hslot hstate
  obtain ⟨j, hj⟩ := List.getElem?_of_mem hslot
  rcases t.slot_cases hj with hold | ⟨old, -, -, -, -, -, hgone⟩ | ⟨-, hcreated, -⟩
  · exact t.destroyed_subset (h.gone slot (List.mem_of_getElem? hold) hstate)
  · exact hgone hstate
  · rw [hcreated] at hstate
    cases hstate

theorem Sound.nextId_le (h : Sound s) (t : Touches s s')
    (hcount : s'.created.length < 2 ^ 32 - 1) : s.nextId ≤ s'.nextId := by
  have hold := h.nextId_eq
  have hnew := h.nextId_eq_of_touches t hcount
  have hle := t.length_le
  rw [UInt32.le_iff_toNat_le]
  omega

theorem Sound.destroyed_lt_of_touches (h : Sound s) (t : Touches s s')
    (hcount : s'.created.length < 2 ^ 32 - 1) : ∀ id ∈ s'.destroyed, id < s'.nextId := by
  have hle := h.nextId_le t hcount
  intro id hid
  refine UInt32.lt_of_lt_of_le ?_ hle
  cases t with
  | none _ _ _ hdestroyed => rw [hdestroyed] at hid; exact h.destroyed_lt id hid
  | move k old slot' hk hlive _ _ _ _ _ _ _ hdestroyed =>
      rw [hdestroyed] at hid
      split at hid
      next =>
          rcases List.mem_append.mp hid with hold | hnew
          · exact h.destroyed_lt id hold
          · rw [List.mem_singleton.mp hnew]
            exact h.id_lt (h.recorded k old hk hlive.1)
      next => exact h.destroyed_lt id hid
  | create _ _ _ _ _ _ _ _ _ _ _ hdestroyed =>
      rw [hdestroyed] at hid
      exact h.destroyed_lt id hid

theorem Sound.draining_of_touches (h : Sound s) (t : Touches s s') (hid : id ∈ s.draining) :
    ∀ slot ∈ s'.slots, slot.id = id → slot.Live → slot.state = .draining := by
  have hdraining := h.draining_moved id hid
  intro slot hslot hslotid hslotlive
  obtain ⟨j, hj⟩ := List.getElem?_of_mem hslot
  rcases t.slot_cases hj with hold | ⟨old, hold, hlive, hsame, hmoves, -⟩ | ⟨hnew, -⟩
  · exact hdraining slot (List.mem_of_getElem? hold) hslotid hslotlive
  · rw [hdraining old (List.mem_of_getElem? hold) (hsame.symm.trans hslotid) hlive] at hmoves
    cases hstate : slot.state with
    | draining => rfl
    | destroyed => exact absurd hstate hslotlive.2
    | free => exact absurd hstate hslotlive.1
    | created => rw [hstate] at hmoves; cases hmoves
    | running => rw [hstate] at hmoves; cases hmoves
  · have hlt := h.draining_lt id hid
    rw [← hslotid, hnew] at hlt
    exact absurd hlt (UInt32.lt_irrefl _)

theorem Touches.length_slots (t : Touches s s') : s'.slots.length = s.slots.length := by
  cases t with
  | none hslots _ _ _ => rw [hslots]
  | move _ _ _ _ _ _ _ _ _ hslots _ _ _ => rw [hslots, List.length_set]
  | create _ _ _ _ _ _ _ _ hslots _ _ _ => rw [hslots, List.length_set]

theorem Sound.of_advances (h : Sound s) (ha : Advances s s')
    (hcount : s'.created.length < 2 ^ 32 - 1) : Sound s' where
  nextId_eq := h.nextId_eq_of_touches ha.touches hcount
  numbered := h.numbered_of_touches ha.touches
  recorded := h.recorded_of_touches ha.touches
  equipped := h.equipped_of_touches ha.touches
  gone := h.gone_of_touches ha.touches
  destroyed_lt := h.destroyed_lt_of_touches ha.touches hcount
  creating_lt k hk := by
    rw [ha.touches.length_slots]
    exact ha.creating_lt k hk
  draining_lt id hid := by
    refine UInt32.lt_of_lt_of_le ?_ (h.nextId_le ha.touches hcount)
    rcases ha.draining id hid with hold | ⟨hlt, -⟩
    · exact h.draining_lt id hold
    · exact hlt
  draining_moved id hid := by
    rcases ha.draining id hid with hold | ⟨-, hmoved⟩
    · exact h.draining_of_touches ha.touches hold
    · exact hmoved

/-! ## The lifecycle -/

theorem Touches.slot_kept (t : Touches s s') {j : ℕ} {slot : ReplicaSlot}
    (hj : s.slots[j]? = some slot) (hlive : slot.Live) :
    ∃ slot' ∈ s'.slots, slot'.id = slot.id ∧ slot'.state ≠ .free := by
  have hlt := (List.getElem?_eq_some_iff.mp hj).1
  cases t with
  | none hslots _ _ _ =>
      rw [hslots]
      exact ⟨slot, List.mem_of_getElem? hj, rfl, hlive.1⟩
  | move k old slot' hk _ hid _ hne _ hslots _ _ _ =>
      rw [hslots]
      by_cases hjk : k = j
      · rw [hjk, hj] at hk
        rw [hjk, Option.some.inj hk]
        exact ⟨slot', List.mem_set hlt _, hid, hne⟩
      · rw [← List.getElem?_set_ne hjk (a := slot')] at hj
        exact ⟨slot, List.mem_of_getElem? hj, rfl, hlive.1⟩
  | create k old slot' hk hdead _ _ _ hslots _ _ _ =>
      have hjk : k ≠ j := by
        rintro rfl
        rw [hj] at hk
        exact hdead (Option.some.inj hk ▸ hlive)
      rw [hslots]
      rw [← List.getElem?_set_ne hjk (a := slot')] at hj
      exact ⟨slot, List.mem_of_getElem? hj, rfl, hlive.1⟩

theorem Touches.destroyed_cases (t : Touches s s') (hid : id ∈ s'.destroyed) :
    id ∈ s.destroyed ∨ ∃ slot ∈ s'.slots, slot.id = id ∧ slot.state ≠ .free := by
  cases t with
  | none _ _ _ hdestroyed => exact .inl (hdestroyed ▸ hid)
  | move k old slot' hk _ hsame _ hne _ hslots _ _ hdestroyed =>
      rw [hdestroyed] at hid
      split at hid
      next =>
          rcases List.mem_append.mp hid with hold | hnew
          · exact .inl hold
          · rw [List.mem_singleton.mp hnew, hslots]
            have hlt := (List.getElem?_eq_some_iff.mp hk).1
            exact .inr ⟨slot', List.mem_set hlt _, hsame, hne⟩
      next => exact .inl hid
  | create _ _ _ _ _ _ _ _ _ _ _ hdestroyed => exact .inl (hdestroyed ▸ hid)

theorem Sound.stateOf_nextId (h : Sound s) : s.stateOf s.nextId = .free := by
  have hnone : ∀ slot ∈ s.slots, slot.id = s.nextId → slot.state = .free := by
    intro slot hslot hid
    by_contra hne
    obtain ⟨j, hj⟩ := List.getElem?_of_mem hslot
    have hlt := h.id_lt (h.recorded j slot hj hne)
    rw [hid] at hlt
    exact UInt32.lt_irrefl _ hlt
  rw [stateOf_of_none hnone, if_neg]
  exact fun hmem => UInt32.lt_irrefl _ (h.destroyed_lt _ hmem)

theorem Sound.stateOf_eq_of_none (h : Sound s) (t : Touches s s')
    (hnone : ∀ slot ∈ s'.slots, slot.id = id → slot.state = .free) :
    s.stateOf id = s'.stateOf id := by
  rw [stateOf_of_none hnone]
  by_cases hin : ∃ slot ∈ s.slots, slot.id = id ∧ slot.state ≠ .free
  · obtain ⟨slot, hslot, hid, hne⟩ := hin
    obtain ⟨j, hj⟩ := List.getElem?_of_mem hslot
    have hdestroyed : slot.state = .destroyed := by
      by_contra hstate
      obtain ⟨slot', hslot', hid', hne'⟩ := t.slot_kept hj ⟨hne, hstate⟩
      exact hne' (hnone slot' hslot' (hid'.trans hid))
    have hgone := t.destroyed_subset (h.gone slot hslot hdestroyed)
    rw [hid] at hgone
    rw [if_pos hgone, ← hid, h.stateOf_of_slot hj hne, hdestroyed]
  · push Not at hin
    rw [stateOf_of_none hin]
    have hiff : id ∈ s.destroyed ↔ id ∈ s'.destroyed := by
      refine ⟨fun hmem => t.destroyed_subset hmem, fun hmem => ?_⟩
      rcases t.destroyed_cases hmem with hold | ⟨slot, hslot, hid, hne⟩
      · exact hold
      · exact absurd (hnone slot hslot hid) hne
    rw [if_congr hiff rfl rfl]

theorem Sound.moves_of_touches (h : Sound s) (h' : Sound s') (t : Touches s s')
    (id : ReplicaId) : (s.stateOf id).Moves (s'.stateOf id) := by
  by_cases hin : ∃ slot ∈ s'.slots, slot.id = id ∧ slot.state ≠ .free
  · obtain ⟨slot, hslot, rfl, hne⟩ := hin
    obtain ⟨j, hj⟩ := List.getElem?_of_mem hslot
    rw [h'.stateOf_of_slot hj hne]
    rcases t.slot_cases hj with hold | ⟨old, hold, hlive, hsame, hmoves, -⟩ | ⟨hnew, hstate, -⟩
    · rw [h.stateOf_of_slot hold hne]
      exact .stay _
    · rw [hsame, h.stateOf_of_slot hold hlive.1]
      exact hmoves
    · rw [hnew, h.stateOf_nextId, hstate]
      exact .create
  · push Not at hin
    rw [h.stateOf_eq_of_none t hin]
    exact .stay _

theorem exists_slot_of_alive (halive : s.Alive id) :
    ∃ slot ∈ s.slots, slot.id = id ∧ slot.state ≠ .free := by
  by_contra hin
  push Not at hin
  obtain ⟨hfree, hdestroyed⟩ := halive
  rw [stateOf_of_none hin] at hfree hdestroyed
  split at hfree
  next hmem => exact absurd (if_pos hmem) hdestroyed
  next => exact absurd rfl hfree

theorem Sound.slot_of_alive (h : Sound s) {p : ReplicaId × ℕ} (halive : s.Alive p.1)
    (hp : p ∈ s.created) : ∃ slot, s.slots[p.2]? = some slot ∧ slot.id = p.1 := by
  obtain ⟨slot, hslot, hid, hne⟩ := exists_slot_of_alive halive
  obtain ⟨j, hj⟩ := List.getElem?_of_mem hslot
  have hrecorded := h.recorded j slot hj hne
  rw [hid] at hrecorded
  have hjk : p.2 = j := h.slot_unique hp hrecorded
  rw [hjk]
  exact ⟨slot, hj, hid⟩

/-! ## Runs -/

theorem length_le_step (s : Replicas) (a : ReplicaStep) :
    s.created.length ≤ (s.step a).2.created.length := by
  have hsame {answer : ReplicaAnswer} {t : Replicas} (h : t.created = s.created) :
      s.created.length ≤ (answer, t).2.created.length := by
    rw [h]
  cases a with
  | createFail call => exact hsame rfl
  | createBegin =>
      change _ ≤ (s.createBegin).2.created.length
      unfold createBegin
      split
      next => exact hsame rfl
      next => exact hsame rfl
  | createEnd call arena scheduler =>
      change _ ≤ (s.createEnd call arena scheduler).2.created.length
      unfold createEnd
      split
      next => exact hsame rfl
      next =>
          dsimp only
          split
          next => exact hsame rfl
          next =>
              rw [List.length_append]
              exact Nat.le_add_right _ _
  | destroyBegin id =>
      change _ ≤ (s.destroyBegin id).2.created.length
      unfold destroyBegin
      split
      next => exact hsame rfl
      next =>
          split
          next => exact hsame rfl
          next => exact hsame rfl
  | destroyEnd call =>
      change _ ≤ (s.destroyEnd call).2.created.length
      unfold destroyEnd
      split
      next => exact hsame rfl
      next =>
          dsimp only
          split
          next => exact hsame rfl
          next => exact hsame rfl
  | submit id hasFn =>
      change _ ≤ (s.submit id hasFn).2.created.length
      unfold submit
      split
      next => exact hsame rfl
      next =>
          split
          next => exact hsame rfl
          next =>
              split
              next => exact hsame rfl
              next => exact hsame rfl

theorem length_le_final (s : Replicas) (as : List ReplicaStep) :
    s.created.length ≤ (final step s as).created.length := by
  induction as generalizing s with
  | nil => exact Nat.le_refl _
  | cons a as ih => exact (s.length_le_step a).trans (ih _)

theorem Sound.final (h : Sound s) (as : List ReplicaStep)
    (hcount : (final step s as).created.length < 2 ^ 32 - 1) :
    Sound (final step s as) ∧
      ∀ id, Relation.ReflTransGen ReplicaState.Moves (s.stateOf id)
        ((Transition.final step s as).stateOf id) := by
  induction as generalizing s with
  | nil => exact ⟨h, fun id => .refl⟩
  | cons a as ih =>
      have hadvances := h.advances_step a
      have hnext := h.of_advances hadvances ((length_le_final _ as).trans_lt hcount)
      obtain ⟨hfinal, hmoves⟩ := ih hnext hcount
      refine ⟨hfinal, fun id => .head ?_ (hmoves id)⟩
      exact h.moves_of_touches hnext hadvances.touches id

theorem Sound.aliveApart (h : Sound s) : s.AliveApart := by
  unfold AliveApart
  rw [List.pairwise_filter, List.pairwise_iff_getElem]
  intro i j hi hj hij halive halive'
  have hnum := h.numbered i _ (List.getElem?_eq_getElem hi)
  have hnum' := h.numbered j _ (List.getElem?_eq_getElem hj)
  have hne : s.created[i].1 ≠ s.created[j].1 := by
    intro heq
    rw [heq] at hnum
    omega
  refine ⟨hne, fun hslots => hne ?_⟩
  obtain ⟨slot, hk, hid⟩ := h.slot_of_alive (of_decide_eq_true halive) (List.getElem_mem hi)
  obtain ⟨slot', hk', hid'⟩ := h.slot_of_alive (of_decide_eq_true halive') (List.getElem_mem hj)
  rw [hslots, hk'] at hk
  rw [← hid, ← hid', Option.some.inj hk]

theorem Sound.submitted (h : Sound s) {hasFn : Bool} {scheduler : Option ℕ}
    (hsubmit : (s.step (.submit id hasFn)).1 = .submitted scheduler) :
    (s.stateOf id = .created ∨ s.stateOf id = .running) ∧ scheduler.isSome := by
  change (s.submit id hasFn).1 = .submitted scheduler at hsubmit
  unfold submit at hsubmit
  split at hsubmit
  next => cases hsubmit
  next =>
      split at hsubmit
      next => cases hsubmit
      next k hfind =>
          split at hsubmit
          next => cases hsubmit
          next hstate =>
              obtain ⟨hk, hid, hlive⟩ := repFind_eq_some hfind
              have htakes := hlive.created_or_running hstate
              rw [← hid, h.stateOf_of_slot hk hlive.1, ← ReplicaAnswer.submitted.inj hsubmit]
              exact ⟨htakes, (h.equipped _ (List.mem_of_getElem? hk) htakes).2⟩

/-- **The lifecycle of replicas.** In any order of the sections of the calls, a replica only
moves forward, the replicas that are alive have their own ids and their own slots, and a submit
only gets to the scheduler of a replica that is created or running. -/
theorem replica_lifecycle (earlier later : List ReplicaStep)
    (hcount : (final step start (earlier ++ later)).created.length < 2 ^ 32 - 1) :
    (∀ id, Relation.ReflTransGen ReplicaState.Moves ((final step start earlier).stateOf id)
      ((final step start (earlier ++ later)).stateOf id)) ∧
    (final step start earlier).AliveApart ∧
    ∀ id hasFn scheduler,
      ((final step start earlier).step (.submit id hasFn)).1 = .submitted scheduler →
        ((final step start earlier).stateOf id = .created ∨
          (final step start earlier).stateOf id = .running) ∧ scheduler.isSome := by
  rw [final_append] at hcount ⊢
  have hearlier : Sound (final step start earlier) :=
    (sound_start.final earlier ((length_le_final _ later).trans_lt hcount)).1
  refine ⟨(hearlier.final later hcount).2, hearlier.aliveApart, ?_⟩
  exact fun id hasFn scheduler hsubmit => hearlier.submitted hsubmit

/-- Two creates find the same slot, and a submit comes between the sections of a destroy. -/
def racing : List ReplicaStep :=
  [.createBegin, .createBegin, .createEnd 0 10 11, .createEnd 0 20 21, .submit 1 true,
    .destroyBegin 1, .submit 1 true]

theorem replica_lifecycle_racing :
    (final step start racing).stateOf 1 = .draining ∧
      (final step start racing).created = [(1, 0), (2, 1)] ∧
      (final step start racing).AliveApart ∧
      Relation.ReflTransGen ReplicaState.Moves ((final step start racing).stateOf 1)
        ((final step start (racing ++ [.destroyEnd 0])).stateOf 1) := by
  have hcount : (final step start (racing ++ [.destroyEnd 0])).created.length < 2 ^ 32 - 1 := by
    decide +kernel
  obtain ⟨hmoves, hapart, -⟩ := replica_lifecycle racing [.destroyEnd 0] hcount
  exact ⟨by decide +kernel, by decide +kernel, hapart, hmoves 1⟩

end Replicas

end Kernel

end InfinityOS
