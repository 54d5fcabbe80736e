import InfinityOS.Kernel.Dimension

/-!
# Admission of dimensions

The dimension calls together with `ify_kernel_init`, which sets the limit on concurrent
dimensions. A `Ledger` adds to the kernel the ids that were handed out and not destroyed
since. The slot table agrees with it, but `ify_task_id_generate` takes the reserved id 0 for
a dimension as long as a slot is free, and no create looks at the limit.
-/

namespace InfinityOS

namespace Kernel

open Transition

/-- How `ify_kernel_init` fails: by itself, or with the status of a subsystem. -/
inductive InitError where
  | invalidArg
  | alreadyExists
  | subsystem (code : Int32)

structure KernelState extends Dimensions where
  maxDimensions : UInt32

namespace KernelState

def initial : KernelState :=
  { running := false, dims := List.replicate dimTableMax ⟨0, 0⟩, dimCounter := 1
    maxDimensions := 256 }

/-- `ify_kernel_init` with the `max_dimensions` of its options and the answer of
`start_subsystems`. -/
def kernelInit (k : KernelState) (opts : Option UInt32) (subsystems : Except Int32 Unit) :
    Except InitError Unit × KernelState :=
  match opts with
  | none => (.error .invalidArg, k)
  | some maxDimensions =>
      if k.running then
        (.error .alreadyExists, k)
      else
        let k := if maxDimensions ≠ 0 then { k with maxDimensions } else k
        match subsystems with
        | .error code => (.error (.subsystem code), k)
        | .ok () => (.ok (), { k with running := true })

end KernelState

inductive AdmissionCall where
  | init (opts : Option UInt32) (subsystems : Except Int32 Unit)
  | dimension (call : Dimensions.Call)

inductive AdmissionAnswer where
  | initialised (result : Except InitError Unit)
  | dimension (answer : Dimensions.Answer)

def liveAfter (live : List Word) : Dimensions.Call → Dimensions.Answer → List Word
  | .create, .created (.ok id) => id :: live
  | .destroy id, .destroyed (.ok ()) => live.erase id
  | _, _ => live

/-- The kernel, and the ids returned by a create and not destroyed since. -/
structure Ledger where
  kernel : KernelState
  live : List Word

namespace Ledger

def initial : Ledger :=
  { kernel := .initial, live := [] }

def step (l : Ledger) : AdmissionCall → AdmissionAnswer × Ledger
  | .init opts subsystems =>
      let r := l.kernel.kernelInit opts subsystems
      (.initialised r.1, { l with kernel := r.2 })
  | .dimension call =>
      let r := l.kernel.toDimensions.step call
      (.dimension r.1,
        { kernel := { l.kernel with toDimensions := r.2 }, live := liveAfter l.live call r.1 })

def Limited (l : Ledger) : Prop :=
  l.live.length ≤ l.kernel.maxDimensions.toNat

/-- The call succeeds for live dimensions only, and for all of them, and keeps the limit. -/
def Lawful (l : Ledger) (call : AdmissionCall) : Prop :=
  (l.step call).2.Limited ∧
    match call with
    | .dimension (.destroy id) => (l.kernel.dimensionDestroy id).1 = .ok () ↔ id ∈ l.live
    | .dimension (.generate id ts) =>
        (∃ taskId, (l.kernel.taskIdGenerate id ts).1 = .ok taskId) ↔ id ∈ l.live
    | _ => True

def HasRoom (l : Ledger) : Prop :=
  l.kernel.running = true ∧ l.kernel.dimAllocSlot.isSome

/-- The id that a create hands out is neither the reserved one nor live. -/
def Fresh (l : Ledger) : AdmissionCall → Prop
  | .dimension .create => l.HasRoom → l.kernel.dimCounter ≠ 0 ∧ l.kernel.dimCounter ∉ l.live
  | _ => True

/-- Where there is room, no dimension is created beyond the limit and no task id asked for
under the reserved id. -/
def Within (l : Ledger) : AdmissionCall → Prop
  | .dimension .create => l.HasRoom → l.live.length < l.kernel.maxDimensions.toNat
  | .dimension (.generate id _) => l.HasRoom → id ≠ 0
  | _ => True

end Ledger

/-! ## The slot table -/

section Slots

theorem modify_of_findIdx? {α : Type*} {slots : List α} {p : α → Bool} {i : ℕ}
    (h : slots.findIdx? p = some i) (f : α → α) :
    ∃ before slot after, slots = before ++ slot :: after ∧ p slot = true ∧
      slots.modify i f = before ++ f slot :: after := by
  induction slots generalizing i with
  | nil => cases h
  | cons slot rest ih =>
      rw [List.findIdx?_cons] at h
      split at h
      · next hp =>
          obtain rfl := Option.some.inj h
          exact ⟨[], slot, rest, rfl, hp, rfl⟩
      · obtain ⟨j, hj, rfl⟩ := Option.map_eq_some_iff.mp h
        obtain ⟨before, found, after, hrest, hp, hmodify⟩ := ih hj
        refine ⟨slot :: before, found, after, by rw [hrest]; rfl, hp, ?_⟩
        rw [List.modify_succ_cons, hmodify]
        rfl

/-- The ids in the slots that are not free. -/
def occupied (dims : List DimSlot) : List Word :=
  (dims.map DimSlot.id).filter fun id => id ≠ 0

theorem mem_occupied {dims : List DimSlot} {id : Word} :
    id ∈ occupied dims ↔ (∃ slot ∈ dims, slot.id = id) ∧ id ≠ 0 := by
  simp [occupied]

theorem occupied_append (dims dims' : List DimSlot) :
    occupied (dims ++ dims') = occupied dims ++ occupied dims' := by
  simp [occupied]

theorem occupied_cons (slot : DimSlot) (dims : List DimSlot) :
    occupied (slot :: dims) = (if slot.id = 0 then [] else [slot.id]) ++ occupied dims := by
  rw [occupied, List.map_cons, List.filter_cons]
  by_cases h : slot.id = 0
  · rw [if_neg (by simpa using h), if_pos h]
    rfl
  · rw [if_pos (by simpa using h), if_neg h]
    rfl

variable {k : Dimensions}

theorem occupied_modify {id : Word} {i : ℕ} (h : k.dimFind id = some i)
    (f : DimSlot → DimSlot) :
    ∃ slot others, slot.id = id ∧
      (occupied k.dims).Perm ((if id = 0 then [] else [id]) ++ others) ∧
      (occupied (k.dims.modify i f)).Perm
        ((if (f slot).id = 0 then [] else [(f slot).id]) ++ others) := by
  obtain ⟨before, slot, after, hdims, hslot, hmodify⟩ := modify_of_findIdx? h f
  obtain rfl : slot.id = id := of_decide_eq_true hslot
  have hperm : ∀ l : List Word, (occupied before ++ (l ++ occupied after)).Perm
      (l ++ (occupied before ++ occupied after)) := by
    intro l
    rw [← List.append_assoc, ← List.append_assoc]
    exact List.perm_append_comm.append_right _
  refine ⟨slot, occupied before ++ occupied after, rfl, ?_, ?_⟩
  · rw [hdims, occupied_append, occupied_cons]
    exact hperm _
  · rw [hmodify, occupied_append, occupied_cons]
    exact hperm _

theorem isSome_dimFind {id : Word} (hid : id ≠ 0) :
    (k.dimFind id).isSome ↔ id ∈ occupied k.dims := by
  rw [Dimensions.dimFind, List.findIdx?_isSome, List.any_eq_true, mem_occupied,
    and_iff_left hid]
  simp only [decide_eq_true_eq]

theorem dimFind_zero : k.dimFind 0 = k.dimAllocSlot := rfl

theorem dimensionDestroy_ok_iff {id : Word} :
    (k.dimensionDestroy id).1 = .ok () ↔
      id ≠ 0 ∧ k.running = true ∧ (k.dimFind id).isSome := by
  unfold Dimensions.dimensionDestroy
  split
  · next hzero => simp [hzero]
  · next hzero =>
      split
      · next hstopped => simp [hstopped]
      · next hrunning => cases hi : k.dimFind id <;> simp_all

theorem taskIdGenerate_ok_iff {id ts : Word} :
    (∃ taskId, (k.taskIdGenerate id ts).1 = .ok taskId) ↔
      k.running = true ∧ (k.dimFind id).isSome := by
  unfold Dimensions.taskIdGenerate
  split
  · next hstopped => simp [hstopped]
  · next hrunning => cases hi : k.dimFind id <;> simp_all

end Slots

/-! ## What the calls leave as it is -/

theorem kernelInit_frame (k : KernelState) (opts : Option UInt32)
    (subsystems : Except Int32 Unit) :
    (k.kernelInit opts subsystems).2.dims = k.dims ∧
      (k.kernelInit opts subsystems).2.dimCounter = k.dimCounter ∧
      ((k.kernelInit opts subsystems).2.running = false → k.running = false) := by
  unfold KernelState.kernelInit
  split
  · exact ⟨rfl, rfl, fun hstopped => hstopped⟩
  · split
    · exact ⟨rfl, rfl, fun hstopped => hstopped⟩
    · dsimp only
      split
      · split <;> exact ⟨rfl, rfl, fun hstopped => hstopped⟩
      · split <;> exact ⟨rfl, rfl, fun hstopped => nomatch hstopped⟩

theorem create_cases (l : Ledger) :
    ¬ l.HasRoom ∧ (l.step (.dimension .create)).2 = l ∨
      ∃ i, l.HasRoom ∧ l.kernel.dimAllocSlot = some i ∧
        (l.step (.dimension .create)).2 =
          { kernel :=
              { l.kernel with
                dims := l.kernel.dims.set i ⟨l.kernel.dimCounter, 0⟩
                dimCounter := l.kernel.dimCounter + 1 }
            live := l.kernel.dimCounter :: l.live } := by
  unfold Ledger.HasRoom Ledger.step Dimensions.step Dimensions.dimensionCreate
  dsimp only
  by_cases hstopped : l.kernel.running = false
  · rw [if_pos hstopped]
    exact Or.inl ⟨by simp [hstopped], rfl⟩
  · rw [if_neg hstopped]
    cases hi : l.kernel.dimAllocSlot with
    | none => exact Or.inl ⟨by simp, rfl⟩
    | some i => exact Or.inr ⟨i, ⟨by simpa using hstopped, rfl⟩, rfl, rfl⟩

theorem destroy_cases (l : Ledger) (id : Word) :
    (l.step (.dimension (.destroy id))).2 = l ∨
      ∃ i, id ≠ 0 ∧ l.kernel.running = true ∧ l.kernel.dimFind id = some i ∧
        (l.step (.dimension (.destroy id))).2 =
          { kernel := { l.kernel with dims := l.kernel.dims.set i ⟨0, 0⟩ }
            live := l.live.erase id } := by
  unfold Ledger.step Dimensions.step Dimensions.dimensionDestroy
  dsimp only
  by_cases hzero : id = 0
  · rw [if_pos hzero]
    exact Or.inl rfl
  rw [if_neg hzero]
  by_cases hstopped : l.kernel.running = false
  · rw [if_pos hstopped]
    exact Or.inl rfl
  rw [if_neg hstopped]
  cases hi : l.kernel.dimFind id with
  | none => exact Or.inl rfl
  | some i => exact Or.inr ⟨i, hzero, by simpa using hstopped, rfl, rfl⟩

theorem generate_cases (l : Ledger) (id ts : Word) :
    (l.step (.dimension (.generate id ts))).2 = l ∨
      ∃ i seq, l.kernel.dimFind id = some i ∧
        (l.step (.dimension (.generate id ts))).2 =
          { l with
            kernel :=
              { l.kernel with
                dims := l.kernel.dims.modify i fun slot => { slot with taskSeq := seq } } } := by
  unfold Ledger.step Dimensions.step Dimensions.taskIdGenerate
  dsimp only
  by_cases hstopped : l.kernel.running = false
  · rw [if_pos hstopped]
    exact Or.inl rfl
  rw [if_neg hstopped]
  cases hi : l.kernel.dimFind id with
  | none => exact Or.inl rfl
  | some i => exact Or.inr ⟨i, _, rfl, rfl⟩

/-! ## The ledger agrees with the table -/

structure Tracks (l : Ledger) : Prop where
  occupied : (occupied l.kernel.dims).Perm l.live
  nodup : l.live.Nodup
  stopped : l.kernel.running = false → l.live = []

namespace Tracks

variable {l : Ledger}

theorem initial : Tracks Ledger.initial where
  occupied := by
    rw [Ledger.initial, KernelState.initial, Kernel.occupied, List.map_replicate]
    simp
  nodup := List.nodup_nil
  stopped _ := rfl

theorem ne_zero (h : Tracks l) {id : Word} (hid : id ∈ l.live) : id ≠ 0 :=
  (mem_occupied.mp (h.occupied.mem_iff.mpr hid)).2

theorem running (h : Tracks l) {id : Word} (hid : id ∈ l.live) : l.kernel.running = true := by
  by_contra hstopped
  rw [h.stopped (Bool.not_eq_true _ ▸ hstopped)] at hid
  cases hid

theorem isSome_dimFind (h : Tracks l) {id : Word} (hid : id ≠ 0) :
    (l.kernel.dimFind id).isSome ↔ id ∈ l.live := by
  rw [Kernel.isSome_dimFind hid, h.occupied.mem_iff]

theorem init (h : Tracks l) (opts : Option UInt32) (subsystems : Except Int32 Unit) :
    Tracks (l.step (.init opts subsystems)).2 := by
  obtain ⟨hdims, -, hstops⟩ := kernelInit_frame l.kernel opts subsystems
  refine ⟨?_, h.nodup, fun hstopped => h.stopped (hstops hstopped)⟩
  change (Kernel.occupied (l.kernel.kernelInit opts subsystems).2.dims).Perm l.live
  rw [hdims]
  exact h.occupied

theorem create (h : Tracks l) (hfresh : l.Fresh (.dimension .create)) :
    Tracks (l.step (.dimension .create)).2 := by
  rcases create_cases l with ⟨-, hsame⟩ | ⟨i, hroom, hi, hnext⟩
  · rw [hsame]
    exact h
  · obtain ⟨hzero, hnew⟩ := hfresh hroom
    obtain ⟨slot, others, -, hbefore, hafter⟩ :=
      occupied_modify hi fun _ => ⟨l.kernel.dimCounter, 0⟩
    rw [if_pos rfl, List.nil_append] at hbefore
    rw [if_neg hzero] at hafter
    rw [hnext, Dimensions.set_eq_modify]
    constructor
    · exact hafter.trans ((hbefore.symm.trans h.occupied).cons _)
    · exact List.nodup_cons.mpr ⟨hnew, h.nodup⟩
    · intro hstopped
      exact absurd hroom.1 (by simpa using hstopped)

theorem destroy (h : Tracks l) (id : Word) : Tracks (l.step (.dimension (.destroy id))).2 := by
  rcases destroy_cases l id with hsame | ⟨i, hzero, hrunning, hi, hnext⟩
  · rw [hsame]
    exact h
  · obtain ⟨slot, others, -, hbefore, hafter⟩ := occupied_modify hi fun _ => ⟨0, 0⟩
    rw [if_neg hzero] at hbefore
    rw [if_pos rfl, List.nil_append] at hafter
    have herase : (l.live.erase id).Perm others := by
      have hlive := (h.occupied.symm.trans hbefore).erase id
      rwa [List.singleton_append, List.erase_cons_head] at hlive
    rw [hnext, Dimensions.set_eq_modify]
    constructor
    · exact hafter.trans herase.symm
    · exact h.nodup.erase id
    · intro hstopped
      exact absurd hrunning (by simpa using hstopped)

theorem generate (h : Tracks l) (id ts : Word) :
    Tracks (l.step (.dimension (.generate id ts))).2 := by
  rcases generate_cases l id ts with hsame | ⟨i, seq, hi, hnext⟩
  · rw [hsame]
    exact h
  · obtain ⟨slot, others, hslot, hbefore, hafter⟩ :=
      occupied_modify hi fun slot => { slot with taskSeq := seq }
    dsimp only at hafter
    rw [hslot] at hafter
    rw [hnext]
    exact ⟨(hafter.trans hbefore.symm).trans h.occupied, h.nodup, h.stopped⟩

theorem step (h : Tracks l) {call : AdmissionCall} (hfresh : l.Fresh call) :
    Tracks (l.step call).2 := by
  cases call with
  | init opts subsystems => exact h.init opts subsystems
  | dimension call =>
      cases call with
      | create => exact h.create hfresh
      | destroy id => exact h.destroy id
      | generate id ts => exact h.generate id ts

end Tracks

/-! ## What the calls answer -/

section Lawful

variable {l : Ledger}

theorem Tracks.zero_notMem (h : Tracks l) : (0 : Word) ∉ l.live :=
  fun hid => h.ne_zero hid rfl

theorem Tracks.found_iff (h : Tracks l) {id : Word} (hid : id ≠ 0) :
    l.kernel.running = true ∧ (l.kernel.dimFind id).isSome ↔ id ∈ l.live := by
  rw [h.isSome_dimFind hid]
  exact ⟨fun hfound => hfound.2, fun hlive => ⟨h.running hlive, hlive⟩⟩

theorem Tracks.limited_init (h : Tracks l) (hlimited : l.Limited) (opts : Option UInt32)
    (subsystems : Except Int32 Unit) : (l.step (.init opts subsystems)).2.Limited := by
  by_cases hstopped : l.kernel.running = false
  · unfold Ledger.Limited Ledger.step
    dsimp only
    rw [h.stopped hstopped]
    exact Nat.zero_le _
  · have hsame : (l.kernel.kernelInit opts subsystems).2 = l.kernel := by
      unfold KernelState.kernelInit
      split
      · rfl
      · rw [if_pos (by simpa using hstopped)]
    unfold Ledger.Limited Ledger.step
    dsimp only
    rw [hsame]
    exact hlimited

theorem limited_create_iff (hlimited : l.Limited) :
    (l.step (.dimension .create)).2.Limited ↔
      (l.HasRoom → l.live.length < l.kernel.maxDimensions.toNat) := by
  rcases create_cases l with ⟨hroom, hsame⟩ | ⟨i, hroom, -, hnext⟩
  · rw [hsame]
    exact iff_of_true hlimited fun h => absurd h hroom
  · rw [hnext]
    constructor
    · exact fun hlt _ => hlt
    · exact fun h => h hroom

theorem limited_destroy (hlimited : l.Limited) (id : Word) :
    (l.step (.dimension (.destroy id))).2.Limited := by
  rcases destroy_cases l id with hsame | ⟨i, -, -, -, hnext⟩
  · rw [hsame]
    exact hlimited
  · rw [hnext]
    exact List.length_erase_le.trans hlimited

theorem lawful_iff (h : Tracks l) (hlimited : l.Limited) (call : AdmissionCall) :
    l.Lawful call ↔ l.Within call := by
  cases call with
  | init opts subsystems =>
      exact iff_of_true ⟨h.limited_init hlimited opts subsystems, trivial⟩ trivial
  | dimension call =>
      cases call with
      | create =>
          unfold Ledger.Lawful Ledger.Within
          rw [limited_create_iff hlimited, and_true]
      | destroy id =>
          refine iff_of_true ⟨limited_destroy hlimited id, ?_⟩ trivial
          dsimp only
          rw [dimensionDestroy_ok_iff]
          by_cases hid : id = 0
          · exact iff_of_false (fun hfound => hfound.1 hid) (hid ▸ h.zero_notMem)
          · rw [h.found_iff hid]
            exact and_iff_right hid
      | generate id ts =>
          have hkept : (l.step (.dimension (.generate id ts))).2.Limited := hlimited
          unfold Ledger.Lawful Ledger.Within
          rw [and_iff_right hkept]
          dsimp only
          rw [taskIdGenerate_ok_iff]
          by_cases hid : id = 0
          · -- the id 0 is never live, and found where there is room
            subst hid
            rw [dimFind_zero, iff_false_right h.zero_notMem]
            simp [Ledger.HasRoom]
          · rw [h.found_iff hid]
            exact iff_of_true Iff.rfl fun _ => hid

end Lawful

/-- As long as creates hand out fresh ids, the calls of a run all answer as the live
dimensions require and keep the limit exactly if none creates a dimension beyond it or asks
for a task id under the id 0 where there is room. -/
theorem admission_iff (calls : List AdmissionCall)
    (hfresh : Along Ledger.Fresh Ledger.step Ledger.initial calls) :
    Along Ledger.Lawful Ledger.step Ledger.initial calls ↔
      Along Ledger.Within Ledger.step Ledger.initial calls := by
  have hinitial : Tracks Ledger.initial ∧ Ledger.initial.Limited :=
    ⟨Tracks.initial, Nat.zero_le _⟩
  have hboth := along_congr (P := fun l call => l.Fresh call ∧ l.Lawful call)
    (Q := fun l call => l.Fresh call ∧ l.Within call) (fun l => Tracks l ∧ l.Limited)
    (fun l call ⟨htracks, hlimited⟩ => and_congr_right fun _ =>
      lawful_iff htracks hlimited call)
    (fun l call ⟨htracks, _⟩ ⟨hcall, hlawful⟩ => ⟨htracks.step hcall, hlawful.1⟩)
    calls hinitial
  rw [along_and, along_and] at hboth
  simpa only [hfresh, true_and] using hboth

/-! ## Fresh ids -/

/-- The counter has not wrapped in the given number of calls, and it is above the live ids. -/
structure Unwrapped (made : ℕ) (l : Ledger) : Prop where
  pos : 0 < l.kernel.dimCounter.toNat
  le : l.kernel.dimCounter.toNat ≤ made + 1
  below : ∀ id ∈ l.live, id.toNat < l.kernel.dimCounter.toNat

namespace Unwrapped

variable {made : ℕ} {l l' : Ledger}

theorem initial : Unwrapped 0 Ledger.initial where
  pos := by decide
  le := by decide
  below id hid := by cases hid

theorem fresh (h : Unwrapped made l) (call : AdmissionCall) : l.Fresh call := by
  cases call with
  | init opts subsystems => trivial
  | dimension call =>
      cases call with
      | create =>
          intro _
          constructor
          · intro hzero
            have hpos := h.pos
            rw [hzero] at hpos
            exact absurd hpos (by decide)
          · exact fun hlive => lt_irrefl _ (h.below _ hlive)
      | destroy id => trivial
      | generate id ts => trivial

theorem keep (h : Unwrapped made l) (hcounter : l'.kernel.dimCounter = l.kernel.dimCounter)
    (hlive : l'.live ⊆ l.live) : Unwrapped (made + 1) l' where
  pos := hcounter ▸ h.pos
  le := hcounter ▸ Nat.le_succ_of_le h.le
  below id hid := hcounter ▸ h.below id (hlive hid)

theorem create (h : Unwrapped made l) (hmade : made + 2 < 2 ^ 64) :
    Unwrapped (made + 1) (l.step (.dimension .create)).2 := by
  rcases create_cases l with ⟨-, hsame⟩ | ⟨i, -, -, hnext⟩
  · rw [hsame]
    exact h.keep rfl (List.Subset.refl _)
  · have hle := h.le
    have hcounter : (l.kernel.dimCounter + 1).toNat = l.kernel.dimCounter.toNat + 1 := by
      rw [BitVec.toNat_add]
      exact Nat.mod_eq_of_lt (by change _ + 1 < _; omega)
    rw [hnext]
    constructor
    · exact hcounter ▸ Nat.succ_pos _
    · exact hcounter ▸ Nat.succ_le_succ hle
    · intro id hid
      change id.toNat < (l.kernel.dimCounter + 1).toNat
      rw [hcounter]
      rcases List.mem_cons.mp hid with rfl | hid
      · exact Nat.lt_succ_self _
      · exact Nat.lt_succ_of_lt (h.below id hid)

theorem step (h : Unwrapped made l) (hmade : made + 2 < 2 ^ 64) (call : AdmissionCall) :
    Unwrapped (made + 1) (l.step call).2 := by
  cases call with
  | init opts subsystems =>
      exact h.keep (kernelInit_frame l.kernel opts subsystems).2.1 fun _ hid => hid
  | dimension call =>
      cases call with
      | create => exact h.create hmade
      | destroy id =>
          rcases destroy_cases l id with hsame | ⟨i, -, -, -, hnext⟩
          · rw [hsame]
            exact h.keep rfl (List.Subset.refl _)
          · rw [hnext]
            exact h.keep rfl List.erase_subset
      | generate id ts =>
          rcases generate_cases l id ts with hsame | ⟨i, seq, -, hnext⟩
          · rw [hsame]
            exact h.keep rfl (List.Subset.refl _)
          · rw [hnext]
            exact h.keep rfl (List.Subset.refl _)

end Unwrapped

theorem along_fresh {made : ℕ} {l : Ledger} (h : Unwrapped made l) (calls : List AdmissionCall)
    (hmade : made + calls.length + 1 < 2 ^ 64) : Along Ledger.Fresh Ledger.step l calls := by
  induction calls generalizing made l with
  | nil => trivial
  | cons call calls ih =>
      rw [List.length_cons] at hmade
      constructor
      · exact h.fresh call
      · exact ih (h.step (by omega) call) (by omega)

def oneDimension : List AdmissionCall :=
  [.init (some 1) (.ok ()), .dimension .create, .dimension (.generate 1 5),
    .dimension (.destroy 1)]

theorem admission_iff_sample : Along Ledger.Lawful Ledger.step Ledger.initial oneDimension := by
  have hfresh := along_fresh Unwrapped.initial oneDimension (by decide)
  have hwithin : Along Ledger.Within Ledger.step Ledger.initial oneDimension :=
    ⟨trivial, fun _ => by decide, fun _ => by decide, trivial, trivial⟩
  exact (admission_iff oneDimension hfresh).mpr hwithin

/-- A task id is made under the reserved id, and two dimensions under a limit of one. -/
theorem reserved_id_admitted :
    ¬ Along Ledger.Lawful Ledger.step Ledger.initial
        [.init (some 1) (.ok ()), .dimension (.generate 0 5)] ∧
      ¬ Along Ledger.Lawful Ledger.step Ledger.initial
        [.init (some 1) (.ok ()), .dimension .create, .dimension .create] := by
  constructor
  · rintro ⟨-, ⟨-, hanswer⟩, -⟩
    exact absurd (hanswer.mp ⟨_, rfl⟩) (by decide)
  · rintro ⟨-, -, ⟨hlimited, -⟩, -⟩
    revert hlimited
    unfold Ledger.Limited
    decide

end Kernel

end InfinityOS
