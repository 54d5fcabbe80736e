import InfinityOS.Kernel.Scheduler
import InfinityOS.Transition.Reach

/-!
# One-shot timers

`ify_timer_once` puts an entry into a list sorted by deadline and fires every entry that is
due, with the lock released for each callback. The deadline is computed modulo `2 ^ 64`: a
delay that goes beyond gives a deadline in the past, and the timer fires at once.

Calls may overlap, from other threads or from callbacks, and each section under the lock is
one step. A call without a scheduler or callback, or without memory, does nothing.
-/

namespace InfinityOS

namespace Kernel

open Transition

/-- A call: its first reading of the clock, the delay, and its number among the calls. -/
structure TimerRequest where
  now : Word
  delayUs : Word
  serial : ℕ
  deriving DecidableEq

/-- `timer_entry_t` without the callback. The call that it comes from is kept to speak of
it. -/
structure TimerEntry where
  deadlineNs : Word
  id : Word
  cancelled : Bool
  request : TimerRequest
  deriving DecidableEq

/-- The timers of a scheduler: the list, the entries of calls that have not taken the lock
yet, and for each call that is firing its second reading of the clock. What has fired is kept
with the reading of the call that fired it. -/
structure Timers where
  pending : List TimerEntry
  timerSeq : Word
  clock : Word
  arriving : List TimerEntry
  firing : List Word
  fired : List (TimerEntry × Word)
  made : ℕ
  deriving DecidableEq

/-- The steps of `ify_timer_once`: the entry is made, it is put into the list, the head of the
list is looked at by the `k`-th call that is firing. A pending timer is cancelled. -/
inductive TimerStep where
  | make (now delayUs : Word)
  | insert (k : ℕ) (now : Word)
  | fire (k : ℕ)
  | cancel (k : ℕ)

def insertTimer (te : TimerEntry) : List TimerEntry → List TimerEntry
  | [] => [te]
  | t :: rest =>
      if t.deadlineNs ≤ te.deadlineNs then t :: insertTimer te rest else te :: t :: rest

namespace Timers

def start : Timers :=
  { pending := [], timerSeq := 0, clock := 0, arriving := [], firing := [], fired := [], made := 0 }

/-- The clock does not go back; other steps are not taken. -/
def step (s : Timers) : TimerStep → Option Timers
  | .make now delayUs =>
      if s.clock ≤ now then
        some { s with
          clock := now
          arriving := s.arriving ++
            [{ deadlineNs := now + delayUs * 1000, id := 0, cancelled := false
               request := ⟨now, delayUs, s.made⟩ }]
          made := s.made + 1 }
      else none
  | .insert k now =>
      match s.arriving[k]? with
      | some te =>
          if s.clock ≤ now then
            some { s with
              pending := insertTimer { te with id := s.timerSeq + 1 } s.pending
              timerSeq := s.timerSeq + 1
              clock := now
              arriving := s.arriving.eraseIdx k
              firing := s.firing ++ [now] }
          else none
      | none => none
  | .fire k =>
      match s.firing[k]? with
      | some cur =>
          match s.pending with
          | [] => some { s with firing := s.firing.eraseIdx k }
          | te :: rest =>
              if te.deadlineNs ≤ cur then
                -- a cancelled entry is freed without a callback
                if !te.cancelled then
                  some { s with pending := rest, fired := s.fired ++ [(te, cur)] }
                else some { s with pending := rest }
              else some { s with firing := s.firing.eraseIdx k }
      | none => none
  | .cancel k =>
      some { s with pending := s.pending.modify k fun te => { te with cancelled := true } }

end Timers

/-- The delay is over, in ns, at the reading of the clock. -/
def TimerRequest.Elapsed (r : TimerRequest) (cur : Word) : Prop :=
  r.now.toNat + 1000 * r.delayUs.toNat ≤ cur.toNat

/-- The end of the delay is a reading that the clock can have. -/
def TimerRequest.Fits (r : TimerRequest) : Prop :=
  r.now.toNat + 1000 * r.delayUs.toNat < 2 ^ 64

/-- The delays of all calls fit. -/
def DelayFits (s : Timers) : TimerStep → Prop
  | .make now delayUs => TimerRequest.Fits ⟨now, delayUs, s.made⟩
  | _ => True

/-- The list is sorted, no timer has fired twice, and none before its delay was over. -/
structure Timely (s : Timers) : Prop where
  sorted : s.pending.Pairwise fun t u => t.deadlineNs ≤ u.deadlineNs
  once : (s.fired.map fun p => p.1.request.serial).Nodup
  elapsed : ∀ p ∈ s.fired, p.1.request.Elapsed p.2

/-! ## The list -/

theorem insertTimer_perm (te : TimerEntry) (pending : List TimerEntry) :
    (insertTimer te pending).Perm (te :: pending) := by
  induction pending with
  | nil => exact .refl _
  | cons t rest ih =>
      rw [insertTimer]
      split
      · exact (ih.cons t).trans (.swap te t rest)
      · exact .refl _

theorem sorted_insertTimer (te : TimerEntry) {pending : List TimerEntry}
    (h : pending.Pairwise fun t u => t.deadlineNs ≤ u.deadlineNs) :
    (insertTimer te pending).Pairwise fun t u => t.deadlineNs ≤ u.deadlineNs := by
  induction pending with
  | nil => exact List.pairwise_singleton _ _
  | cons t rest ih =>
      obtain ⟨hhead, hrest⟩ := List.pairwise_cons.mp h
      rw [insertTimer]
      split
      · next hle =>
          refine List.pairwise_cons.mpr ⟨fun u hu => ?_, ih hrest⟩
          rcases List.mem_cons.mp ((insertTimer_perm te rest).mem_iff.mp hu) with rfl | hu
          · exact hle
          · exact hhead u hu
      · next hnot =>
          have hlt : te.deadlineNs ≤ t.deadlineNs := (BitVec.le_total _ _).resolve_right hnot
          refine List.pairwise_cons.mpr ⟨fun u hu => ?_, h⟩
          rcases List.mem_cons.mp hu with rfl | hu
          · exact hlt
          · exact BitVec.le_trans hlt (hhead u hu)

theorem map_modify_of_eq {α β : Type*} {f : α → α} {g : α → β} (h : ∀ a, g (f a) = g a)
    (l : List α) (k : ℕ) : (l.modify k f).map g = l.map g := by
  apply List.ext_getElem?
  intro i
  rw [List.getElem?_map, List.getElem?_modify, List.getElem?_map]
  cases l[i]? with
  | none => rfl
  | some a =>
      split
      · exact congrArg some (h a)
      · rfl

namespace Timers

/-- A deadline with the call that it comes from. -/
def due (te : TimerEntry) : Word × TimerRequest :=
  (te.deadlineNs, te.request)

/-- Of all entries that are not freed without a callback. -/
def dues (s : Timers) : List (Word × TimerRequest) :=
  s.arriving.map due ++ (s.pending.map due ++ s.fired.map fun p => due p.1)

variable {s s' : Timers} {a : TimerStep}

/-- What a step does where it is taken. -/
inductive Takes (s : Timers) : TimerStep → Timers → Prop where
  | make (now delayUs : Word) (hclock : s.clock ≤ now) :
      Takes s (.make now delayUs) { s with
        clock := now
        arriving := s.arriving ++
          [{ deadlineNs := now + delayUs * 1000, id := 0, cancelled := false
             request := ⟨now, delayUs, s.made⟩ }]
        made := s.made + 1 }
  | insert (k : ℕ) (now : Word) (te : TimerEntry) (hte : s.arriving[k]? = some te)
      (hclock : s.clock ≤ now) :
      Takes s (.insert k now) { s with
        pending := insertTimer { te with id := s.timerSeq + 1 } s.pending
        timerSeq := s.timerSeq + 1
        clock := now
        arriving := s.arriving.eraseIdx k
        firing := s.firing ++ [now] }
  | leave (k : ℕ) (cur : Word) (hcur : s.firing[k]? = some cur)
      (hhead : ∀ te ∈ s.pending.head?, cur < te.deadlineNs) :
      Takes s (.fire k) { s with firing := s.firing.eraseIdx k }
  | call (k : ℕ) (cur : Word) (te : TimerEntry) (rest : List TimerEntry)
      (hcur : s.firing[k]? = some cur) (hpending : s.pending = te :: rest)
      (hdue : te.deadlineNs ≤ cur) (hlive : te.cancelled = false) :
      Takes s (.fire k) { s with pending := rest, fired := s.fired ++ [(te, cur)] }
  | drop (k : ℕ) (cur : Word) (te : TimerEntry) (rest : List TimerEntry)
      (hcur : s.firing[k]? = some cur) (hpending : s.pending = te :: rest)
      (hdue : te.deadlineNs ≤ cur) (hcancelled : te.cancelled = true) :
      Takes s (.fire k) { s with pending := rest }
  | cancel (k : ℕ) :
      Takes s (.cancel k) { s with
        pending := s.pending.modify k fun te => { te with cancelled := true } }

theorem takes_of_step (h : s.step a = some s') : s.Takes a s' := by
  cases a with
  | make now delayUs =>
      simp only [step] at h
      split at h
      · next hclock =>
          cases h
          exact .make now delayUs hclock
      · cases h
  | insert k now =>
      simp only [step] at h
      split at h
      · next te hte =>
          split at h
          · next hclock =>
              cases h
              exact .insert k now te hte hclock
          · cases h
      · cases h
  | fire k =>
      simp only [step] at h
      split at h
      · next cur hcur =>
          split at h
          · next hpending =>
              cases h
              refine .leave k cur hcur fun te hte => ?_
              rw [hpending] at hte
              cases hte
          · next te rest hpending =>
              split at h
              · next hdue =>
                  split at h
                  · next hlive =>
                      cases h
                      exact .call k cur te rest hcur hpending hdue (by simpa using hlive)
                  · next hcancelled =>
                      cases h
                      exact .drop k cur te rest hcur hpending hdue (by simpa using hcancelled)
              · next hnot =>
                  cases h
                  refine .leave k cur hcur fun te' hte' => ?_
                  rw [hpending] at hte'
                  rw [← Option.some.inj hte']
                  exact BitVec.not_le.mp hnot
      · cases h
  | cancel k =>
      cases h
      exact .cancel k

theorem dues_step (h : s.step a = some s') :
    (∃ now delayUs, a = .make now delayUs ∧ s'.made = s.made + 1 ∧
      s'.dues.Perm ((now + delayUs * 1000, ⟨now, delayUs, s.made⟩) :: s.dues)) ∨
    (s'.made = s.made ∧ s'.dues.Subperm s.dues) := by
  cases takes_of_step h with
  | make now delayUs hclock =>
      refine .inl ⟨now, delayUs, rfl, rfl, ?_⟩
      unfold dues
      dsimp only
      rw [List.map_append, List.map_singleton, List.append_assoc]
      exact List.perm_middle
  | insert k now te hte hclock =>
      refine .inr ⟨rfl, List.Perm.subperm ?_⟩
      obtain ⟨hk, rfl⟩ := List.getElem?_eq_some_iff.mp hte
      have harriving := (List.getElem_cons_eraseIdx_perm hk).map due
      have hpending := (insertTimer_perm { s.arriving[k] with id := s.timerSeq + 1 }
        s.pending).map due
      unfold dues
      refine (List.Perm.append_left _ (hpending.append_right _)).trans ?_
      refine List.perm_middle.trans ?_
      exact harriving.append_right _
  | leave k cur hcur hhead => exact .inr ⟨rfl, List.Subperm.refl _⟩
  | call k cur te rest hcur hpending hdue hlive =>
      refine .inr ⟨rfl, List.Perm.subperm (List.Perm.append_left _ ?_)⟩
      rw [hpending, List.map_append, List.map_cons, ← List.append_assoc]
      exact List.perm_append_singleton _ _
  | drop k cur te rest hcur hpending hdue hcancelled =>
      refine .inr ⟨rfl, List.Sublist.subperm (List.Sublist.append_left ?_ _)⟩
      rw [hpending]
      exact List.sublist_cons_self _ _
  | cancel k =>
      refine .inr ⟨rfl, List.Perm.subperm (List.Perm.append_left _ ?_)⟩
      rw [map_modify_of_eq]
      intro te
      rfl

theorem sorted_step (h : s.step a = some s')
    (hs : s.pending.Pairwise fun t u => t.deadlineNs ≤ u.deadlineNs) :
    s'.pending.Pairwise fun t u => t.deadlineNs ≤ u.deadlineNs := by
  cases takes_of_step h with
  | make now delayUs hclock => exact hs
  | insert k now te hte hclock => exact sorted_insertTimer _ hs
  | leave k cur hcur hhead => exact hs
  | call k cur te rest hcur hpending hdue hlive =>
      rw [hpending] at hs
      exact (List.pairwise_cons.mp hs).2
  | drop k cur te rest hcur hpending hdue hcancelled =>
      rw [hpending] at hs
      exact (List.pairwise_cons.mp hs).2
  | cancel k =>
      rw [← List.pairwise_map (f := TimerEntry.deadlineNs) (R := (· ≤ ·))] at hs ⊢
      rw [map_modify_of_eq]
      · exact hs
      · intro te
        rfl

theorem fired_step (h : s.step a = some s') :
    ∀ p ∈ s'.fired, p ∈ s.fired ∨ p.1.deadlineNs ≤ p.2 := by
  intro p hp
  cases takes_of_step h with
  | make now delayUs hclock => exact .inl hp
  | insert k now te hte hclock => exact .inl hp
  | leave k cur hcur hhead => exact .inl hp
  | call k cur te rest hcur hpending hdue hlive =>
      rcases List.mem_append.mp hp with hp | hp
      · exact .inl hp
      · rw [List.mem_singleton.mp hp]
        exact .inr hdue
  | drop k cur te rest hcur hpending hdue hcancelled => exact .inl hp
  | cancel k => exact .inl hp

/-! ## Runs -/

/-- Every entry comes from another call, its deadline is computed from the call, and what has
fired was due. -/
structure Accounted (s : Timers) : Prop where
  sorted : s.pending.Pairwise fun t u => t.deadlineNs ≤ u.deadlineNs
  distinct : (s.dues.map fun q => q.2.serial).Nodup
  serial_lt : ∀ q ∈ s.dues, q.2.serial < s.made
  deadline : ∀ q ∈ s.dues, q.1 = q.2.now + q.2.delayUs * 1000
  reached : ∀ p ∈ s.fired, p.1.deadlineNs ≤ p.2

theorem accounted_start : Accounted start := by
  constructor
  · exact .nil
  · exact .nil
  · intro q hq
    cases hq
  · intro q hq
    cases hq
  · intro p hp
    cases hp

theorem Accounted.step (hs : Accounted s) (h : s.step a = some s') : Accounted s' := by
  have hreached : ∀ p ∈ s'.fired, p.1.deadlineNs ≤ p.2 := fun p hp =>
    (fired_step h p hp).elim (hs.reached p) id
  rcases dues_step h with ⟨now, delayUs, -, hmade, hperm⟩ | ⟨hmade, hsub⟩
  · constructor
    · exact sorted_step h hs.sorted
    · rw [(hperm.map _).nodup_iff, List.map_cons, List.nodup_cons]
      refine ⟨fun hmem => ?_, hs.distinct⟩
      obtain ⟨q, hq, hserial⟩ := List.mem_map.mp hmem
      exact absurd (hserial ▸ hs.serial_lt q hq) (Nat.lt_irrefl _)
    · intro q hq
      rw [hmade]
      rcases List.mem_cons.mp (hperm.mem_iff.mp hq) with rfl | hq
      · exact Nat.lt_succ_self _
      · exact (hs.serial_lt q hq).trans (Nat.lt_succ_self _)
    · intro q hq
      rcases List.mem_cons.mp (hperm.mem_iff.mp hq) with rfl | hq
      · rfl
      · exact hs.deadline q hq
    · exact hreached
  · constructor
    · exact sorted_step h hs.sorted
    · obtain ⟨l, hperm, hle⟩ := hsub
      exact (hperm.map _).nodup_iff.mp (hs.distinct.sublist (hle.map _))
    · intro q hq
      rw [hmade]
      exact hs.serial_lt q (hsub.subset hq)
    · exact fun q hq => hs.deadline q (hsub.subset hq)
    · exact hreached

theorem due_mem_dues {p : TimerEntry × Word} (hp : p ∈ s.fired) : due p.1 ∈ s.dues :=
  List.mem_append_right _ (List.mem_append_right _ (List.mem_map.mpr ⟨p, hp, rfl⟩))

theorem Accounted.once (hs : Accounted s) :
    (s.fired.map fun p => p.1.request.serial).Nodup := by
  have hsub : (s.fired.map fun p => due p.1).Sublist s.dues :=
    (List.sublist_append_right _ _).trans (List.sublist_append_right _ _)
  have hdistinct := hs.distinct.sublist (hsub.map fun q => q.2.serial)
  rwa [List.map_map] at hdistinct

theorem Accounted.elapsed_iff (hs : Accounted s) {p : TimerEntry × Word} (hp : p ∈ s.fired) :
    p.1.request.Elapsed p.2 ↔ p.1.request.Fits := by
  have hdeadline : p.1.deadlineNs = p.1.request.now + p.1.request.delayUs * 1000 :=
    hs.deadline _ (due_mem_dues hp)
  have hreached := hs.reached p hp
  have hlt := p.2.isLt
  have hthousand : (1000 : Word).toNat = 1000 := rfl
  unfold TimerRequest.Elapsed TimerRequest.Fits
  constructor
  · intro helapsed
    omega
  · intro hfits
    rw [hdeadline, BitVec.le_def, BitVec.toNat_add, BitVec.toNat_mul, hthousand] at hreached
    have hproduct : p.1.request.delayUs.toNat * 1000 % 2 ^ 64 =
        p.1.request.delayUs.toNat * 1000 := Nat.mod_eq_of_lt (by omega)
    rw [hproduct, Nat.mod_eq_of_lt (by omega)] at hreached
    omega

/-- In every run the list is sorted and no timer fires twice, and what fires is not early
exactly if its delay fits. -/
theorem accounted_of_reach {P : Timers → TimerStep → Prop}
    (h : Reach (fun s a t => step s a = some t) P start s) : Accounted s :=
  h.invariant Accounted accounted_start fun _ _ _ hs _ hstep => hs.step hstep

theorem fits_of_reach (h : Reach (fun s a t => step s a = some t) DelayFits start s) :
    ∀ q ∈ s.dues, q.2.Fits := by
  refine h.invariant (fun s => ∀ q ∈ s.dues, q.2.Fits) ?_ ?_
  · intro q hq
    cases hq
  · intro t a u ht ha hstep q hq
    rcases dues_step hstep with ⟨now, delayUs, rfl, -, hperm⟩ | ⟨-, hsub⟩
    · rcases List.mem_cons.mp (hperm.mem_iff.mp hq) with rfl | hq
      · exact ha
      · exact ht q hq
    · exact ht q (hsub.subset hq)

/-- In every run of calls whose delays fit, the list is sorted, no timer fires twice, and
none before its delay is over. -/
theorem timely_of_reach (s : Timers)
    (h : Reach (fun s a t => step s a = some t) DelayFits start s) : Timely s := by
  have hs := accounted_of_reach h
  refine ⟨hs.sorted, hs.once, fun p hp => ?_⟩
  exact (hs.elapsed_iff hp).mpr (fits_of_reach h _ (due_mem_dues hp))

/-- Two timers are made, the second one with the shorter delay; a third call fires it. -/
def shortBeforeLong : List TimerStep :=
  [.make 5 7, .insert 0 6, .fire 0, .make 8 1, .insert 0 9, .fire 0, .make 1200 0,
    .insert 0 1200, .fire 0, .fire 0]

def delayFits : Timers → TimerStep → Bool
  | _, .make now delayUs => now.toNat + 1000 * delayUs.toNat < 2 ^ 64
  | _, _ => true

theorem timely_shortBeforeLong :
    (follow step start shortBeforeLong).fired.length = 2 ∧
      Timely (follow step start shortBeforeLong) := by
  have hadmitted : Admitted step DelayFits start shortBeforeLong := by
    apply admitted_of_accepts (p := delayFits)
    · intro s a ha
      cases a with
      | make now delayUs =>
          have hfits : now.toNat + 1000 * delayUs.toNat < 2 ^ 64 := of_decide_eq_true ha
          exact hfits
      | insert k now => trivial
      | fire k => trivial
      | cancel k => trivial
    · decide
  exact ⟨by decide, timely_of_reach _ (reach_follow_of_admitted .refl hadmitted)⟩

/-- A delay whose nanoseconds are a multiple of `2 ^ 64` fires at once. -/
def longDelay : List TimerStep :=
  [.make 5 (.ofNat 64 (2 ^ 61)), .insert 0 5, .fire 0]

theorem long_delay_fires_at_once : ¬ Timely (follow step start longDelay) := by
  intro h
  have helapsed := h.elapsed
    (⟨5, 1, false, ⟨5, .ofNat 64 (2 ^ 61), 0⟩⟩, 5) (by decide)
  revert helapsed
  unfold TimerRequest.Elapsed
  decide

end Timers

end Kernel

end InfinityOS
