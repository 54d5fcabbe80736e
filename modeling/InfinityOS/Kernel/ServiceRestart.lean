import InfinityOS.Kernel.ServiceIdentity

/-!
# The restarts of a service

`ify_service_start` with no other call between its steps: a failed start callback is called
again after a pause that the inner loop doubles for each attempt, up to 30 s. The callback of a
service that always fails is called once more than there are restarts, and the service is
failed after that.
-/

namespace InfinityOS

namespace Kernel

open LockProgram

/-! ## The doubling loop -/

theorem backoffLoop_succ (n : ℕ) (ms : UInt32) :
    backoffLoop (n + 1) ms =
      if backoffLoop n ms < 30000 then backoffLoop n ms * 2 else backoffLoop n ms := by
  induction n generalizing ms with
  | zero => rfl
  | succ n ih =>
      rw [backoffLoop]
      by_cases hlow : ms < 30000
      · rw [if_pos hlow, ih, backoffLoop, if_pos hlow]
      · rw [if_neg hlow, backoffLoop, if_neg hlow, if_neg hlow]

theorem toNat_mul_two {ms : UInt32} (h : ms < 30000) : (ms * 2).toNat = ms.toNat * 2 := by
  have hlow : ms.toNat < 30000 := UInt32.lt_iff_toNat_lt.mp h
  rw [UInt32.toNat_mul]
  change ms.toNat * 2 % 2 ^ 32 = _
  omega

theorem backoffLoop_exact (n : ℕ) (base : UInt32) :
    (backoffLoop n base).toNat = base.toNat * 2 ^ n ∨
      30000 ≤ (backoffLoop n base).toNat ∧ 30000 ≤ base.toNat * 2 ^ n := by
  induction n with
  | zero => exact .inl (mul_one _).symm
  | succ n ih =>
      rw [backoffLoop_succ, pow_succ, ← mul_assoc]
      split
      · next hlow =>
          have hlow' : (backoffLoop n base).toNat < 30000 := UInt32.lt_iff_toNat_lt.mp hlow
          rw [toNat_mul_two hlow]
          omega
      · next hhigh =>
          have hhigh' : ¬ (backoffLoop n base).toNat < 30000 :=
            fun h => hhigh (UInt32.lt_iff_toNat_lt.mpr h)
          omega

theorem toNat_backoffMs (base : UInt32) (attempt : ℕ) :
    (backoffMs base attempt).toNat = min (base.toNat * 2 ^ attempt) 30000 := by
  have hexact := backoffLoop_exact attempt base
  have hmin : (backoffMs base attempt).toNat = min (backoffLoop attempt base).toNat 30000 :=
    UInt32.toNat_min _ 30000
  omega

theorem backoffMs_pos_iff (base : UInt32) (attempt : ℕ) :
    0 < backoffMs base attempt ↔ base ≠ 0 := by
  have hbase : base ≠ 0 ↔ base.toNat ≠ 0 := UInt32.toNat_inj.symm.not
  rw [UInt32.lt_iff_toNat_lt, toNat_backoffMs, hbase, ← Nat.pos_iff_ne_zero,
    ← Nat.mul_pos_iff_of_pos_right (Nat.two_pow_pos attempt)]
  change 0 < min _ 30000 ↔ _
  omega

/-! ## The loop of the attempts -/

/-- What `ify_service_start` does that others can see: it assigns the state of the slot, calls
the start callback or sleeps. -/
inductive StartEvent where
  | entered (state : ServiceState)
  | callback (id : ServiceId)
  | sleep (ms : UInt32)
  deriving DecidableEq

structure StartRun where
  events : List StartEvent
  result : Returned
  registry : Registry

def StartRun.after (events : List StartEvent) (run : StartRun) : StartRun :=
  { run with events := events ++ run.events }

/-- A pause of no length is left out. -/
def pause (ms : UInt32) : List StartEvent :=
  if 0 < ms then [.sleep ms] else []

def Registry.countRestart (r : Registry) (k : ℕ) : Registry :=
  r.modifySlot k fun s => { s with restartCount := s.restartCount + 1 }

/-- The turns of the loop of `ify_service_start` from `attempt` on; `callback` has the answers
of the start callback by attempt. -/
def startTurns (callback : ℕ → StatusCode) (id : ServiceId) (maxRestarts backoffBase : UInt32)
    (attempt : UInt32) (r : Registry) : StartRun :=
  let rc := callback attempt.toNat
  -- the slot is fetched again, since the lock was released
  match r.slotById id with
  | none => ⟨[.callback id], .status errNotFound, r⟩
  | some k =>
      if rc = ifyOk then
        ⟨[.callback id, .entered .running], .status ifyOk, r.setState k .running⟩
      else
        let r := r.countRestart k
        if _hlast : attempt ≥ maxRestarts then
          ⟨[.callback id, .entered .failed], .status rc, r.setState k .failed⟩
        else
          let waited := .callback id :: pause (backoffMs backoffBase attempt.toNat)
          match r.slotById id with
          | none => ⟨waited, .status errNotFound, r⟩
          | some _ =>
              (startTurns callback id maxRestarts backoffBase (attempt + 1) r).after waited
termination_by maxRestarts.toNat - attempt.toNat
decreasing_by
  have hlt : attempt.toNat < maxRestarts.toNat := by
    rw [← UInt32.lt_iff_toNat_lt]
    exact UInt32.not_le.mp _hlast
  have hmax := maxRestarts.toNat_lt
  rw [UInt32.toNat_add]
  change maxRestarts.toNat - (attempt.toNat + 1) % 2 ^ 32 < _
  omega

/-- `ify_service_start`, with no other call of the registry between its steps. -/
def serviceStartRun (callback : ℕ → StatusCode) (id : ServiceId) (r : Registry) : StartRun :=
  match r.slotById id with
  | none => ⟨[], .status errNotFound, r⟩
  | some k =>
      let s := r.slot k
      if s.state ≠ .registered ∧ s.state ≠ .stopped ∧ s.state ≠ .failed then
        ⟨[], .status errInvalidArg, r⟩
      else
        (startTurns callback s.id s.desc.maxRestarts s.desc.backoffBaseMs 0
          (r.modifySlot k fun s => { s with state := .starting, restartCount := 0 })).after
            [.entered .starting]

/-! ## The start as a program behind the lock -/

section Alone

variable {callback : ℕ → StatusCode} {id : ServiceId} {maxRestarts backoffBase : UInt32}

/-- How many waits of the program belong to one attempt: the callback, and the pause if there
is one. -/
def waitsOfAttempt (backoffBase : UInt32) : ℕ :=
  if backoffBase = 0 then 1 else 2

theorem toNat_succ_of_lt {attempt : UInt32} (h : attempt.toNat < maxRestarts.toNat) :
    (attempt + 1).toNat = attempt.toNat + 1 := by
  have hmax := maxRestarts.toNat_lt
  rw [UInt32.toNat_add]
  change (attempt.toNat + 1) % 2 ^ 32 = _
  omega

theorem alone_pause (again : ServiceProg) (attempt : ℕ) (answers : ℕ → StatusCode)
    (r : Registry) :
    Prog.alone (if 0 < backoffMs backoffBase attempt then .external fun _ => again else again)
        (fun n => answers (n + 1)) r =
      again.alone (fun n => answers (n + waitsOfAttempt backoffBase)) r := by
  by_cases hbase : backoffBase = 0
  · rw [if_neg fun hpos => (backoffMs_pos_iff _ _).mp hpos hbase, waitsOfAttempt, if_pos hbase]
  · rw [if_pos ((backoffMs_pos_iff _ _).mpr hbase), waitsOfAttempt, if_neg hbase]
    rfl

/-- One turn of the program: what follows a failure has the next answers. -/
theorem alone_startAttempt (failed : ℕ → StatusCode → ServiceProg) (answers : ℕ → StatusCode)
    (r : Registry) :
    (startAttempt id failed).alone answers r =
      match r.slotById id with
      | none => (.status errNotFound, r)
      | some k =>
          if answers 0 = ifyOk then (.status ifyOk, r.setState k .running)
          else (failed k (answers 0)).alone (fun n => answers (n + 1)) (r.countRestart k) := by
  rw [startAttempt]
  simp only [Prog.alone]
  cases r.slotById id with
  | none => rfl
  | some k =>
      dsimp only
      split
      · rfl
      · rfl

theorem alone_startLoop (left : ℕ) (attempt : UInt32) (answers : ℕ → StatusCode) (r : Registry)
    (hleft : maxRestarts.toNat = attempt.toNat + left)
    (hanswers : ∀ n ≤ left,
      answers (waitsOfAttempt backoffBase * n) = callback (attempt.toNat + n)) :
    (startLoop id maxRestarts backoffBase left).alone answers r =
      ((startTurns callback id maxRestarts backoffBase attempt r).result,
        (startTurns callback id maxRestarts backoffBase attempt r).registry) := by
  have hrc : answers 0 = callback attempt.toNat := hanswers 0 (Nat.zero_le left)
  induction left generalizing attempt answers r with
  | zero =>
      have hlast : attempt ≥ maxRestarts := UInt32.le_iff_toNat_le.mpr hleft.le
      rw [startTurns, startLoop, alone_startAttempt, hrc]
      cases hslot : r.slotById id with
      | none => rfl
      | some k =>
          dsimp only
          by_cases hok : callback attempt.toNat = ifyOk
          · rw [if_pos hok, if_pos hok]
          · rw [if_neg hok, if_neg hok, dif_pos hlast]
            rfl
  | succ left ih =>
      have hlt : attempt.toNat < maxRestarts.toNat := by omega
      have hlast : ¬ attempt ≥ maxRestarts := by
        rw [ge_iff_le, UInt32.le_iff_toNat_le]
        omega
      have hindex : maxRestarts.toNat - (left + 1) = attempt.toNat := by omega
      rw [startTurns, startLoop, alone_startAttempt, hrc, hindex]
      cases hslot : r.slotById id with
      | none => rfl
      | some k =>
          dsimp only
          by_cases hok : callback attempt.toNat = ifyOk
          · rw [if_pos hok, if_pos hok]
          · rw [if_neg hok, if_neg hok, dif_neg hlast, Prog.alone, alone_pause]
            simp only [Prog.alone]
            cases hagain : (r.countRestart k).slotById id with
            | none => rfl
            | some j =>
                have hshift (n : ℕ) (hn : n ≤ left) :
                    answers (waitsOfAttempt backoffBase * n + waitsOfAttempt backoffBase) =
                      callback ((attempt + 1).toNat + n) := by
                  rw [toNat_succ_of_lt hlt, add_assoc, add_comm 1, ← Nat.mul_succ]
                  exact hanswers (n + 1) (by omega)
                refine ih (attempt + 1) (fun n => answers (n + waitsOfAttempt backoffBase))
                  (r.countRestart k) ?_ hshift (hshift 0 (Nat.zero_le left))
                rw [toNat_succ_of_lt hlt]
                omega

theorem alone_serviceStart (answers : ℕ → StatusCode) (r : Registry)
    (hanswers : ∀ k n, r.slotById id = some k → n ≤ (r.slot k).desc.maxRestarts.toNat →
      answers (waitsOfAttempt (r.slot k).desc.backoffBaseMs * n) = callback n) :
    (serviceStart id).alone answers r =
      ((serviceStartRun callback id r).result, (serviceStartRun callback id r).registry) := by
  rw [serviceStart, serviceStartRun]
  simp only [read, Prog.alone, id_eq]
  cases hslot : r.slotById id with
  | none => rfl
  | some k =>
      dsimp only
      split
      · rfl
      · simp only [write, Prog.alone]
        refine alone_startLoop _ 0 answers _ (Nat.zero_add _).symm fun n hn => ?_
        rw [hanswers k n hslot hn]
        exact congrArg callback (Nat.zero_add n).symm

end Alone

/-! ## A service that always fails -/

section Failing

variable {callback : ℕ → StatusCode} {id : ServiceId} {r : Registry} {k : ℕ}
  {f : ServiceSlot → ServiceSlot}

theorem id_of_slotById (h : r.slotById id = some k) : (r.slot k).id = id := by
  obtain ⟨hlength, hfound, -⟩ := List.findIdx?_eq_some_iff_getElem.mp h
  rw [Registry.slot_eq_getElem hlength]
  exact (of_decide_eq_true hfound).1

theorem slotById_modifySlot (h : r.slotById id = some k) (hid : (f (r.slot k)).id = (r.slot k).id)
    (hstate : (f (r.slot k)).state ≠ .unregistered) :
    (r.modifySlot k f).slotById id = some k := by
  rw [id_of_slotById h] at hid
  obtain ⟨hlength, -, hbefore⟩ := List.findIdx?_eq_some_iff_getElem.mp h
  rw [Registry.slot_eq_getElem hlength] at hid hstate
  apply List.findIdx?_eq_some_iff_getElem.mpr
  refine ⟨?_, ?_, fun j hj => ?_⟩
  · rw [Registry.modifySlot, List.length_modify]
    exact hlength
  · simp only [Registry.modifySlot, List.getElem_modify, if_true]
    exact decide_eq_true ⟨hid, hstate⟩
  · simp only [Registry.modifySlot, List.getElem_modify, hj.ne', if_false]
    exact hbefore j hj

theorem slotById_countRestart (h : r.slotById id = some k) :
    (r.countRestart k).slotById id = some k :=
  slotById_modifySlot h rfl (Registry.live_of_slotById h)

def failedTurn (id : ServiceId) (base : UInt32) (attempt : ℕ) : List StartEvent :=
  .callback id :: pause (backoffMs base attempt)

theorem startTurns_of_failing (maxRestarts backoffBase attempt : UInt32)
    (hfail : ∀ n, callback n ≠ ifyOk) (hslot : r.slotById id = some k) (left : ℕ)
    (hleft : maxRestarts.toNat = attempt.toNat + left) :
    ∃ r' : Registry, (r'.slot k).state = .failed ∧
      startTurns callback id maxRestarts backoffBase attempt r =
        ⟨(List.range' attempt.toNat left).flatMap (failedTurn id backoffBase) ++
          [.callback id, .entered .failed], .status (callback maxRestarts.toNat), r'⟩ := by
  induction left generalizing attempt r with
  | zero =>
      have hlast : attempt ≥ maxRestarts := UInt32.le_iff_toNat_le.mpr hleft.le
      have hcounted := slotById_countRestart hslot
      refine ⟨(r.countRestart k).setState k .failed, ?_, ?_⟩
      · rw [Registry.setState, Registry.slot_modifySlot_self (Registry.live_of_slotById hcounted)]
      · rw [startTurns, hslot]
        dsimp only
        rw [if_neg (hfail _), dif_pos hlast, hleft]
        rfl
  | succ left ih =>
      have hlast : ¬ attempt ≥ maxRestarts := by
        rw [ge_iff_le, UInt32.le_iff_toNat_le]
        omega
      have hlt : attempt.toNat < maxRestarts.toNat := by omega
      have hnext : (attempt + 1).toNat = attempt.toNat + 1 := toNat_succ_of_lt hlt
      have hcounted := slotById_countRestart hslot
      obtain ⟨r', hstate, hrest⟩ := ih (attempt + 1) hcounted (by omega)
      refine ⟨r', hstate, ?_⟩
      rw [startTurns, hslot]
      dsimp only
      rw [if_neg (hfail _), dif_neg hlast, hcounted, hrest, hnext, List.range'_succ,
        List.flatMap_cons, List.append_assoc]
      rfl

theorem count_failedTurn (id : ServiceId) (base : UInt32) (attempt : ℕ) :
    (failedTurn id base attempt).count (.callback id) = 1 := by
  rw [failedTurn, List.count_cons_self, pause]
  split
  · simp
  · rfl

theorem entered_notMem_failedTurn {base : UInt32} {attempt : ℕ} {state : ServiceState} :
    .entered state ∉ failedTurn id base attempt := by
  rw [failedTurn, pause]
  split <;> simp

theorem serviceStartRun_of_failing (hfail : ∀ n, callback n ≠ ifyOk)
    (hslot : r.slotById id = some k)
    (hstate : (r.slot k).state = .registered ∨ (r.slot k).state = .stopped ∨
      (r.slot k).state = .failed) :
    ((serviceStartRun callback id r).registry.slot k).state = .failed ∧
      (serviceStartRun callback id r).result =
        .status (callback (r.slot k).desc.maxRestarts.toNat) ∧
      (serviceStartRun callback id r).events = .entered .starting ::
        (List.range (r.slot k).desc.maxRestarts.toNat).flatMap
          (failedTurn id (r.slot k).desc.backoffBaseMs) ++ [.callback id, .entered .failed] := by
  have hstart : ¬ ((r.slot k).state ≠ .registered ∧ (r.slot k).state ≠ .stopped ∧
      (r.slot k).state ≠ .failed) := by
    rintro ⟨hregistered, hstopped, hfailed⟩
    rcases hstate with h | h | h
    · exact hregistered h
    · exact hstopped h
    · exact hfailed h
  have hstarting : (r.modifySlot k fun s => { s with
      state := .starting, restartCount := 0 }).slotById id = some k :=
    slotById_modifySlot hslot rfl ServiceState.noConfusion
  obtain ⟨r', hfailed, hturns⟩ := startTurns_of_failing (r.slot k).desc.maxRestarts
    (r.slot k).desc.backoffBaseMs 0 hfail hstarting (r.slot k).desc.maxRestarts.toNat
    (Nat.zero_add _).symm
  have hrun : serviceStartRun callback id r = (startTurns callback id
      (r.slot k).desc.maxRestarts (r.slot k).desc.backoffBaseMs 0 (r.modifySlot k fun s =>
        { s with state := .starting, restartCount := 0 })).after [.entered .starting] := by
    rw [serviceStartRun, hslot]
    dsimp only
    rw [if_neg hstart, id_of_slotById hslot]
  rw [hrun, hturns, List.range_eq_range']
  exact ⟨hfailed, rfl, rfl⟩

/-- The pause before each restart is the base doubled for each attempt, up to 30 s, with no
overflow in any turn of the doubling loop; and a service whose callback always fails is started
once more than it has restarts before it is failed. -/
theorem service_restarts_exact :
    (∀ (base : UInt32) (attempt : ℕ),
      (backoffMs base attempt).toNat = min (base.toNat * 2 ^ attempt) 30000 ∧
        ∀ turn < attempt, backoffLoop turn base < 30000 →
          (backoffLoop turn base * 2).toNat = (backoffLoop turn base).toNat * 2) ∧
      ∀ (callback : ℕ → StatusCode) (id : ServiceId) (r : Registry) (k : ℕ),
        (∀ n, callback n ≠ ifyOk) → r.slotById id = some k →
        ((r.slot k).state = .registered ∨ (r.slot k).state = .stopped ∨
          (r.slot k).state = .failed) →
        ∃ turns : List StartEvent,
          (serviceStartRun callback id r).events =
            .entered .starting :: turns ++ [.entered .failed] ∧
          turns.count (.callback id) = (r.slot k).desc.maxRestarts.toNat + 1 ∧
          (∀ state, .entered state ∉ turns) ∧
          ((serviceStartRun callback id r).registry.slot k).state = .failed := by
  refine ⟨fun base attempt => ⟨toNat_backoffMs base attempt, fun _ _ => toNat_mul_two⟩, ?_⟩
  intro callback id r k hfail hslot hstate
  obtain ⟨hfailed, -, hevents⟩ := serviceStartRun_of_failing hfail hslot hstate
  refine ⟨(List.range (r.slot k).desc.maxRestarts.toNat).flatMap
    (failedTurn id (r.slot k).desc.backoffBaseMs) ++ [.callback id], ?_, ?_, ?_, hfailed⟩
  · rw [hevents, List.cons_append, List.cons_append, List.append_assoc]
    rfl
  · rw [List.count_append, List.count_flatMap, List.count_singleton_self]
    have hone : List.count (.callback id) ∘ failedTurn id (r.slot k).desc.backoffBaseMs =
        fun _ => 1 := funext fun n => count_failedTurn id _ n
    rw [hone]
    simp
  · intro state hmem
    rw [List.mem_append, List.mem_flatMap] at hmem
    rcases hmem with ⟨n, -, hturn⟩ | hlast
    · exact entered_notMem_failedTurn hturn
    · cases List.mem_singleton.mp hlast

/-- A table with one service that may be restarted three times. -/
def flakyRegistry : Registry :=
  { slots := [⟨{ loggerDescriptor with maxRestarts := 3 }, 1, .registered, 0⟩]
    nextId := 2
    initialized := true }

theorem service_restarts_exact_flaky :
    ∃ turns : List StartEvent,
      (serviceStartRun (fun _ => errInvalidArg) 1 flakyRegistry).events =
        .entered .starting :: turns ++ [.entered .failed] ∧
      turns.count (.callback 1) = 3 + 1 ∧ (∀ state, .entered state ∉ turns) ∧
      ((serviceStartRun (fun _ => errInvalidArg) 1 flakyRegistry).registry.slot 0).state =
        .failed :=
  service_restarts_exact.2 (fun _ => errInvalidArg) 1 flakyRegistry 0 (fun _ => by decide)
    (by decide) (.inl rfl)

end Failing

end Kernel

end InfinityOS
