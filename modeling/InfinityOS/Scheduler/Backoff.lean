import InfinityOS.Scheduler.Rewrite

/-!
# Waiting before another attempt

The delay of a policy is computed by `backoffFor`, which no call of the scheduler uses: a task
that `fail` queues again can be handed out at once. So the delay is kept where the worker waits
itself, and in all runs only if the policy has none.
-/

namespace InfinityOS

namespace Scheduler

open Transition

/-! ## The delay of a policy -/

theorem UInt32.toNat_min (a b : UInt32) : (min a b).toNat = min a.toNat b.toNat := by
  change (if a ≤ b then a else b).toNat = _
  rw [min_def, apply_ite UInt32.toNat]
  exact if_congr UInt32.le_iff_toNat_le rfl rfl

theorem UInt64.toNat_min (a b : UInt64) : (min a b).toNat = min a.toNat b.toNat := by
  change (if a ≤ b then a else b).toNat = _
  rw [min_def, apply_ite UInt64.toNat]
  exact if_congr UInt64.le_iff_toNat_le rfl rfl

theorem UInt64.toNat_one_shiftLeft {n : UInt32} (h : n.toNat < 64) :
    ((1 : UInt64) <<< n.toUInt64).toNat = 2 ^ n.toNat := by
  have hfits : 2 ^ n.toNat < 2 ^ 64 := Nat.pow_lt_pow_right Nat.one_lt_two h
  rw [UInt64.toNat_shiftLeft, UInt32.toNat_toUInt64, Nat.mod_eq_of_lt h, Nat.shiftLeft_eq]
  change 1 * 2 ^ n.toNat % 2 ^ 64 = _
  rw [one_mul, Nat.mod_eq_of_lt hfits]

theorem RetryPolicy.toNat_backoffFor (p : RetryPolicy) (attempt : UInt32) :
    (p.backoffFor attempt).toNat =
      min (p.baseBackoffMs.toNat * 2 ^ min attempt.toNat 62) p.maxBackoffMs.toNat := by
  have hmin : (min attempt 62).toNat = min attempt.toNat 62 := UInt32.toNat_min attempt 62
  have hshift := UInt64.toNat_one_shiftLeft (n := min attempt 62) (by omega)
  have hmax : p.maxBackoffMs.toNat ≤ 2 ^ 64 - 1 := Nat.le_sub_one_of_lt p.maxBackoffMs.toNat_lt
  unfold backoffFor
  split
  · next hbase => simp [hbase]
  · rw [UInt64.toNat_min, toNat_saturatingMul, hshift, hmin, min_assoc, min_eq_right hmax]

/-- The policy never makes a task wait for another attempt. -/
def RetryPolicy.NoDelay (p : RetryPolicy) : Prop :=
  p.maxAttempts ≤ 1 ∨ p.baseBackoffMs = 0 ∨ p.maxBackoffMs = 0

theorem RetryPolicy.backoffFor_eq_zero {p : RetryPolicy}
    (h : p.baseBackoffMs = 0 ∨ p.maxBackoffMs = 0) (attempt : UInt32) :
    (p.backoffFor attempt).toNat = 0 := by
  rw [toNat_backoffFor]
  rcases h with h | h
  · simp [h]
  · simp [h]

theorem RetryPolicy.backoffFor_pos {p : RetryPolicy} (hbase : p.baseBackoffMs ≠ 0)
    (hmax : p.maxBackoffMs ≠ 0) (attempt : UInt32) : 0 < (p.backoffFor attempt).toNat := by
  have hpos {a : UInt64} (ha : a ≠ 0) : 0 < a.toNat := by
    rw [Nat.pos_iff_ne_zero]
    exact fun hzero => ha (UInt64.toNat_inj.mp hzero)
  rw [toNat_backoffFor]
  exact lt_min (Nat.mul_pos (hpos hbase) (Nat.two_pow_pos _)) (hpos hmax)

/-- A product whose power of two is cut at `c` is the whole product below a ceiling exactly if
the cut is not reached, the base is 0 or the cut product is at the ceiling already. -/
theorem min_mul_two_pow_cut_iff (base ceiling n c : ℕ) :
    min (base * 2 ^ min n c) ceiling = min (base * 2 ^ n) ceiling ↔
      n ≤ c ∨ base = 0 ∨ ceiling ≤ base * 2 ^ c := by
  rcases le_or_gt n c with hle | hlt
  · simp [hle]
  · rcases Nat.eq_zero_or_pos base with rfl | hpos
    · simp
    · have hpow : base * 2 ^ c < base * 2 ^ n :=
        Nat.mul_lt_mul_of_pos_left (Nat.pow_lt_pow_right Nat.one_lt_two hlt) hpos
      rw [min_eq_right hlt.le]
      omega

theorem RetryPolicy.backoffFor_mono (p : RetryPolicy) {m n : UInt32} (h : m ≤ n) :
    p.backoffFor m ≤ p.backoffFor n := by
  rw [UInt64.le_iff_toNat_le, toNat_backoffFor, toNat_backoffFor]
  have hshift : min m.toNat 62 ≤ min n.toNat 62 :=
    min_le_min_right 62 (UInt32.le_iff_toNat_le.mp h)
  gcongr
  norm_num

/-- `base_ms * 2^attempt`, capped at `max_backoff_ms`, in unbounded integers. -/
def RetryPolicy.exactDelay (p : RetryPolicy) (attempt : UInt32) : ℕ :=
  min (p.baseBackoffMs.toNat * 2 ^ attempt.toNat) p.maxBackoffMs.toNat

/-- The cut of the shift at 62 does not show: it is not reached, or the product is 0 or at the
ceiling there. -/
def RetryPolicy.CutHidden (p : RetryPolicy) (attempt : UInt32) : Prop :=
  attempt.toNat ≤ 62 ∨ p.baseBackoffMs = 0 ∨ p.maxBackoffMs.toNat ≤ p.baseBackoffMs.toNat * 2 ^ 62

/-- The delay is exact, and no later attempt has a shorter one, exactly where the cut of the
shift does not show. -/
theorem RetryPolicy.backoffFor_exact_iff (p : RetryPolicy) (attempt : UInt32) :
    ((p.backoffFor attempt).toNat = p.exactDelay attempt ∧
        ∀ later, attempt ≤ later → p.backoffFor attempt ≤ p.backoffFor later) ↔
      p.CutHidden attempt := by
  have hzero : p.baseBackoffMs.toNat = 0 ↔ p.baseBackoffMs = 0 := UInt64.toNat_inj (b := 0)
  rw [and_iff_left fun later => p.backoffFor_mono, toNat_backoffFor, exactDelay,
    min_mul_two_pow_cut_iff, hzero, CutHidden]

/-- At the attempt 63 the delay of one millisecond has been doubled 62 times only. -/
theorem RetryPolicy.backoffFor_cut :
    ¬ ∀ (p : RetryPolicy) (attempt : UInt32),
      (p.backoffFor attempt).toNat = p.exactDelay attempt ∧
        ∀ later, attempt ≤ later → p.backoffFor attempt ≤ p.backoffFor later := by
  intro h
  have hexact := (h ⟨64, 1, 0xffffffffffffffff⟩ 63).1
  rw [toNat_backoffFor] at hexact
  exact absurd hexact (by decide)

/-! ## Runs and their clocks -/

def Op.clock : Op → Option Clock
  | .setQuota _ _ => none
  | .submit _ _ now | .nextReady _ now | .renewLease _ now | .complete _ now
  | .fail _ _ now | .cancel _ now | .pause _ now | .resume _ now => some now

def Call.clock : Call → Option Clock
  | .op o => o.clock
  | .restore _ => none

/-- The clock never goes back, neither in a call nor between two calls. -/
structure NonDecreasing (calls : List Call) : Prop where
  within : ∀ call ∈ calls, ∀ now, call.clock = some now → ∀ k l, k ≤ l → now k ≤ now l
  between : ∀ (i j : ℕ) (a b : Call) (now now' : Clock), i < j → calls[i]? = some a →
    calls[j]? = some b → a.clock = some now → b.clock = some now' → ∀ k l, now k ≤ now' l

/-- The time from which the task may be tried again: the time at which it was queued, and the
delay before the attempt that follows. -/
def TaskRecord.due (r : TaskRecord) : ℕ :=
  r.updatedAtMs.toNat + (r.spec.retryPolicy.backoffFor (r.attempt - 1)).toNat

/-- `fail` queues the task again, with the record `r`. -/
structure Requeues (s : TaskScheduler) (id : TaskId) (reason : String) (now : Clock)
    (r : TaskRecord) : Prop where
  accepted : (s.fail id reason now).1 = .ok ()
  found : (s.fail id reason now).2.index.get id = some r
  queued : r.state = .queued

/-- The call at `i` of the run is a failure of an attempt that queues the task again. -/
def RetriedAt (json : RecordJson) (s : TaskScheduler) (calls : List Call) (i : ℕ) (id : TaskId)
    (r : TaskRecord) : Prop :=
  1 ≤ r.attempt ∧ ∃ reason now, calls[i]? = some (.op (.fail id reason now)) ∧
    Requeues (before (stepCall json) s calls i) id reason now r

/-- A task with the policy that `fail` has queued again is handed out in the run only when it
is due. -/
def HonoursBackoff (json : RecordJson) (s : TaskScheduler) (calls : List Call)
    (p : RetryPolicy) : Prop :=
  ∀ i j id r w now, i < j → RetriedAt json s calls i id r → r.spec.retryPolicy = p →
    calls[j]? = some (.op (.nextReady w now)) →
      ((before (stepCall json) s calls j).step (.nextReady w now)).1.handedOut = some id →
        r.due ≤ (now 0).toNat

/-- No worker asks for a task while a task with the policy is queued since it failed and is not
due. -/
def Patient (json : RecordJson) (s : TaskScheduler) (calls : List Call) (p : RetryPolicy) :
    Prop :=
  ∀ i j id r w now, i < j → RetriedAt json s calls i id r → r.spec.retryPolicy = p →
    calls[j]? = some (.op (.nextReady w now)) →
      (∀ k, i < k → k ≤ j → (before (stepCall json) s calls k).stateOf id = some .queued) →
        r.due ≤ (now 0).toNat

/-! ## While the task waits -/

variable {json : RecordJson} {s : TaskScheduler} {calls : List Call} {i : ℕ} {id : TaskId}
  {r : TaskRecord} {reason : String} {now : Clock}

theorem Requeues.retried (h : Requeues s id reason now r) :
    ∃ u, s.index.get id = some u ∧ u.attempt < u.spec.retryPolicy.maxAttempts ∧
      r = (u.broken reason (now 0)).inState .queued (now 1) := by
  obtain ⟨he, -⟩ := fail_rewrites s id reason now
  have hget := h.found
  rw [h.accepted] at he
  revert he hget
  generalize (s.fail id reason now).2.index = x
  intro he hget
  cases he with
  | refused hrefusal _ => cases hrefusal
  | failed hu _ _ =>
      rw [TaskIndex.get_set_self] at hget
      cases hget
      cases h.queued
  | @retried _ _ _ u hu _ hmore =>
      rw [TaskIndex.get_set_self] at hget
      cases hget
      exact ⟨u, hu, hmore, rfl⟩

theorem fail_of_running (hr : s.index.get id = some r) (hrunning : r.state = .running)
    (hmore : r.attempt < r.spec.retryPolicy.maxAttempts) (reason : String) (now : Clock) :
    (s.fail id reason now).1 = .ok () ∧ (s.fail id reason now).2.index =
      s.index.set id ((r.broken reason (now 0)).inState .queued (now 1)) := by
  obtain ⟨he, -⟩ := fail_rewrites s id reason now
  revert he
  generalize (s.fail id reason now).1 = answer
  generalize (s.fail id reason now).2.index = x
  intro he
  cases he with
  | refused _ hnot => exact absurd (Option.map_eq_some_iff.mpr ⟨r, hr, hrunning⟩) hnot
  | @failed _ _ _ u hu _ hlast =>
      rw [hr] at hu
      cases hu
      exact absurd hmore hlast
  | @retried _ _ _ u hu _ _ =>
      rw [hr] at hu
      cases hu
      exact ⟨rfl, rfl⟩

theorem RetriedAt.stateOf (h : RetriedAt json s calls i id r) :
    (before (stepCall json) s calls (i + 1)).stateOf id = some .queued := by
  obtain ⟨-, reason, now, hcall, hrequeues⟩ := h
  rw [before_succ hcall, TaskScheduler.stateOf]
  change ((((before (stepCall json) s calls i).fail id reason now).2.index.get id).map
    TaskRecord.state) = _
  rw [hrequeues.found, Option.map_some, hrequeues.queued]

theorem eq_nextReady_of_handedOut {call : Call} (h : (stepCall json s call).1.handedOut = some id) :
    ∃ w now, call = .op (.nextReady w now) := by
  cases call with
  | restore text => cases h
  | op op =>
      cases op with
      | nextReady w now => exact ⟨w, now, rfl⟩
      | _ => cases h

theorem stateOf_of_queued (json : RecordJson) (hx : s.index.WellFormed)
    (hqueued : s.stateOf id = some .queued) (call : Call) :
    (stepCall json s call).1.handedOut = some id ∨
      (stepCall json s call).2.stateOf id = some .queued ∨
        (stepCall json s call).2.stateOf id = some .cancelled := by
  obtain ⟨r, hr, hstate⟩ := Option.map_eq_some_iff.mp hqueued
  obtain ⟨r', hr', hmove⟩ := stepCall_state_moves hx json call hr
  rw [TaskScheduler.stateOf, hr', Option.map_some]
  rw [hstate] at hmove
  rcases hmove with hsame | hhand | hrunning | ⟨hcan, hne⟩
  · exact .inr (.inl (congrArg some hsame))
  · exact .inl hhand
  · cases hrunning
  · cases hnext : r'.state with
    | cancelled => exact .inr (.inr rfl)
    | running => exact absurd hnext hne
    | _ =>
        rw [hnext] at hcan
        cases hcan

theorem stateOf_of_cancelled (json : RecordJson) (hx : s.index.WellFormed)
    (hcancelled : s.stateOf id = some .cancelled) (call : Call) :
    (stepCall json s call).1.handedOut ≠ some id ∧
      (stepCall json s call).2.stateOf id = some .cancelled := by
  obtain ⟨r, hr, hstate⟩ := Option.map_eq_some_iff.mp hcancelled
  have hnot : (stepCall json s call).1.handedOut ≠ some id := by
    intro hhand
    cases call with
    | restore text => cases hhand
    | op op =>
        obtain ⟨u, -, -, hu, hqueued, -⟩ := (step_rewrites hx op).handedOut hx hhand
        rw [hr] at hu
        cases hu
        rw [hstate] at hqueued
        cases hqueued
  refine ⟨hnot, ?_⟩
  obtain ⟨r', hr', hmove⟩ := stepCall_state_moves hx json call hr
  rw [TaskScheduler.stateOf, hr', Option.map_some]
  rw [hstate] at hmove
  rcases hmove with hsame | hhand | hrunning | ⟨hcan, -⟩
  · rw [hsame]
  · exact absurd hhand hnot
  · cases hrunning
  · cases hnext : r'.state <;> rw [hnext] at hcan <;> cases hcan

/-- From the call at `i` on, the task has been queued all the time up to `k`. -/
def StaysQueued (json : RecordJson) (s : TaskScheduler) (calls : List Call) (i k : ℕ)
    (id : TaskId) : Prop :=
  ∀ l, i < l → l ≤ k → (before (stepCall json) s calls l).stateOf id = some .queued

/-- The task is handed out by the call at `j`. -/
def HandedAt (json : RecordJson) (s : TaskScheduler) (calls : List Call) (j : ℕ)
    (id : TaskId) : Prop :=
  ∃ w now, calls[j]? = some (.op (.nextReady w now)) ∧
    ((before (stepCall json) s calls j).step (.nextReady w now)).1.handedOut = some id

/-- Where a task is after it has been queued again: it still waits, has been cancelled, or has
been handed out, and waited up to that call. -/
theorem waits_or_handed (hx : s.index.WellFormed)
    (hqueued : (before (stepCall json) s calls (i + 1)).stateOf id = some .queued) {k : ℕ}
    (hik : i + 1 ≤ k) (hk : k ≤ calls.length) :
    StaysQueued json s calls i k id ∨
      (before (stepCall json) s calls k).stateOf id = some .cancelled ∨
        ∃ j, i < j ∧ j < k ∧ StaysQueued json s calls i j id ∧ HandedAt json s calls j id := by
  induction k, hik using Nat.le_induction with
  | base =>
      left
      intro l hl hle
      obtain rfl : l = i + 1 := by omega
      exact hqueued
  | succ k hik ih =>
      have hcall := List.getElem?_eq_getElem (Nat.lt_of_succ_le hk)
      have hwf := wellFormed_final json hx (calls.take k)
      rcases ih (by omega) with hstays | hcancelled | ⟨j, hij, hjk, hstays, hhand⟩
      · rcases stateOf_of_queued json hwf (hstays k (by omega) le_rfl) calls[k] with
          hhand | hnext | hnext
        · obtain ⟨w, now, hpoll⟩ := eq_nextReady_of_handedOut hhand
          right
          right
          refine ⟨k, by omega, by omega, hstays, w, now, ?_, ?_⟩
          · rw [hcall, hpoll]
          · rw [hpoll] at hhand
            exact hhand
        · left
          intro l hl hle
          rcases Nat.le_succ_iff.mp hle with hle | rfl
          · exact hstays l hl hle
          · rw [before_succ hcall]
            exact hnext
        · right
          left
          rw [before_succ hcall]
          exact hnext
      · right
        left
        rw [before_succ hcall]
        exact (stateOf_of_cancelled json hwf hcancelled calls[k]).2
      · exact .inr (.inr ⟨j, hij, by omega, hstays, hhand⟩)

theorem Patient.honoursBackoff (hx : s.index.WellFormed) (hclock : NonDecreasing calls)
    {p : RetryPolicy} (h : Patient json s calls p) : HonoursBackoff json s calls p := by
  intro i j id r w now hij hretried hp hpoll hhand
  have hlen : j < calls.length := (List.getElem?_eq_some_iff.mp hpoll).1
  rcases waits_or_handed hx hretried.stateOf hij hlen.le with
    hstays | hcancelled | ⟨k, hik, hkj, hstays, w', now', hfirst, -⟩
  · exact h i j id r w now hij hretried hp hpoll hstays
  · have hnot := (stateOf_of_cancelled json (wellFormed_final json hx (calls.take j)) hcancelled
      (.op (.nextReady w now))).1
    exact absurd hhand hnot
  · -- the first worker that got the task had waited, and the clock has not gone back
    have hdue := h i k id r w' now' hik hretried hp hfirst hstays
    have hle := hclock.between k j _ _ now' now hkj hfirst hpoll rfl rfl 0 0
    exact hdue.trans (UInt64.le_iff_toNat_le.mp hle)

theorem RetryPolicy.NoDelay.honoursBackoff {p : RetryPolicy} (h : p.NoDelay)
    (hclock : NonDecreasing calls) : HonoursBackoff json s calls p := by
  rintro i j id r w now hij ⟨hmade, reason, now', hfail, hrequeues⟩ hp hpoll -
  obtain ⟨u, -, hmore, rfl⟩ := hrequeues.retried
  have hpolicy : u.spec.retryPolicy = p := hp
  have hle := hclock.between i j _ _ now' now hij hfail hpoll rfl rfl 1 0
  rcases h with hmax | hzero
  · rw [hpolicy, UInt32.lt_iff_toNat_lt] at hmore
    have hone : 1 ≤ u.attempt.toNat := UInt32.le_iff_toNat_le.mp hmade
    have hmax' : p.maxAttempts.toNat ≤ 1 := UInt32.le_iff_toNat_le.mp hmax
    omega
  · unfold TaskRecord.due
    rw [hp, RetryPolicy.backoffFor_eq_zero hzero, Nat.add_zero]
    exact UInt64.le_iff_toNat_le.mp hle

/-! ## A policy with a delay -/

/-- The first attempt of the task fails, and another worker asks for a task in the same
millisecond. -/
def hastyCalls (p : RetryPolicy) : List Call :=
  [.op (.submit 1 { TaskSpec.new 7 "http.request" "fetch" with retryPolicy := p } fun _ => 0),
   .op (.nextReady "worker-1" fun _ => 0),
   .op (.fail 1 "timeout" fun _ => 0),
   .op (.nextReady "worker-2" fun _ => 0)]

/-- The scheduler before the `i`-th of these calls. -/
def hastyRun (p : RetryPolicy) (i : ℕ) : TaskScheduler :=
  before (stepCall (sampleJson 0)) (TaskScheduler.new 1 .none 5000) (hastyCalls p) i

theorem accounted_hastyRun (p : RetryPolicy) : Accounted (hastyRun p 3) :=
  accounted_step _ (accounted_step _ (accounted_step _ (accounted_new 1 .none 5000)))

theorem hastyRun_fail (p : RetryPolicy) :
    hastyRun p 3 = ((hastyRun p 2).fail 1 "timeout" fun _ => 0).2 := by
  have hcall : (hastyCalls p)[2]? = some (.op (.fail 1 "timeout" fun _ => 0)) := by
    simp [hastyCalls]
  rw [hastyRun, before_succ hcall]
  rfl

theorem nonDecreasing_of_times (times : List UInt64)
    (hcalls : calls.map Call.clock = times.map fun t => some fun _ => t)
    (hsorted : times.Pairwise (· ≤ ·)) : NonDecreasing calls := by
  have hread {i : ℕ} {a : Call} {now : Clock} (ha : calls[i]? = some a)
      (hnow : a.clock = some now) : ∃ t, times[i]? = some t ∧ now = fun _ => t := by
    have hi : (calls.map Call.clock)[i]? = some (some now) := by
      rw [List.getElem?_map, ha, Option.map_some, hnow]
    rw [hcalls, List.getElem?_map, Option.map_eq_some_iff] at hi
    obtain ⟨t, ht, hsame⟩ := hi
    exact ⟨t, ht, (Option.some.inj hsame).symm⟩
  constructor
  · intro call hcall now hnow k l _
    obtain ⟨i, hi⟩ := List.mem_iff_getElem?.mp hcall
    obtain ⟨t, -, rfl⟩ := hread hi hnow
    exact UInt64.le_refl t
  · intro i j a b now now' hij ha hb hnow hnow' k l
    obtain ⟨t, ht, rfl⟩ := hread ha hnow
    obtain ⟨t', ht', rfl⟩ := hread hb hnow'
    obtain ⟨hi, rfl⟩ := List.getElem?_eq_some_iff.mp ht
    obtain ⟨hj, rfl⟩ := List.getElem?_eq_some_iff.mp ht'
    exact List.pairwise_iff_getElem.mp hsorted i j hi hj hij

theorem clock_hastyCalls (p : RetryPolicy) : NonDecreasing (hastyCalls p) :=
  nonDecreasing_of_times [0, 0, 0, 0] rfl (by decide)

theorem Accounted.handedOut_only (h : Accounted s) (hr : s.index.get id = some r)
    (hqueued : r.state = .queued) (honly : s.index.insertionOrder = [id])
    (hslot : 1 < (s.quotaFor r.spec.dimensionId).maxConcurrent.toNat) (w : String) (now : Clock) :
    (s.step (.nextReady w now)).1.handedOut = some id := by
  have hid : r.taskId = id := h.index.keyed hr
  have hfew : s.index.runningTasks r.spec.dimensionId ≤ 1 := by
    unfold TaskIndex.runningTasks TaskIndex.iterInOrder
    rw [honly]
    exact List.countP_le_length.trans (List.length_filterMap_le _ _)
  have hcandidate : Candidate s r := ⟨hid ▸ hr, hqueued, lt_of_le_of_lt hfew hslot⟩
  have hcorrect := h.dispatchCorrect
  cases hanswer : (s.nextReady w now).1 with
  | none => exact absurd hcandidate ((hcorrect.empty w now).mp hanswer r)
  | some handed =>
      obtain ⟨u, hu, hsame, -⟩ := hcorrect.chosen w now handed.1 handed.2 hanswer
      have hmem : u.taskId ∈ s.index.insertionOrder := by
        rw [h.index.mem_order, hu.found]
        rfl
      rw [honly, List.mem_singleton] at hmem
      change (Answer.handed (s.nextReady w now).1).handedOut = some id
      rw [hanswer]
      exact congrArg some (hsame.trans hmem)

theorem hastyCalls_not_honoured {p : RetryPolicy} (h : ¬ p.NoDelay) :
    ¬ HonoursBackoff (sampleJson 0) (TaskScheduler.new 1 .none 5000) (hastyCalls p) p := by
  obtain ⟨hmax, hbase, hceiling⟩ : ¬ p.maxAttempts ≤ 1 ∧ p.baseBackoffMs ≠ 0 ∧
      p.maxBackoffMs ≠ 0 := by
    simpa [RetryPolicy.NoDelay] using h
  have hrun : ((hastyRun p 2).index.get 1).map
      (fun r => (r.state, r.attempt, r.spec.retryPolicy)) = some (.running, 1, p) := rfl
  obtain ⟨u, hu, hfacts⟩ := Option.map_eq_some_iff.mp hrun
  obtain ⟨hrunning, hattempt, hpolicy⟩ : u.state = .running ∧ u.attempt = 1 ∧
      u.spec.retryPolicy = p := by
    simpa using hfacts
  have hmore : u.attempt < u.spec.retryPolicy.maxAttempts := by
    rw [hattempt, hpolicy]
    exact UInt32.not_le.mp hmax
  obtain ⟨haccepted, hindex⟩ := fail_of_running hu hrunning hmore "timeout" fun _ => 0
  have hrequeues : Requeues (hastyRun p 2) 1 "timeout" (fun _ => 0)
      ((u.broken "timeout" 0).inState .queued 0) :=
    ⟨haccepted, by rw [hindex, TaskIndex.get_set_self], rfl⟩
  have hfound : (hastyRun p 3).index.get 1 =
      some ((u.broken "timeout" 0).inState .queued 0) := by
    rw [hastyRun_fail]
    exact hrequeues.found
  have honly : (hastyRun p 3).index.insertionOrder = [1] := by
    rw [hastyRun_fail, hindex]
    rfl
  have hslot : 1 < ((hastyRun p 3).quotaFor u.spec.dimensionId).maxConcurrent.toNat := by
    have hquotas : (hastyRun p 3).quotas = ∅ := by
      rw [hastyRun_fail]
      exact (fail_rewrites (hastyRun p 2) 1 "timeout" _).2
    rw [TaskScheduler.quotaFor, hquotas]
    simp [DimensionQuota.unlimited]
  have hretried : RetriedAt (sampleJson 0) (TaskScheduler.new 1 .none 5000) (hastyCalls p) 2 1
      ((u.broken "timeout" 0).inState .queued 0) := by
    refine ⟨?_, "timeout", fun _ => 0, rfl, hrequeues⟩
    change 1 ≤ u.attempt
    rw [hattempt]
    exact UInt32.le_refl 1
  have hhanded := (accounted_hastyRun p).handedOut_only hfound rfl honly hslot "worker-2"
    fun _ => 0
  intro hhonoured
  have hdue := hhonoured 2 3 1 _ "worker-2" (fun _ => 0) (by omega) hretried hpolicy rfl hhanded
  have hpos := RetryPolicy.backoffFor_pos hbase hceiling (u.attempt - 1)
  change 0 + (u.spec.retryPolicy.backoffFor (u.attempt - 1)).toNat ≤ 0 at hdue
  rw [hpolicy] at hdue
  omega

/-- In every run with a clock that does not go back, workers that wait until the queued tasks
are due keep the delay of a retry policy. All such runs keep it exactly if the policy never makes
a task wait. -/
theorem backoff_honoured (p : RetryPolicy) :
    (∀ json dim policy leaseMs calls, NonDecreasing calls →
        Patient json (TaskScheduler.new dim policy leaseMs) calls p →
          HonoursBackoff json (TaskScheduler.new dim policy leaseMs) calls p) ∧
      ((∀ json dim policy leaseMs calls, NonDecreasing calls →
          HonoursBackoff json (TaskScheduler.new dim policy leaseMs) calls p) ↔ p.NoDelay) := by
  refine ⟨fun _ _ _ _ _ hclock h => h.honoursBackoff TaskIndex.wellFormed_new hclock, ?_⟩
  constructor
  · intro h
    by_contra hdelay
    exact hastyCalls_not_honoured hdelay (h _ _ _ _ _ (clock_hastyCalls p))
  · intro h json dim policy leaseMs calls hclock
    exact h.honoursBackoff hclock

/-- The second worker asks when the delay of half a second is over. -/
def patientCalls : List Call :=
  [.op (.submit 1 (.new 7 "http.request" "fetch") fun _ => 0),
   .op (.nextReady "worker-1" fun _ => 10),
   .op (.fail 1 "timeout" fun _ => 20),
   .op (.nextReady "worker-2" fun _ => 520)]

theorem backoff_honoured_patient :
    HonoursBackoff (sampleJson 0) (TaskScheduler.new 1 .none 5000) patientCalls .default ∧
      HandedAt (sampleJson 0) (TaskScheduler.new 1 .none 5000) patientCalls 3 1 := by
  refine ⟨(backoff_honoured .default).1 (sampleJson 0) 1 .none 5000 patientCalls ?_ ?_,
    "worker-2", fun _ => 520, rfl, by decide⟩
  · exact nonDecreasing_of_times [0, 10, 20, 520] rfl (by decide)
  · rintro i j id r w now hij ⟨-, reason, now', hfail, hrequeues⟩ - hpoll -
    have hi : i = 2 := by
      rcases i with _ | _ | _ | _ | i <;> first | rfl | cases hfail
    subst hi
    have hj : j = 3 := by
      rcases j with _ | _ | _ | _ | j <;> first | rfl | omega | cases hpoll
    subst hj
    cases hfail
    cases hpoll
    have hdue : (((before (stepCall (sampleJson 0)) (TaskScheduler.new 1 .none 5000) patientCalls
        2).fail 1 "timeout" fun _ => 20).2.index.get 1).map TaskRecord.due = some 520 := by
      decide
    rw [hrequeues.found, Option.map_some, Option.some.injEq] at hdue
    exact hdue.le

/-- With the default policy a failed task can be started again in the same millisecond. -/
theorem backoff_ignored :
    ¬ ∀ (p : RetryPolicy) (calls : List Call), NonDecreasing calls →
      HonoursBackoff (sampleJson 0) (TaskScheduler.new 1 .none 5000) calls p := by
  intro h
  have hdelay : ¬ RetryPolicy.default.NoDelay := by
    simp [RetryPolicy.NoDelay, RetryPolicy.default]
  exact hastyCalls_not_honoured hdelay (h .default _ (clock_hastyCalls .default))

end Scheduler

end InfinityOS
