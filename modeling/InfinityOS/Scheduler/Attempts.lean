import InfinityOS.Scheduler.Rewrite

/-!
# Attempts

The attempt counter of a task goes up where the task is handed out, but it is compared with
the limit of the policy only where the task fails. `resume` queues a task without looking at
the counter. In runs that resume no task whose attempts are used up, a task that waits for an
attempt has one left.
-/

namespace InfinityOS

namespace Scheduler

open Transition

/-- The attempts are within the limit of the policy, and one is left where the task waits. -/
def TaskRecord.WithinLimit (r : TaskRecord) : Prop :=
  1 ≤ r.spec.retryPolicy.maxAttempts →
    r.attempt ≤ r.spec.retryPolicy.maxAttempts ∧
      (r.state = .pending ∨ r.state = .queued → r.attempt < r.spec.retryPolicy.maxAttempts)

/-- A task that is resumed has an attempt left, and so has a waiting one that is read from a
snapshot. -/
def Call.SparesAttempts (json : RecordJson) (s : TaskScheduler) : Call → Prop
  | .op (.resume id _) => ∀ r, s.index.get id = some r →
      r.state.canTransitionTo .queued = true → 1 ≤ r.spec.retryPolicy.maxAttempts →
        r.attempt < r.spec.retryPolicy.maxAttempts
  | .op _ => True
  | .restore text =>
      Call.Reads json (fun s r => s.index.get r.taskId = none → r.WithinLimit) s text

def starts (id : TaskId) (_ : TaskScheduler) (_ : Call) (reply : Reply) (_ : TaskScheduler) :
    Bool :=
  reply.handedOut = some id

/-! ## The counters -/

variable {s : TaskScheduler} {op : Op} {answer : Answer} {x : TaskIndex} {id : TaskId}

theorem UInt32.add_one_le_of_lt {a b : UInt32} (h : a < b) : a + 1 ≤ b := by
  rw [UInt32.le_iff_toNat_le, toNat_add_one_of_lt h]
  exact UInt32.lt_iff_toNat_lt.mp h

theorem TaskRecord.WithinLimit.congr {r r' : TaskRecord} (h : r.WithinLimit)
    (hspec : r'.spec = r.spec) (hattempt : r'.attempt = r.attempt)
    (hstate : r'.state = .pending ∨ r'.state = .queued → r.state = .pending ∨ r.state = .queued) :
    r'.WithinLimit := by
  unfold WithinLimit
  rw [hspec, hattempt]
  exact fun hmax => ⟨(h hmax).1, fun hwaits => (h hmax).2 (hstate hwaits)⟩

theorem TaskRecord.WithinLimit.of_lt {r : TaskRecord}
    (h : r.attempt < r.spec.retryPolicy.maxAttempts) : r.WithinLimit :=
  fun _ => ⟨UInt32.le_of_lt h, fun _ => h⟩

theorem TaskRecord.withinLimit_new (id : TaskId) (spec : TaskSpec) (seq : ℕ) (now : UInt64) :
    (TaskRecord.new id spec seq now).WithinLimit := by
  intro hmax
  have hpos : (0 : UInt32) < spec.retryPolicy.maxAttempts := by
    rw [UInt32.lt_iff_toNat_lt]
    exact UInt32.le_iff_toNat_le.mp hmax
  exact ⟨UInt32.le_of_lt hpos, fun _ => hpos⟩

theorem Rewrites.withinLimit (he : Rewrites s op answer x)
    (h : s.index.Forall TaskRecord.WithinLimit) {json : RecordJson}
    (hop : Call.SparesAttempts json s (.op op)) : x.Forall TaskRecord.WithinLimit := by
  cases he with
  | quota => exact h
  | refused _ _ => exact h
  | registered _ => exact h.push (TaskRecord.withinLimit_new _ _ _ _)
  | @queued i spec now _ _ =>
      have hnew := TaskRecord.withinLimit_new i spec (s.index.seq + 1) (now 0)
      apply (h.push hnew).set
      exact hnew.congr rfl rfl fun _ => .inl rfl
  | @handed _ _ i r lease hr hqueued _ =>
      apply h.set
      intro hmax
      have hlt := (h i r hr hmax).2 (.inr hqueued)
      refine ⟨UInt32.add_one_le_of_lt hlt, ?_⟩
      rintro (hp | hq)
      · cases hp
      · cases hq
  | @renewed i _ r _ _ hr _ =>
      apply h.set
      exact (h i r hr).congr rfl rfl id
  | @completed i _ r m t hr _ hm hpromotes =>
      have hmid : m.index.Forall TaskRecord.WithinLimit := by
        rw [hm]
        apply h.set
        exact (h i r hr).congr rfl rfl (by simp [TaskRecord.inState])
      apply hpromotes.forall hmid
      intro u now hu hpending
      exact hu.congr rfl rfl fun _ => .inl hpending
  | @failed i _ _ r hr _ _ =>
      apply h.set
      exact (h i r hr).congr rfl rfl (by simp [TaskRecord.broken, TaskRecord.inState])
  | retried _ _ hmore =>
      apply h.set
      exact .of_lt hmore
  | @cancelled i _ r hr _ =>
      apply h.set
      exact (h i r hr).congr rfl rfl (by simp [TaskRecord.inState])
  | @paused i _ r hr _ =>
      apply h.set
      exact (h i r hr).congr rfl rfl (by simp [TaskRecord.inState])
  | @resumed i _ r hr hcan =>
      apply h.set
      intro hmax
      have hlt := hop r hr hcan hmax
      exact ⟨UInt32.le_of_lt hlt, fun _ => hlt⟩

/-! ## The counter of one task -/

/-- The index has a record of the task with the same policy and counter. -/
def TaskRecord.Kept (r : TaskRecord) (id : TaskId) (x : TaskIndex) : Prop :=
  ∃ r', x.get id = some r' ∧ r'.spec = r.spec ∧ r'.attempt = r.attempt

theorem TaskRecord.Kept.set {r u v : TaskRecord} {j : TaskId} (h : r.Kept id x)
    (hu : x.get j = some u) (hspec : v.spec = u.spec) (hattempt : v.attempt = u.attempt) :
    r.Kept id (x.set j v) := by
  obtain ⟨r', hr', hspec', hattempt'⟩ := h
  by_cases hid : id = j
  · subst hid
    rw [hr'] at hu
    cases hu
    refine ⟨v, TaskIndex.get_set_self _ _ _, ?_, ?_⟩
    · rw [hspec, hspec']
    · rw [hattempt, hattempt']
  · refine ⟨r', ?_, hspec', hattempt'⟩
    rw [TaskIndex.get_set_of_ne _ _ hid, hr']

theorem TaskRecord.Kept.push {r : TaskRecord} {j : TaskId} (h : r.Kept id x)
    (hnew : x.get j = none) (spec : TaskSpec) (now : UInt64) : r.Kept id (x.push j spec now) := by
  obtain ⟨r', hr', hsame⟩ := h
  refine ⟨r', ?_, hsame⟩
  rw [TaskIndex.get_push, if_neg]
  · exact hr'
  · rintro rfl
    rw [hnew] at hr'
    cases hr'

theorem Promotes.keepsCounters {m t : TaskScheduler} (hp : Promotes m t) {r : TaskRecord}
    (h : r.Kept id m.index) : r.Kept id t.index := by
  obtain ⟨r', hr', hsame⟩ := h
  by_cases hpromotable : m.Promotable r'
  · obtain ⟨now, hget⟩ := hp.moved id r' hr' hpromotable
    exact ⟨_, hget, hsame⟩
  · refine ⟨r', ?_, hsame⟩
    rw [hp.kept id, hr']
    intro u hu
    rw [hr'] at hu
    cases hu
    exact hpromotable

theorem Rewrites.kept (he : Rewrites s op answer x) {r : TaskRecord}
    (hr : s.index.get id = some r) (hhand : answer.handedOut ≠ some id)
    (hx : s.index.WellFormed) : r.Kept id x := by
  have h : r.Kept id s.index := ⟨r, hr, rfl, rfl⟩
  cases he with
  | quota => exact h
  | refused _ _ => exact h
  | registered hnew => exact h.push hnew _ _
  | queued hnew _ =>
      apply (h.push hnew _ _).set
      · rw [TaskIndex.get_push, if_pos rfl]
      · rfl
      · rfl
  | @handed _ now i u lease hu _ _ =>
      refine ⟨r, ?_, rfl, rfl⟩
      rw [TaskIndex.get_set_of_ne, hr]
      rintro rfl
      apply hhand
      have hkey : u.taskId = id := hx.keyed hu
      exact congrArg some hkey
  | renewed hu _ => exact h.set hu rfl rfl
  | completed hu _ hm hpromotes =>
      apply hpromotes.keepsCounters
      rw [hm]
      exact h.set hu rfl rfl
  | failed hu _ _ => exact h.set hu rfl rfl
  | retried hu _ _ => exact h.set hu rfl rfl
  | cancelled hu _ => exact h.set hu rfl rfl
  | paused hu _ => exact h.set hu rfl rfl
  | resumed hu _ => exact h.set hu rfl rfl

/-! ## The runs -/

/-- The limits hold, and the work of the task has been started `n` times at most by the
counter. -/
structure Started (id : TaskId) (s : TaskScheduler) (n : ℕ) : Prop where
  index : s.index.WellFormed
  limits : s.index.Forall TaskRecord.WithinLimit
  fresh : s.index.get id = none → n = 0
  counted : ∀ r, s.index.get id = some r → 1 ≤ r.spec.retryPolicy.maxAttempts →
    n ≤ r.attempt.toNat

theorem Started.step {n : ℕ} (h : Started id s n) {json : RecordJson}
    (hop : Call.SparesAttempts json s (.op op)) :
    Started id (s.step op).2
      (n + (starts id s (.op op) (.answer (s.step op).1) (s.step op).2).toNat) := by
  have he := step_rewrites h.index op
  by_cases hhand : (s.step op).1.handedOut = some id
  · obtain ⟨r, lease, now, hr, hqueued, hindex⟩ := he.handedOut h.index hhand
    have hget : (s.step op).2.index.get id = some (r.started lease now) := by
      rw [hindex, TaskIndex.get_set_self]
    have hone : starts id s (.op op) (.answer (s.step op).1) (s.step op).2 = true :=
      decide_eq_true hhand
    rw [hone]
    refine ⟨he.wellFormed h.index, he.withinLimit h.limits hop, ?_, ?_⟩
    · intro hnone
      rw [hget] at hnone
      cases hnone
    · intro r' hr' hmax
      rw [hget] at hr'
      cases hr'
      have hlt := (h.limits id r hr hmax).2 (.inr hqueued)
      have hcount := h.counted r hr hmax
      change n + 1 ≤ (r.attempt + 1).toNat
      rw [toNat_add_one_of_lt hlt]
      exact Nat.add_le_add_right hcount 1
  · have hzero : starts id s (.op op) (.answer (s.step op).1) (s.step op).2 = false :=
      decide_eq_false hhand
    rw [hzero]
    refine ⟨he.wellFormed h.index, he.withinLimit h.limits hop, ?_, ?_⟩
    · intro hnone
      apply h.fresh
      by_contra hsome
      obtain ⟨r, hr⟩ := Option.ne_none_iff_exists'.mp hsome
      obtain ⟨r', hr', -⟩ := he.kept hr hhand h.index
      rw [hnone] at hr'
      cases hr'
    · intro r' hr' hmax
      cases hget : s.index.get id with
      | none => exact (h.fresh hget).le.trans (Nat.zero_le _)
      | some r =>
          obtain ⟨u, hu, hspec, hattempt⟩ := he.kept hget hhand h.index
          rw [hr'] at hu
          cases hu
          rw [hattempt]
          exact h.counted r hget (hspec ▸ hmax)

theorem Started.restoreOne {n : ℕ} (h : Started id s n) {r : TaskRecord}
    (hr : s.index.get r.taskId = none → r.WithinLimit) : Started id (s.restoreOne r) n := by
  refine ⟨wellFormed_restoreOne h.index r, (forall_restoreOne_iff r).mpr ⟨h.limits, hr⟩, ?_, ?_⟩
  · intro hnone
    rw [get_restoreOne, Option.or_eq_none_iff] at hnone
    exact h.fresh hnone.1
  · intro u hu hmax
    rw [get_restoreOne] at hu
    cases hget : s.index.get id with
    | some v =>
        rw [hget, Option.some_or] at hu
        exact h.counted u (hget.trans hu) hmax
    | none =>
        rw [h.fresh hget]
        exact Nat.zero_le _

theorem Started.stepCall {n : ℕ} (h : Started id s n) {json : RecordJson} {call : Call}
    (hcall : call.SparesAttempts json s) :
    Started id (stepCall json s call).2
      (n + (starts id s call (Scheduler.stepCall json s call).1
        (Scheduler.stepCall json s call).2).toNat) := by
  cases call with
  | op op => exact h.step hcall
  | restore text =>
      change Started id (s.restore json text).2 n
      unfold TaskScheduler.restore
      cases hread : json.fromStr text with
      | error e => exact h
      | ok records =>
          have hrecords := hcall records hread
          clear hcall hread
          change Started id (s.restoreRecords records) n
          induction records generalizing s with
          | nil => exact h
          | cons r records ih => exact ih (h.restoreOne hrecords.1) hrecords.2

theorem started_new (id : TaskId) (dim : DimensionId) (policy : PreemptionPolicy)
    (leaseMs : UInt64) : Started id (TaskScheduler.new dim policy leaseMs) 0 where
  index := TaskIndex.wellFormed_new
  limits := by
    intro i r hr
    rw [TaskScheduler.new, TaskIndex.get_new] at hr
    cases hr
  fresh _ := rfl
  counted _ _ _ := Nat.zero_le _

/-- In every run that resumes no task without an attempt left, the counter of every task stays
within its policy, and its work is not started more often than the policy says. -/
theorem attempts_bounded_along (json : RecordJson) (dim : DimensionId)
    (policy : PreemptionPolicy) (leaseMs : UInt64) (calls : List Call)
    (hcalls : Along (fun s call => call.SparesAttempts json s) (stepCall json)
      (TaskScheduler.new dim policy leaseMs) calls) (id : TaskId) (r : TaskRecord)
    (hr : (final (stepCall json) (TaskScheduler.new dim policy leaseMs) calls).index.get id =
      some r)
    (hmax : 1 ≤ r.spec.retryPolicy.maxAttempts) :
    r.attempt ≤ r.spec.retryPolicy.maxAttempts ∧
      tally (starts id) (stepCall json) (TaskScheduler.new dim policy leaseMs) calls ≤
        r.spec.retryPolicy.maxAttempts.toNat := by
  have h : Started id (final (stepCall json) (TaskScheduler.new dim policy leaseMs) calls)
      (0 + tally (starts id) (stepCall json) (TaskScheduler.new dim policy leaseMs) calls) :=
    invariant_tally (Started id) (fun _ _ _ h hcall => h.stepCall hcall)
      (started_new id dim policy leaseMs) hcalls
  have hle := (h.limits id r hr hmax).1
  refine ⟨hle, ?_⟩
  have hcount := h.counted r hr hmax
  rw [Nat.zero_add] at hcount
  exact hcount.trans (UInt32.le_iff_toNat_le.mp hle)

/-- A task with `attempts` attempts is handed out, paused, resumed and handed out again. -/
def pausedCalls (attempts : UInt32) : List Call :=
  [.op (.submit 1 { TaskSpec.new 7 "http.request" "fetch" with
      retryPolicy := { RetryPolicy.default with maxAttempts := attempts } } fun _ => 10),
   .op (.nextReady "worker-1" fun _ => 20),
   .op (.pause 1 fun _ => 30),
   .op (.resume 1 fun _ => 40),
   .op (.nextReady "worker-2" fun _ => 50)]

def pausedRun (json : RecordJson) (attempts : UInt32) : TaskScheduler :=
  final (stepCall json) (TaskScheduler.new 1 .none 5000) (pausedCalls attempts)

/-- The second of two attempts follows a pause. -/
theorem attempts_bounded_along_paused :
    ∃ r, (pausedRun (sampleJson 0) 2).index.get 1 = some r ∧ r.attempt = 2 ∧ r.attempt ≤ 2 ∧
      tally (starts 1) (stepCall (sampleJson 0)) (TaskScheduler.new 1 .none 5000)
        (pausedCalls 2) ≤ 2 := by
  have hlast : ((pausedRun (sampleJson 0) 2).index.get 1).map
      (fun r => (r.attempt, r.spec.retryPolicy.maxAttempts)) = some (2, 2) := by
    decide
  obtain ⟨r, hr, hcounters⟩ := Option.map_eq_some_iff.mp hlast
  obtain ⟨hattempt, hmax⟩ := Prod.mk.inj hcounters
  have hbound := attempts_bounded_along (sampleJson 0) 1 .none 5000 (pausedCalls 2) (by
    refine ⟨trivial, trivial, trivial, ?_, trivial, trivial⟩
    intro u hu _ _
    have hresumed : ((final (stepCall (sampleJson 0)) (TaskScheduler.new 1 .none 5000)
        ((pausedCalls 2).take 3)).index.get 1).map
          (fun r => decide (r.attempt < r.spec.retryPolicy.maxAttempts)) = some true := by
      decide
    obtain ⟨v, hv, hlt⟩ := Option.map_eq_some_iff.mp hresumed
    have huv : u = v := Option.some.inj (hu.symm.trans hv)
    subst huv
    exact of_decide_eq_true hlt) 1 r hr (by
      rw [hmax]
      decide)
  rw [hmax] at hbound
  exact ⟨r, hr, hattempt, hbound⟩

/-- The only attempt is paused and resumed, and the work is started again. -/
theorem attempts_exceeded :
    ¬ ∀ (calls : List Call) (id : TaskId) (r : TaskRecord),
      (final (stepCall (sampleJson 0)) (TaskScheduler.new 1 .none 5000) calls).index.get id =
          some r →
        1 ≤ r.spec.retryPolicy.maxAttempts →
          r.attempt ≤ r.spec.retryPolicy.maxAttempts ∧
            tally (starts id) (stepCall (sampleJson 0)) (TaskScheduler.new 1 .none 5000) calls ≤
              r.spec.retryPolicy.maxAttempts.toNat := by
  intro h
  have hlast : ((pausedRun (sampleJson 0) 1).index.get 1).map
      (fun r => (r.attempt, r.spec.retryPolicy.maxAttempts)) = some (2, 1) := by
    decide
  obtain ⟨r, hr, hcounters⟩ := Option.map_eq_some_iff.mp hlast
  obtain ⟨hattempt, hmax⟩ := Prod.mk.inj hcounters
  obtain ⟨hle, -⟩ := h (pausedCalls 1) 1 r hr (by
    rw [hmax]
    decide)
  rw [hattempt, hmax] at hle
  exact absurd hle (by decide)

end Scheduler

end InfinityOS
