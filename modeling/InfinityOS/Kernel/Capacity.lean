import InfinityOS.Kernel.Completion

/-!
# The capacity of the scheduler

`ify_scheduler_submit` refuses a task when the task array is full. No way in which a task
ends gives its slot back, so what fills the array is every task that was ever accepted. The
statements are about any number of threads that share a scheduler; a slot is then lost for
all of them.
-/

namespace InfinityOS

namespace Kernel

variable {F A μ : Type*}

/-- The task is neither finished nor cancelled. -/
def TaskEntry.Live (t : TaskEntry F A) : Prop :=
  t.state ≠ .completed ∧ t.state ≠ .failed ∧ t.state ≠ .cancelled

instance (t : TaskEntry F A) : Decidable t.Live :=
  inferInstanceAs (Decidable (_ ∧ _))

namespace Scheduler

variable {s : Scheduler F A} {c : Choice} {fn : Option F}

def liveCount (s : Scheduler F A) : ℕ :=
  s.tasks.countP fun t => decide t.Live

/-- The status with which `ify_scheduler_submit` refuses a task, if it does. -/
def refusal (s : Scheduler F A) (c : Choice) (fn : Option F) : Option StatusCode :=
  match fn with
  | none => some errInvalidArg
  | some _ =>
      if schedMaxTasks ≤ s.tasks.length then some errOverflow
      else if c.allocated = false then some errOutOfMemory
      else none

theorem refusal_eq_overflow_iff :
    s.refusal c fn = some errOverflow ↔ fn ≠ none ∧ schedMaxTasks ≤ s.tasks.length := by
  cases fn with
  | none => simp [refusal, errInvalidArg, errOverflow]
  | some fn =>
      by_cases hfull : schedMaxTasks ≤ s.tasks.length
      · simp [refusal, hfull]
      · cases hc : c.allocated with
        | false => simp [refusal, hfull, hc, errOutOfMemory, errOverflow]
        | true => simp [refusal, hfull, hc]

/-- Where a submission answers with the overflow status, as many tasks as the array can hold
are live. -/
def OverflowJustified (s : Scheduler F A) (c : Choice) (fn : Option F) : Prop :=
  s.refusal c fn = some errOverflow → s.liveCount = schedMaxTasks

/-- No task of a full array has ended. -/
def Unspent (s : Scheduler F A) (fn : Option F) : Prop :=
  fn ≠ none → schedMaxTasks ≤ s.tasks.length → ∀ t ∈ s.tasks, t.Live

theorem overflowJustified_iff (hbound : s.tasks.length ≤ schedMaxTasks) :
    s.OverflowJustified c fn ↔ s.Unspent fn := by
  have hlive (hfull : schedMaxTasks ≤ s.tasks.length) :
      s.liveCount = schedMaxTasks ↔ ∀ t ∈ s.tasks, t.Live := by
    rw [← le_antisymm hbound hfull, liveCount, List.countP_eq_length]
    simp
  unfold OverflowJustified Unspent
  rw [refusal_eq_overflow_iff]
  constructor
  · intro h hfn hfull
    exact (hlive hfull).mp (h ⟨hfn, hfull⟩)
  · rintro h ⟨hfn, hfull⟩
    exact (hlive hfull).mpr (h hfn hfull)

end Scheduler

namespace Machine

variable {code : F → KernelTaskId → A → Prog F A μ} {m m' : Machine F A μ}

section Steps

variable (code : F → KernelTaskId → A → Prog F A μ) (c : Choice)

theorem step_submitted {f : F} {arg : A} {priority : UInt8} {out : KernelTaskId → μ → μ}
    {next : StatusCode → Prog F A μ}
    (hcontrol : m.control = .exec (.submit (some f) arg priority out next))
    (hroom : m.sched.tasks.length < schedMaxTasks) (hc : c.allocated = true) :
    ∃ m', m.step code c = some m' ∧ m'.control = .drain next ∧ m'.stack = m.stack ∧
      m'.sched =
        (m.sched.register c.clock f arg priority).enqueue m.sched.tasks.length priority := by
  refine ⟨m.submit c (some f) arg priority out next, ?_⟩
  simp [step, hcontrol, submit, not_le.mpr hroom, hc]

theorem step_started {next : StatusCode → Prog F A μ} {i : ℕ} {s : Scheduler F A}
    {t : TaskEntry F A} (hcontrol : m.control = .drain next)
    (hrunning : m.sched.runningCount < m.sched.maxConcurrent)
    (hpop : m.sched.dequeueHighest = some (i, s)) (ht : s.tasks[i]? = some t)
    (hflag : t.cancelFlag = false) :
    ∃ m', m.step code c = some m' ∧ m'.control = .exec (code t.fn t.id t.arg) ∧
      m'.stack = ⟨i, next⟩ :: m.stack ∧
      m'.sched = { s.setState i .running with runningCount := s.runningCount + 1 } := by
  simp [step, hcontrol, drainQueue, hrunning, hpop, ht, hflag, Scheduler.setState]

theorem step_left {next : StatusCode → Prog F A μ} (hcontrol : m.control = .drain next)
    (hpop : m.sched.dequeueHighest = none) :
    ∃ m', m.step code c = some m' ∧ m'.control = .exec (next ifyOk) ∧ m'.stack = m.stack ∧
      m'.sched = m.sched := by
  simp [step, hcontrol, drainQueue, hpop]

theorem step_returned {rc : StatusCode} {frame : Frame F A μ} {stack : List (Frame F A μ)}
    (hcontrol : m.control = .exec (.ret rc))
    (hstack : m.stack = frame :: stack) :
    ∃ m', m.step code c = some m' ∧ m'.control = .drain frame.next ∧ m'.stack = stack ∧
      m'.sched =
        { m.sched with runningCount := m.sched.runningCount - 1 }.setState frame.task
          (if rc = ifyOk then .completed else .failed) := by
  simp [step, hcontrol, hstack, resume]

end Steps

def accepts (m : Machine F A μ) (c : Choice) : Bool :=
  match m.control with
  | .exec (.submit fn _ _ _ _) => (m.sched.refusal c fn).isNone
  | _ => false

theorem tasks_length_submit (m : Machine F A μ) (c : Choice) (fn : Option F) (arg : A)
    (priority : UInt8) (out : KernelTaskId → μ → μ) (next : StatusCode → Prog F A μ) :
    (m.submit c fn arg priority out next).sched.tasks.length =
      m.sched.tasks.length + (m.sched.refusal c fn).isNone.toNat := by
  cases fn with
  | none => rfl
  | some fn =>
      unfold submit Scheduler.refusal
      dsimp only
      split
      · rfl
      · split
        · rfl
        · simp [Scheduler.enqueue, Scheduler.register]

theorem tasks_length_drainQueue {next : StatusCode → Prog F A μ}
    (h : m.drainQueue code next = some m') :
    m'.sched.tasks.length = m.sched.tasks.length := by
  unfold drainQueue at h
  split at h
  · cases hpop : m.sched.dequeueHighest with
    | none =>
        rw [hpop] at h
        cases h
        rfl
    | some popped =>
        obtain ⟨i, s⟩ := popped
        obtain ⟨p, queues, -, rfl⟩ := Scheduler.popped_of_dequeueHighest hpop
        rw [hpop] at h
        dsimp only at h
        split at h
        · cases h
        · split at h
          · cases h
            exact List.length_modify _ _ _
          · cases h
            exact List.length_modify _ _ _
  · cases h
    rfl

theorem tasks_length_of_step {c : Choice} (h : m.step code c = some m') :
    m'.sched.tasks.length = m.sched.tasks.length + (m.accepts c).toNat := by
  unfold step at h
  unfold accepts
  cases hcontrol : m.control with
  | drain next =>
      rw [hcontrol] at h
      exact tasks_length_drainQueue h
  | exec p =>
      rw [hcontrol] at h
      cases p with
      | ret rc =>
          cases hstack : m.stack with
          | nil =>
              rw [hstack] at h
              cases h
          | cons frame stack =>
              rw [hstack] at h
              cases h
              exact List.length_modify _ _ _
      | submit fn arg priority out next =>
          cases h
          exact tasks_length_submit m c fn arg priority out next
      | cancel id next =>
          cases h
          exact (m.sched.cancel_frame id).2.2.2
      | state id next =>
          cases h
          rfl
      | read next =>
          cases h
          rfl
      | write memory next =>
          cases h
          rfl

theorem length_lt_of_accepts {c : Choice} (h : m.accepts c = true) :
    m.sched.tasks.length < schedMaxTasks := by
  unfold accepts at h
  split at h
  · next fn _ _ _ _ _ =>
    by_contra hfull
    cases fn with
    | none => cases h
    | some fn => simp [Scheduler.refusal, not_lt.mp hfull] at h
  · cases h

end Machine

/-! ## Threads that share a scheduler -/

/-- Every thread has a control and a stack of its own, as in `Machine`. -/
structure Threads (ι F A μ : Type*) where
  sched : Scheduler F A
  memory : μ
  control : ι → Control F A μ
  stack : ι → List (Frame F A μ)
  called : List ℕ
  withdrawn : List ℕ

namespace Threads

variable {ι : Type*}

def start (maxConcurrent : UInt32) (main : ι → Prog F A μ) (memory : μ) : Threads ι F A μ where
  sched := Scheduler.create maxConcurrent
  memory := memory
  control i := .exec (main i)
  stack _ := []
  called := []
  withdrawn := []

/-- What the thread `i` works on. -/
def machine (t : Threads ι F A μ) (i : ι) : Machine F A μ where
  sched := t.sched
  memory := t.memory
  control := t.control i
  stack := t.stack i
  called := t.called
  withdrawn := t.withdrawn

variable [DecidableEq ι]

/-- The thread `i` has worked, and is now in the state `m`. -/
def update (t : Threads ι F A μ) (i : ι) (m : Machine F A μ) : Threads ι F A μ where
  sched := m.sched
  memory := m.memory
  control := Function.update t.control i m.control
  stack := Function.update t.stack i m.stack
  called := m.called
  withdrawn := m.withdrawn

/-- One thread makes a step. Between the calls of task functions a submission holds the lock,
so the code allows fewer orders than this relation. -/
def step (code : F → KernelTaskId → A → Prog F A μ) (t : Threads ι F A μ) (l : ι × Choice) :
    Option (Threads ι F A μ) :=
  ((t.machine l.1).step code l.2).map (t.update l.1)

/-- Where the step is a submission, `P` holds of the scheduler, of what the environment
answers and of the function that is submitted. -/
def AtSubmit (P : Scheduler F A → Choice → Option F → Prop) (t : Threads ι F A μ)
    (l : ι × Choice) : Prop :=
  ∀ fn arg priority out next, t.control l.1 = .exec (.submit fn arg priority out next) →
    P t.sched l.2 fn

variable {code : F → KernelTaskId → A → Prog F A μ} {t t' : Threads ι F A μ}

theorem tasks_length_le_of_step {l : ι × Choice} (h : t.step code l = some t')
    (hbound : t.sched.tasks.length ≤ schedMaxTasks) :
    t'.sched.tasks.length ≤ schedMaxTasks := by
  obtain ⟨m, hstep, rfl⟩ := Option.map_eq_some_iff.mp h
  have hlength : m.sched.tasks.length =
      t.sched.tasks.length + ((t.machine l.1).accepts l.2).toNat :=
    Machine.tasks_length_of_step hstep
  change m.sched.tasks.length ≤ schedMaxTasks
  rw [hlength]
  cases haccepts : (t.machine l.1).accepts l.2 with
  | false => exact hbound
  | true => exact Machine.length_lt_of_accepts haccepts

/-- The submissions that are accepted in a run. -/
def acceptedCount (code : F → KernelTaskId → A → Prog F A μ) :
    Threads ι F A μ → List (ι × Choice) → ℕ
  | _, [] => 0
  | t, l :: ls =>
      ((t.step code l).isSome && (t.machine l.1).accepts l.2).toNat +
        acceptedCount code ((t.step code l).getD t) ls

theorem tasks_length_follow (code : F → KernelTaskId → A → Prog F A μ) (t : Threads ι F A μ)
    (steps : List (ι × Choice)) :
    (Transition.follow (step code) t steps).sched.tasks.length =
      t.sched.tasks.length + acceptedCount code t steps := by
  induction steps generalizing t with
  | nil => rfl
  | cons l steps ih =>
      rw [Transition.follow, ih, acceptedCount, ← Nat.add_assoc]
      congr 1
      cases hstep : t.step code l with
      | none => rfl
      | some t' =>
          obtain ⟨m, hm, rfl⟩ := Option.map_eq_some_iff.mp hstep
          exact Machine.tasks_length_of_step hm

/-- In a run of any threads, the overflow statuses are justified exactly where no submission
finds a full array with a task that has ended. -/
theorem overflowJustified_along_iff (code : F → KernelTaskId → A → Prog F A μ)
    (maxConcurrent : UInt32) (main : ι → Prog F A μ) (memory : μ) (steps : List (ι × Choice)) :
    Transition.Admitted (step code) (AtSubmit fun s c fn => s.OverflowJustified c fn)
        (start maxConcurrent main memory) steps ↔
      Transition.Admitted (step code) (AtSubmit fun s _ fn => s.Unspent fn)
        (start maxConcurrent main memory) steps := by
  apply Transition.admitted_congr fun t => t.sched.tasks.length ≤ schedMaxTasks
  · intro t l t' hbound hstep
    exact tasks_length_le_of_step hstep hbound
  · intro t l hbound
    unfold AtSubmit
    simp only [Scheduler.overflowJustified_iff hbound]
  · exact Nat.zero_le _

/-- One thread that works alone. -/
def single (m : Machine F A μ) : Threads Unit F A μ where
  sched := m.sched
  memory := m.memory
  control _ := m.control
  stack _ := m.stack
  called := m.called
  withdrawn := m.withdrawn

theorem start_single (maxConcurrent : UInt32) (main : Prog F A μ) (memory : μ) :
    start maxConcurrent (fun _ => main) memory =
      single (Machine.start maxConcurrent main memory) := rfl

theorem step_single (code : F → KernelTaskId → A → Prog F A μ) (m : Machine F A μ)
    (c : Choice) : (single m).step code ((), c) = (m.step code c).map single := by
  have hupdate : (single m).update () = single := by
    funext m'
    simp only [update, single, Function.update_eq_const_of_subsingleton]
    rfl
  unfold step
  rw [hupdate]
  rfl

end Threads

/-! ## A table full of finished tasks -/

/-- A task that completes at once. -/
def floodCode : Unit → KernelTaskId → Unit → Prog Unit Unit Unit :=
  fun _ _ _ => .ret ifyOk

/-- The program submits one task after the other. -/
def flood : ℕ → Prog Unit Unit Unit
  | 0 => .ret ifyOk
  | n + 1 => .submit (some ()) () 0 (fun _ memory => memory) fun _ => flood n

/-- The clock stands still, and there is always memory. -/
def floodChoice : Choice := ⟨0, true⟩

/-- Of the program `n` submissions are left, and the tasks of the `k` made are completed. -/
structure Flooded (n k : ℕ) (m : Machine Unit Unit Unit) : Prop where
  control : m.control = .exec (flood n)
  stack : m.stack = []
  limit : m.sched.maxConcurrent = 1
  running : m.sched.runningCount = 0
  queues : ∀ p, m.sched.queues p = []
  length : m.sched.tasks.length = k
  ended : ∀ t ∈ m.sched.tasks, t.state = .completed

theorem modify_concat_length {α : Type*} (l : List α) (a : α) (f : α → α) :
    (l ++ [a]).modify l.length f = l ++ [f a] := by
  rw [List.modify_eq_take_drop, List.take_left, List.drop_left]
  rfl

theorem Flooded.round {n k : ℕ} {m : Machine Unit Unit Unit} (h : Flooded (n + 1) k m)
    (hk : k < schedMaxTasks) :
    Flooded n (k + 1)
      (Transition.follow (Machine.step floodCode) m (List.replicate 4 floodChoice)) := by
  have hroom : m.sched.tasks.length < schedMaxTasks := by
    rw [h.length]
    exact hk
  obtain ⟨queues, hpop, hempty⟩ :=
    LevelQueue.pop_push_of_empty h.queues (level 0) m.sched.tasks.length
  obtain ⟨m₁, hstep₁, hcontrol₁, hstack₁, hsched₁⟩ :=
    Machine.step_submitted floodCode floodChoice h.control hroom rfl
  obtain ⟨t, htasks₁, hflag⟩ :
      ∃ t, m₁.sched.tasks = m.sched.tasks ++ [t] ∧ t.cancelFlag = false := by
    rw [hsched₁]
    exact ⟨_, rfl, rfl⟩
  have hrunning₁ : m₁.sched.runningCount = 0 := by
    rw [hsched₁]
    exact h.running
  have hlimit₁ : m₁.sched.maxConcurrent = 1 := by
    rw [hsched₁]
    exact h.limit
  have hpop₁ : m₁.sched.dequeueHighest =
      some (m.sched.tasks.length, { m₁.sched with queues := queues }) := by
    rw [hsched₁]
    simp [Scheduler.dequeueHighest, Scheduler.enqueue, Scheduler.register, hpop]
  have hentry : m₁.sched.tasks[m.sched.tasks.length]? = some t := by
    rw [htasks₁]
    exact List.getElem?_concat_length
  have hlt : m₁.sched.runningCount < m₁.sched.maxConcurrent := by
    rw [hrunning₁, hlimit₁]
    decide
  obtain ⟨m₂, hstep₂, hcontrol₂, hstack₂, hsched₂⟩ :=
    Machine.step_started floodCode floodChoice hcontrol₁ hlt hpop₁ hentry hflag
  obtain ⟨m₃, hstep₃, hcontrol₃, hstack₃, hsched₃⟩ :=
    Machine.step_returned floodCode floodChoice hcontrol₂ hstack₂
  have hafter : m₃.sched =
      { m₁.sched with
        queues := queues
        tasks := m.sched.tasks ++ [{ t with state := .completed }] } := by
    simp [hsched₃, hsched₂, Scheduler.setState, htasks₁, modify_concat_length]
  have hpop₃ : m₃.sched.dequeueHighest = none := by
    simp [hafter, Scheduler.dequeueHighest, LevelQueue.pop_of_empty hempty]
  obtain ⟨m₄, hstep₄, hcontrol₄, hstack₄, hsched₄⟩ :=
    Machine.step_left floodCode floodChoice hcontrol₃ hpop₃
  have hfollow : Transition.follow (Machine.step floodCode) m (List.replicate 4 floodChoice) =
      m₄ := by
    simp only [List.replicate, Transition.follow, hstep₁, hstep₂, hstep₃, hstep₄,
      Option.getD_some]
  rw [hfollow]
  rw [hafter] at hsched₄
  constructor
  · exact hcontrol₄
  · rw [hstack₄, hstack₃, hstack₁, h.stack]
  · rw [hsched₄]
    exact hlimit₁
  · rw [hsched₄]
    exact hrunning₁
  · rw [hsched₄]
    exact hempty
  · simp [hsched₄, h.length]
  · intro u hu
    rw [hsched₄] at hu
    rcases List.mem_append.mp hu with hu | hu
    · exact h.ended u hu
    · rw [List.mem_singleton.mp hu]

theorem flooded_follow (n k : ℕ) (hk : k ≤ schedMaxTasks) :
    Flooded n k
      (Transition.follow (Machine.step floodCode) (Machine.start 1 (flood (n + k)) ())
        (List.replicate (4 * k) floodChoice)) := by
  induction k generalizing n with
  | zero =>
      constructor
      · rfl
      · rfl
      · rfl
      · rfl
      · exact fun _ => rfl
      · rfl
      · exact fun _ ht => nomatch ht
  | succ k ih =>
      have hround := (ih (n + 1) (Nat.le_of_succ_le hk)).round hk
      rw [← Transition.follow_append, ← List.replicate_add, Nat.add_right_comm] at hround
      exact hround

theorem Flooded.liveCount {n k : ℕ} {m : Machine Unit Unit Unit} (h : Flooded n k m) :
    m.sched.liveCount = 0 := by
  rw [Scheduler.liveCount, List.countP_eq_zero]
  intro t ht
  simp [TaskEntry.Live, h.ended t ht]

/-- A submission is refused with the overflow status where no task is live. -/
theorem finished_tasks_fill_table :
    ¬ ∀ steps : List (Unit × Choice),
        Transition.Admitted (Threads.step floodCode)
          (Threads.AtSubmit fun s c fn => s.OverflowJustified c fn)
          (Threads.start 1 (fun _ => flood (1 + schedMaxTasks)) ()) steps := by
  intro h
  obtain ⟨cs, hflooded⟩ : ∃ cs, Flooded 1 schedMaxTasks
      (Transition.follow (Machine.step floodCode)
        (Machine.start 1 (flood (1 + schedMaxTasks)) ()) cs) :=
    ⟨_, flooded_follow 1 schedMaxTasks le_rfl⟩
  have hrun := Transition.follow_map Threads.single (fun c => ((), c))
    (Threads.step_single floodCode) (Machine.start 1 (flood (1 + schedMaxTasks)) ()) cs
  have hlast := (Transition.admitted_append.mp (h (cs.map (((), ·)) ++ [((), floodChoice)]))).2.1
  rw [Threads.start_single, hrun] at hlast
  have hcount := hlast _ _ _ _ _ hflooded.control
    (Scheduler.refusal_eq_overflow_iff.mpr ⟨Option.some_ne_none _, hflooded.length.ge⟩)
  exact absurd (hflooded.liveCount.symm.trans hcount) (by decide)

end Kernel

end InfinityOS
