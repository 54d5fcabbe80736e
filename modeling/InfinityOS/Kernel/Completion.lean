import InfinityOS.Core.Types
import InfinityOS.Kernel.TaskTable

/-!
# Run to completion

What holds in every state of a run of the scheduler, at every depth of the stack: as many
tasks run as there are loops that wait, a task function is called once, and the queues are
empty whenever the outermost code goes on. Every run ends, since a submission uses up a
slot of the task array, a dequeue an entry of the queues, and a return a loop of the stack.
-/

namespace InfinityOS

namespace Kernel

namespace Machine

variable {F A μ : Type*} {code : F → KernelTaskId → A → Prog F A μ}

inductive Below : Control F A μ → Control F A μ → Prop where
  | submit (fn : Option F) (arg : A) (priority : UInt8) (out : KernelTaskId → μ → μ)
      (next : StatusCode → Prog F A μ) (rc : StatusCode) :
      Below (.exec (next rc)) (.exec (.submit fn arg priority out next))
  | cancel (id : KernelTaskId) (next : StatusCode → Prog F A μ) (rc : StatusCode) :
      Below (.exec (next rc)) (.exec (.cancel id next))
  | state (id : KernelTaskId) (next : StatusCode × Option TaskState → Prog F A μ)
      (answer : StatusCode × Option TaskState) :
      Below (.exec (next answer)) (.exec (.state id next))
  | read (next : μ → Prog F A μ) (memory : μ) : Below (.exec (next memory)) (.exec (.read next))
  | write (memory : μ) (next : Prog F A μ) : Below (.exec next) (.exec (.write memory next))
  | drain (next : StatusCode → Prog F A μ) (rc : StatusCode) :
      Below (.exec (next rc)) (.drain next)

theorem acc_exec (p : Prog F A μ) : Acc Below (Control.exec p) := by
  induction p with
  | ret rc =>
      apply Acc.intro
      intro control h
      cases h
  | submit fn arg priority out next ih =>
      apply Acc.intro
      intro control h
      cases h with
      | submit _ _ _ _ _ rc => exact ih rc
  | cancel id next ih =>
      apply Acc.intro
      intro control h
      cases h with
      | cancel _ _ rc => exact ih rc
  | state id next ih =>
      apply Acc.intro
      intro control h
      cases h with
      | state _ _ answer => exact ih answer
  | read next ih =>
      apply Acc.intro
      intro control h
      cases h with
      | read _ memory => exact ih memory
  | write memory next ih =>
      apply Acc.intro
      intro control h
      cases h
      exact ih

theorem wellFounded_below : WellFounded (Below (F := F) (A := A) (μ := μ)) := by
  constructor
  intro control
  cases control with
  | exec p => exact acc_exec p
  | drain next =>
      apply Acc.intro
      intro control h
      cases h with
      | drain _ rc => exact acc_exec (next rc)

/-! ## What a step can do -/

/-- The states after one step of `m`. -/
inductive Effect (code : F → KernelTaskId → A → Prog F A μ) (m : Machine F A μ) :
    Machine F A μ → Prop where
  | moved {p p' : Prog F A μ} (memory : μ) (hcontrol : m.control = .exec p)
      (hbelow : Below (.exec p') m.control) :
      Effect code m { m with memory := memory, control := .exec p' }
  | submitted (now : Word) (fn : F) (arg : A) (priority : UInt8) (memory : μ)
      (next : StatusCode → Prog F A μ) (hroom : m.sched.tasks.length < schedMaxTasks) :
      Effect code m
        { m with
          sched := (m.sched.register now fn arg priority).enqueue m.sched.tasks.length priority
          memory := memory
          control := .drain next }
  | cancelled (id : KernelTaskId) {p p' : Prog F A μ} (hcontrol : m.control = .exec p)
      (hbelow : Below (.exec p') m.control) :
      Effect code m
        { m with
          sched := (m.sched.cancel id).2
          control := .exec p'
          withdrawn := m.sched.withdrawn id ++ m.withdrawn }
  | returned (rc : StatusCode) {frame : Frame F A μ} {stack : List (Frame F A μ)}
      (hstack : m.stack = frame :: stack) : Effect code m (m.resume rc frame stack)
  | left (next : StatusCode → Prog F A μ) (hcontrol : m.control = .drain next)
      (hleave : m.sched.runningCount < m.sched.maxConcurrent → ∀ p, m.sched.queues p = []) :
      Effect code m { m with control := .exec (next ifyOk) }
  | dropped {p : Fin 8} {i : ℕ} {queues : Fin 8 → List ℕ}
      (hpop : LevelQueue.Popped m.sched.queues p i queues)
      (next : StatusCode → Prog F A μ) (hcontrol : m.control = .drain next) :
      Effect code m
        { m with sched := { m.sched with queues := queues }.setState i .cancelled }
  | started {p : Fin 8} {i : ℕ} {queues : Fin 8 → List ℕ} {t : TaskEntry F A}
      (hpop : LevelQueue.Popped m.sched.queues p i queues)
      (hrunning : m.sched.runningCount < m.sched.maxConcurrent)
      (ht : m.sched.tasks[i]? = some t) (hflag : ¬ t.cancelFlag)
      (next : StatusCode → Prog F A μ) :
      Effect code m
        { m with
          sched :=
            { { m.sched with queues := queues }.setState i .running with
              runningCount := m.sched.runningCount + 1 }
          control := .exec (code t.fn t.id t.arg)
          stack := ⟨i, next⟩ :: m.stack
          called := i :: m.called }

variable {m m' : Machine F A μ} {c : Choice}

theorem drainQueue_effect {next : StatusCode → Prog F A μ} (hcontrol : m.control = .drain next)
    (h : m.drainQueue code next = some m') : Effect code m m' := by
  unfold drainQueue at h
  split at h
  · next hrunning =>
    cases hpop : m.sched.dequeueHighest with
    | none =>
        rw [hpop] at h
        cases h
        exact .left next hcontrol fun _ => Scheduler.queues_eq_nil hpop
    | some popped =>
        obtain ⟨i, s⟩ := popped
        obtain ⟨p, queues, hpopped, rfl⟩ := Scheduler.popped_of_dequeueHighest hpop
        rw [hpop] at h
        cases ht : m.sched.tasks[i]? with
        | none =>
            simp only [ht] at h
            cases h
        | some t =>
            simp only [ht] at h
            split at h
            · cases h
              exact .dropped hpopped next hcontrol
            · next hflag =>
              cases h
              exact .started hpopped hrunning ht hflag next
  · next hrunning =>
    cases h
    exact .left next hcontrol fun hlt => absurd hlt hrunning

theorem submit_effect {fn : Option F} {arg : A} {priority : UInt8} {out : KernelTaskId → μ → μ}
    {next : StatusCode → Prog F A μ}
    (hcontrol : m.control = .exec (.submit fn arg priority out next)) :
    Effect code m (m.submit c fn arg priority out next) := by
  have hbelow (rc : StatusCode) : Below (.exec (next rc)) m.control := by
    rw [hcontrol]
    exact .submit fn arg priority out next rc
  unfold submit
  cases fn with
  | none => exact .moved m.memory hcontrol (hbelow errInvalidArg)
  | some fn =>
      dsimp only
      split
      · exact .moved m.memory hcontrol (hbelow errOverflow)
      · next hroom =>
        split
        · exact .moved m.memory hcontrol (hbelow errOutOfMemory)
        · exact .submitted c.clock fn arg priority _ next (not_le.mp hroom)

theorem step_effect (h : step code m c = some m') : Effect code m m' := by
  unfold step at h
  split at h
  · next next hcontrol => exact drainQueue_effect hcontrol h
  · next hcontrol =>
    cases h
    exact submit_effect hcontrol
  · next id next hcontrol =>
    cases h
    apply Effect.cancelled id hcontrol
    rw [hcontrol]
    exact .cancel id next _
  · next id next hcontrol =>
    cases h
    apply Effect.moved m.memory hcontrol
    rw [hcontrol]
    exact .state id next _
  · next next hcontrol =>
    cases h
    apply Effect.moved m.memory hcontrol
    rw [hcontrol]
    exact .read next _
  · next memory next hcontrol =>
    cases h
    apply Effect.moved memory hcontrol
    rw [hcontrol]
    exact .write memory next
  · next rc hcontrol =>
    cases hstack : m.stack with
    | nil =>
        rw [hstack] at h
        cases h
    | cons frame stack =>
        rw [hstack] at h
        cases h
        exact .returned rc hstack

/-! ## Every state of a run -/

/-- As many tasks run as there are loops that wait, each for a task that was called. -/
structure Counted (s : Scheduler F A) (stack : List (Frame F A μ)) (called : List ℕ) :
    Prop where
  positive : 0 < s.maxConcurrent
  bounded : s.runningCount ≤ s.maxConcurrent
  running : s.runningCount.toNat = stack.length
  waits : ∀ frame ∈ stack, frame.task ∈ called

namespace Counted

variable {s s' : Scheduler F A} {frame : Frame F A μ} {stack : List (Frame F A μ)}
  {called : List ℕ}

theorem create (maxConcurrent : UInt32) :
    Counted (Scheduler.create maxConcurrent : Scheduler F A) ([] : List (Frame F A μ)) [] where
  positive := by
    unfold Scheduler.create
    dsimp only
    split
    · next h => exact UInt32.pos_iff_ne_zero.mpr h
    · decide
  bounded := UInt32.zero_le
  running := rfl
  waits frame hframe := by cases hframe

theorem congr (h : Counted s stack called) (hmax : s'.maxConcurrent = s.maxConcurrent)
    (hcount : s'.runningCount = s.runningCount) : Counted s' stack called where
  positive := hmax ▸ h.positive
  bounded := by
    rw [hcount, hmax]
    exact h.bounded
  running := hcount ▸ h.running
  waits := h.waits

theorem push (h : Counted s stack called) (hrunning : s.runningCount < s.maxConcurrent)
    (hmax : s'.maxConcurrent = s.maxConcurrent) (hcount : s'.runningCount = s.runningCount + 1) :
    Counted s' (frame :: stack) (frame.task :: called) where
  positive := hmax ▸ h.positive
  bounded := by
    apply UInt32.le_iff_toNat_le.mpr
    rw [hcount, hmax, toNat_add_one_of_lt hrunning]
    exact UInt32.lt_iff_toNat_lt.mp hrunning
  running := by
    rw [hcount, toNat_add_one_of_lt hrunning, h.running, List.length_cons]
  waits f hf := by
    rcases List.mem_cons.mp hf with rfl | hf
    · exact List.mem_cons_self
    · exact List.mem_cons_of_mem _ (h.waits f hf)

theorem pop (h : Counted s (frame :: stack) called) (hmax : s'.maxConcurrent = s.maxConcurrent)
    (hcount : s'.runningCount = s.runningCount - 1) : Counted s' stack called := by
  have hlength : s.runningCount.toNat = stack.length + 1 := h.running
  have hone : 1 ≤ s.runningCount := by
    apply UInt32.le_iff_toNat_le.mpr
    rw [hlength]
    exact Nat.le_add_left 1 stack.length
  have hrunning : s'.runningCount.toNat = stack.length := by
    rw [hcount, UInt32.toNat_sub_of_le _ _ hone, hlength]
    rfl
  constructor
  · exact hmax ▸ h.positive
  · rw [hmax]
    apply UInt32.le_trans _ h.bounded
    apply UInt32.le_iff_toNat_le.mpr
    rw [hrunning, hlength]
    exact Nat.le_succ _
  · exact hrunning
  · exact fun f hf => h.waits f (List.mem_cons_of_mem frame hf)

theorem lt_of_nil (h : Counted s ([] : List (Frame F A μ)) called) :
    s.runningCount < s.maxConcurrent := by
  have hzero : s.runningCount = 0 := UInt32.toNat_inj.mp h.running
  rw [hzero]
  exact h.positive

end Counted

structure Sound (m : Machine F A μ) : Prop where
  tracked : Tracked m.sched m.called m.withdrawn
  counted : Counted m.sched m.stack m.called
  idle : ∀ p, m.control = .exec p → m.stack = [] → ∀ r, m.sched.queues r = []

theorem sound_start (maxConcurrent : UInt32) (main : Prog F A μ) (memory : μ) :
    Sound (start maxConcurrent main memory) where
  tracked := Tracked.create maxConcurrent
  counted := Counted.create maxConcurrent
  idle _ _ _ _ := rfl

theorem sound_step (h : Sound m) (heffect : Effect code m m') : Sound m' := by
  cases heffect with
  | moved memory hcontrol hbelow =>
      constructor
      · exact h.tracked
      · exact h.counted
      · exact fun _ _ hstack => h.idle _ hcontrol hstack
  | submitted now fn arg priority memory next hroom =>
      constructor
      · exact h.tracked.enter now fn arg priority
      · exact h.counted.congr rfl rfl
      · exact fun _ hexec => nomatch hexec
  | cancelled id hcontrol hbelow =>
      obtain ⟨hmax, hcount, hqueues, -⟩ := m.sched.cancel_frame id
      constructor
      · exact h.tracked.cancel id
      · exact h.counted.congr hmax hcount
      · exact fun _ _ hstack => hqueues ▸ h.idle _ hcontrol hstack
  | @returned rc frame stack hstack =>
      have hcounted : Counted m.sched (frame :: stack) m.called := hstack ▸ h.counted
      constructor
      · apply h.tracked.finish (hcounted.waits frame List.mem_cons_self)
        · split
          · exact fun h => nomatch h
          · exact fun h => nomatch h
        · split
          · exact fun h => nomatch h
          · exact fun h => nomatch h
      · exact hcounted.pop rfl rfl
      · exact fun _ hexec => nomatch hexec
  | left next hcontrol hleave =>
      constructor
      · exact h.tracked
      · exact h.counted
      · intro _ _ hstack
        have hcounted : Counted m.sched [] m.called := hstack ▸ h.counted
        exact hleave hcounted.lt_of_nil
  | dropped hpop next hcontrol =>
      constructor
      · exact h.tracked.drop hpop
      · exact h.counted.congr rfl rfl
      · intro _ hexec
        dsimp only at hexec
        rw [hcontrol] at hexec
        cases hexec
  | started hpop hrunning ht hflag next =>
      constructor
      · exact h.tracked.start hpop ht hflag _
      · exact h.counted.push hrunning rfl rfl
      · exact fun _ _ hstack => nomatch hstack

theorem sound_of_reached {maxConcurrent : UInt32} {main : Prog F A μ} {memory : μ}
    (h : Reached code maxConcurrent main memory m) : Sound m := by
  apply h.invariant Sound (sound_start maxConcurrent main memory)
  intro t c u ht _ hstep
  exact sound_step ht (step_effect hstep)

/-! ## Every run ends -/

/-- What goes down in every step: the slots left in the array, the entries of the queues,
the loops that wait and the code. -/
def remaining (m : Machine F A μ) : ℕ × ℕ × ℕ × Control F A μ :=
  (schedMaxTasks - m.sched.tasks.length, LevelQueue.size m.sched.queues, m.stack.length,
    m.control)

theorem remaining_step (heffect : Effect code m m') :
    Prod.Lex (· < ·) (Prod.Lex (· < ·) (Prod.Lex (· < ·) Below)) m'.remaining m.remaining := by
  cases heffect with
  | moved memory hcontrol hbelow => exact .right _ (.right _ (.right _ hbelow))
  | submitted now fn arg priority memory next hroom =>
      apply Prod.Lex.left
      simp only [Scheduler.enqueue, Scheduler.register, List.length_append,
        List.length_singleton]
      exact Nat.sub_lt_sub_left hroom (Nat.lt_succ_self _)
  | cancelled id hcontrol hbelow =>
      obtain ⟨-, -, hqueues, htasks⟩ := m.sched.cancel_frame id
      unfold remaining
      dsimp only
      rw [hqueues, htasks]
      exact .right _ (.right _ (.right _ hbelow))
  | returned rc hstack =>
      unfold remaining resume Scheduler.setState
      dsimp only
      rw [List.length_modify, hstack]
      exact .right _ (.right _ (.left _ _ (Nat.lt_succ_self _)))
  | left next hcontrol hleave =>
      apply Prod.Lex.right
      apply Prod.Lex.right
      apply Prod.Lex.right
      rw [hcontrol]
      exact .drain next ifyOk
  | dropped hpop next hcontrol =>
      unfold remaining Scheduler.setState
      dsimp only
      rw [List.length_modify, hpop.size_eq]
      exact .right _ (.left _ _ (Nat.lt_succ_self _))
  | started hpop hrunning ht hflag next =>
      unfold remaining Scheduler.setState
      dsimp only
      rw [List.length_modify, hpop.size_eq]
      exact .right _ (.left _ _ (Nat.lt_succ_self _))

theorem halts (code : F → KernelTaskId → A → Prog F A μ) (m : Machine F A μ) :
    Transition.Halts (fun m c m' => step code m c = some m') m := by
  have hlt : WellFounded fun a b : ℕ => a < b := Nat.lt_wfRel.wf
  have hlex := hlt.prod_lex (hlt.prod_lex (hlt.prod_lex (wellFounded_below (F := F) (A := A)
    (μ := μ))))
  apply Transition.halts_of_decreasing hlex remaining
  intro m c m' hstep
  exact remaining_step (step_effect hstep)

theorem drainQueue_ne_none (h : Sound m) (next : StatusCode → Prog F A μ) :
    m.drainQueue code next ≠ none := by
  unfold drainQueue
  split
  · cases hpop : m.sched.dequeueHighest with
    | none => exact Option.some_ne_none _
    | some popped =>
        obtain ⟨i, s⟩ := popped
        obtain ⟨p, queues, hpopped, rfl⟩ := Scheduler.popped_of_dequeueHighest hpop
        obtain ⟨t, ht, -⟩ := h.tracked.entry_of_listed (Or.inr (Or.inr ⟨p, hpopped.mem⟩))
        simp only [ht]
        split
        · exact Option.some_ne_none _
        · exact Option.some_ne_none _
  · exact Option.some_ne_none _

theorem step_eq_none_iff (h : Sound m) (c : Choice) :
    step code m c = none ↔ m.Returned := by
  constructor
  · intro hstep
    unfold step at hstep
    split at hstep
    · exact absurd hstep (drainQueue_ne_none h _)
    · cases hstep
    · cases hstep
    · cases hstep
    · cases hstep
    · cases hstep
    · next rc hcontrol =>
      cases hstack : m.stack with
      | nil => exact ⟨hstack, rc, hcontrol⟩
      | cons frame stack =>
          rw [hstack] at hstep
          cases hstep
  · rintro ⟨hstack, rc, hcontrol⟩
    unfold step
    rw [hcontrol]
    dsimp only
    rw [hstack]

/-! ## What the scheduler guarantees -/

/-- The outermost code runs: it is not in a submission, and no task function runs. -/
def Outermost (m : Machine F A μ) : Prop :=
  m.stack = [] ∧ ∃ p, m.control = .exec p

structure Guaranteed (m : Machine F A μ) : Prop where
  bounded : m.sched.runningCount ≤ m.sched.maxConcurrent
  calledOnce : m.called.Nodup
  withdrawn : ∀ i ∈ m.withdrawn, i ∉ m.called
  dequeue : ∀ i s, m.sched.dequeueHighest = some (i, s) → m.sched.First i
  outermost : m.Outermost → ∀ t ∈ m.sched.tasks, t.state ≠ .queued

theorem guaranteed_of_sound (h : Sound m) : Guaranteed m where
  bounded := h.counted.bounded
  calledOnce := h.tracked.nodup
  withdrawn _ hi := h.tracked.notMem_called hi
  dequeue _ _ hpop := h.tracked.first hpop
  outermost houtermost t ht hqueued := by
    obtain ⟨hstack, p, hcontrol⟩ := houtermost
    obtain ⟨i, hi⟩ := List.mem_iff_getElem?.mp ht
    have hmem := (h.tracked.placed i t hi).queued hqueued
    rw [h.idle p hcontrol hstack] at hmem
    cases hmem

/-- Whatever the task functions do, the guarantees hold in every state of the run, and every
run goes on until `main` has returned. -/
theorem run_to_completion (code : F → KernelTaskId → A → Prog F A μ) (maxConcurrent : UInt32)
    (main : Prog F A μ) (memory : μ) :
    Transition.Halts (fun m c m' => step code m c = some m')
        (start maxConcurrent main memory) ∧
      ∀ m, Reached code maxConcurrent main memory m →
        m.Guaranteed ∧ ∀ c, step code m c = none ↔ m.Returned := by
  constructor
  · exact halts code _
  · intro m hm
    have hsound := sound_of_reached hm
    exact ⟨guaranteed_of_sound hsound, step_eq_none_iff hsound⟩

/-! ## Priorities above the highest level -/

/-- The function `true` submits tasks of the priorities 7 and 8, in this order. -/
def sampleCode : Bool → KernelTaskId → Unit → Prog Bool Unit Unit
  | true, _, _ =>
      .submit (some false) () 7 (fun _ memory => memory) fun _ =>
        .submit (some false) () 8 (fun _ memory => memory) .ret
  | false, _, _ => .ret ifyOk

def sampleMain : Prog Bool Unit Unit :=
  .submit (some true) () 0 (fun _ memory => memory) .ret

/-- The state after the given number of steps, with one task at a time. -/
def sample (steps : ℕ) : Machine Bool Unit Unit :=
  Transition.follow (step sampleCode) (start 1 sampleMain ()) (List.replicate steps ⟨0, true⟩)

theorem reached_sample (steps : ℕ) : Reached sampleCode 1 sampleMain () (sample steps) :=
  Transition.reach_follow .refl _

theorem sample_tasks : (sample 7).sched.tasks.map (fun t => (t.priority, t.state)) =
    [(0, .completed), (7, .queued), (8, .queued)] := by
  decide +kernel

/-- A task of the priority 7 is dequeued while one of the priority 8 is QUEUED. -/
theorem priority_not_respected :
    ¬ ∀ m, Reached sampleCode 1 sampleMain () m →
      ∀ next i s, m.control = .drain next → m.sched.runningCount < m.sched.maxConcurrent →
        m.sched.dequeueHighest = some (i, s) → ∀ t, m.sched.tasks[i]? = some t →
          ∀ u ∈ m.sched.tasks, u.state = .queued → u.priority ≤ t.priority := by
  intro h
  have hcontrol : ∃ next, (sample 7).control = .drain next := ⟨_, rfl⟩
  have hrunning : (sample 7).sched.runningCount < (sample 7).sched.maxConcurrent := by
    decide +kernel
  have hdequeue : (sample 7).sched.dequeueHighest.map Prod.fst = some 1 := by decide +kernel
  obtain ⟨next, hcontrol⟩ := hcontrol
  obtain ⟨⟨i, s⟩, hpop, rfl⟩ := Option.map_eq_some_iff.mp hdequeue
  have hentry (j : ℕ) := congrArg (fun l => l[j]?) sample_tasks
  simp only [List.getElem?_map] at hentry
  obtain ⟨t, ht, htask⟩ := Option.map_eq_some_iff.mp (hentry 1)
  obtain ⟨u, hu, hother⟩ := Option.map_eq_some_iff.mp (hentry 2)
  obtain ⟨hpriority, -⟩ := Prod.mk.inj htask
  obtain ⟨hpriority', hqueued⟩ := Prod.mk.inj hother
  have hle := h _ (reached_sample 7) next _ s hcontrol hrunning hpop t ht u
    (List.mem_of_getElem? hu) hqueued
  rw [hpriority, hpriority'] at hle
  exact absurd hle (by decide)

theorem run_to_completion_sample : (sample 7).Guaranteed :=
  ((run_to_completion sampleCode 1 sampleMain ()).2 _ (reached_sample 7)).1

end Machine

end Kernel

end InfinityOS
