import InfinityOS.Kernel.Scheduler

/-!
# Where the tasks of a scheduler are

A task of the array waits in the queue of its level, or its function was called, or it was
cancelled. `Tracked` says so of every task, given the tasks whose functions were called and
those cancelled while QUEUED. Each operation of the scheduler adds a task or changes one,
and `Tracked.change` is the rule for a changed one.
-/

namespace InfinityOS

namespace Kernel

variable {F A : Type*}

theorem getElem?_concat_cases {α : Type*} {l : List α} {a b : α} {i : ℕ}
    (h : (l ++ [a])[i]? = some b) : l[i]? = some b ∨ i = l.length ∧ b = a := by
  rcases Nat.lt_or_ge i l.length with hlt | hge
  · rw [List.getElem?_append_left hlt] at h
    exact Or.inl h
  · rw [List.getElem?_append_right hge] at h
    obtain ⟨hzero, hb⟩ := List.getElem?_eq_some_iff.mp h
    rw [List.length_singleton, Nat.lt_one_iff] at hzero
    have hi : i = l.length := le_antisymm (Nat.sub_eq_zero_iff_le.mp hzero) hge
    subst hi
    exact Or.inr ⟨rfl, by simpa using hb.symm⟩

def TaskEntry.Waiting (t : TaskEntry F A) : Prop :=
  if t.cancelFlag then t.state = .cancelled else t.state = .queued

/-- What is known of the task `i` with the entry `t`. -/
structure Placed (queues : Fin 8 → List ℕ) (called withdrawn : List ℕ) (i : ℕ)
    (t : TaskEntry F A) : Prop where
  waiting : ∀ p, i ∈ queues p → level t.priority = p ∧ t.Waiting ∧ i ∉ called
  queued : t.state = .queued → i ∈ queues (level t.priority)
  called : i ∈ called → t.state ≠ .queued ∧ t.state ≠ .cancelled
  withdrawn : i ∈ withdrawn → t.state = .cancelled

section Placed

variable {queues : Fin 8 → List ℕ} {called withdrawn : List ℕ} {i j : ℕ} {t : TaskEntry F A}

theorem Placed.push (h : Placed queues called withdrawn i t) (hij : i ≠ j) (p : Fin 8) :
    Placed (LevelQueue.push queues p j) called withdrawn i t where
  waiting r hr := by
    rcases LevelQueue.mem_push.mp hr with hr | ⟨-, heq⟩
    · exact h.waiting r hr
    · exact absurd heq hij
  queued hstate := LevelQueue.mem_push.mpr (Or.inl (h.queued hstate))
  called := h.called
  withdrawn := h.withdrawn

theorem placed_push {p : Fin 8} (hlevel : level t.priority = p) (hqueues : ∀ r, i ∉ queues r)
    (hcalled : i ∉ called) (hwithdrawn : i ∉ withdrawn) (hwaiting : t.Waiting) :
    Placed (LevelQueue.push queues p i) called withdrawn i t where
  waiting r hr := by
    rcases LevelQueue.mem_push.mp hr with hr | ⟨rfl, -⟩
    · exact absurd hr (hqueues r)
    · exact ⟨hlevel, hwaiting, hcalled⟩
  queued _ := LevelQueue.mem_push.mpr (Or.inr ⟨hlevel, rfl⟩)
  called hi := absurd hi hcalled
  withdrawn hi := absurd hi hwithdrawn

end Placed

structure Tracked (s : Scheduler F A) (called withdrawn : List ℕ) : Prop where
  ordered : LevelQueue.Ordered s.queues
  nodup : called.Nodup
  listed : ∀ i, (i ∈ called ∨ i ∈ withdrawn ∨ ∃ p, i ∈ s.queues p) → i < s.tasks.length
  placed : ∀ i t, s.tasks[i]? = some t → Placed s.queues called withdrawn i t

namespace Tracked

variable {s s' : Scheduler F A} {called called' withdrawn withdrawn' : List ℕ} {i : ℕ}

theorem create (maxConcurrent : UInt32) :
    Tracked (Scheduler.create maxConcurrent : Scheduler F A) [] [] where
  ordered _ := List.Pairwise.nil
  nodup := List.nodup_nil
  listed i hi := by
    rcases hi with hi | hi | ⟨p, hi⟩ <;> cases hi
  placed i t ht := by cases ht

theorem entry_of_listed (h : Tracked s called withdrawn)
    (hi : i ∈ called ∨ i ∈ withdrawn ∨ ∃ p, i ∈ s.queues p) :
    ∃ t, s.tasks[i]? = some t ∧ Placed s.queues called withdrawn i t := by
  have ht := List.getElem?_eq_getElem (h.listed i hi)
  exact ⟨_, ht, h.placed i _ ht⟩

theorem notMem_called (h : Tracked s called withdrawn) (hi : i ∈ withdrawn) : i ∉ called := by
  obtain ⟨t, -, hplaced⟩ := h.entry_of_listed (Or.inr (Or.inl hi))
  intro hcalled
  exact (hplaced.called hcalled).2 (hplaced.withdrawn hi)

theorem change (h : Tracked s called withdrawn) (i : ℕ) (f : TaskEntry F A → TaskEntry F A)
    (hi : i < s.tasks.length) (htasks : s'.tasks = s.tasks.modify i f)
    (hordered : LevelQueue.Ordered s'.queues) (hnodup : called'.Nodup)
    (hqueues : ∀ j, j ≠ i → ∀ p, j ∈ s'.queues p ↔ j ∈ s.queues p)
    (hcalled : ∀ j, j ≠ i → (j ∈ called' ↔ j ∈ called))
    (hwithdrawn : ∀ j, j ≠ i → (j ∈ withdrawn' ↔ j ∈ withdrawn))
    (hplaced : ∀ t, s.tasks[i]? = some t → Placed s'.queues called' withdrawn' i (f t)) :
    Tracked s' called' withdrawn' where
  ordered := hordered
  nodup := hnodup
  listed j hj := by
    rw [htasks, List.length_modify]
    by_cases hne : j = i
    · rw [hne]
      exact hi
    · simp only [hqueues j hne, hcalled j hne, hwithdrawn j hne] at hj
      exact h.listed j hj
  placed j u hu := by
    rw [htasks] at hu
    by_cases hne : j = i
    · subst hne
      rw [List.getElem?_modify_eq] at hu
      obtain ⟨t, ht, rfl⟩ := Option.map_eq_some_iff.mp hu
      exact hplaced t ht
    · rw [List.getElem?_modify_ne f _ (Ne.symm hne)] at hu
      have hold := h.placed j u hu
      constructor
      · intro p hp
        rw [hqueues j hne] at hp
        rw [hcalled j hne]
        exact hold.waiting p hp
      · intro hstate
        rw [hqueues j hne]
        exact hold.queued hstate
      · intro hj
        exact hold.called ((hcalled j hne).mp hj)
      · intro hj
        exact hold.withdrawn ((hwithdrawn j hne).mp hj)

/-! ## Submission -/

theorem enter (h : Tracked s called withdrawn) (now : Word) (fn : F) (arg : A)
    (priority : UInt8) :
    Tracked ((s.register now fn arg priority).enqueue s.tasks.length priority) called
      withdrawn := by
  have hcalled : s.tasks.length ∉ called := fun hi => lt_irrefl _ (h.listed _ (Or.inl hi))
  have hwithdrawn : s.tasks.length ∉ withdrawn :=
    fun hi => lt_irrefl _ (h.listed _ (Or.inr (Or.inl hi)))
  have hqueues (p : Fin 8) : s.tasks.length ∉ s.queues p :=
    fun hi => lt_irrefl _ (h.listed _ (Or.inr (Or.inr ⟨p, hi⟩)))
  constructor
  · apply h.ordered.push
    intro i hi
    exact h.listed i (Or.inr (Or.inr ⟨_, hi⟩))
  · exact h.nodup
  · intro i hi
    simp only [Scheduler.enqueue, Scheduler.register, LevelQueue.mem_push,
      List.length_append, List.length_singleton] at hi ⊢
    rcases hi with hi | hi | ⟨p, hi | ⟨-, rfl⟩⟩
    · exact Nat.lt_succ_of_lt (h.listed i (Or.inl hi))
    · exact Nat.lt_succ_of_lt (h.listed i (Or.inr (Or.inl hi)))
    · exact Nat.lt_succ_of_lt (h.listed i (Or.inr (Or.inr ⟨p, hi⟩)))
    · exact Nat.lt_succ_self _
  · intro i t ht
    simp only [Scheduler.enqueue, Scheduler.register] at ht ⊢
    rcases getElem?_concat_cases ht with ht | ⟨rfl, rfl⟩
    · apply (h.placed i t ht).push
      intro heq
      rw [heq, List.getElem?_eq_none (le_refl _)] at ht
      cases ht
    · exact placed_push rfl hqueues hcalled hwithdrawn rfl

/-! ## Leaving a queue -/

section Popped

variable {p : Fin 8} {queues : Fin 8 → List ℕ}

theorem notMem_popped (h : Tracked s called withdrawn)
    (hpop : LevelQueue.Popped s.queues p i queues) (r : Fin 8) : i ∉ queues r := by
  intro hr
  obtain ⟨t, -, hplaced⟩ := h.entry_of_listed (Or.inr (Or.inr ⟨p, hpop.mem⟩))
  obtain ⟨rfl, -⟩ := hplaced.waiting p hpop.mem
  obtain ⟨rfl, -⟩ := hplaced.waiting r (hpop.mem_of_mem hr)
  exact hpop.notMem h.ordered hr

theorem drop (h : Tracked s called withdrawn) (hpop : LevelQueue.Popped s.queues p i queues) :
    Tracked ({ s with queues := queues }.setState i .cancelled) called withdrawn := by
  have hlisted : i ∈ called ∨ i ∈ withdrawn ∨ ∃ p, i ∈ s.queues p :=
    Or.inr (Or.inr ⟨p, hpop.mem⟩)
  apply h.change i (fun t => { t with state := .cancelled }) (h.listed i hlisted) rfl
    (hpop.ordered h.ordered) h.nodup (fun j hj r => hpop.mem_iff hj)
    (fun _ _ => Iff.rfl) (fun _ _ => Iff.rfl)
  intro t ht
  constructor
  · exact fun r hr => absurd hr (h.notMem_popped hpop r)
  · exact fun hstate => nomatch hstate
  · exact fun hi => absurd hi ((h.placed i t ht).waiting p hpop.mem).2.2
  · exact fun _ => rfl

theorem start (h : Tracked s called withdrawn) (hpop : LevelQueue.Popped s.queues p i queues)
    {t : TaskEntry F A} (ht : s.tasks[i]? = some t) (hflag : ¬ t.cancelFlag)
    (runningCount : UInt32) :
    Tracked
      { { s with queues := queues }.setState i .running with runningCount := runningCount }
      (i :: called) withdrawn := by
  have hlisted : i ∈ called ∨ i ∈ withdrawn ∨ ∃ p, i ∈ s.queues p :=
    Or.inr (Or.inr ⟨p, hpop.mem⟩)
  obtain ⟨-, hwaiting, hcalled⟩ := (h.placed i t ht).waiting p hpop.mem
  rw [TaskEntry.Waiting, if_neg hflag] at hwaiting
  apply h.change i (fun t => { t with state := .running }) (h.listed i hlisted) rfl
    (hpop.ordered h.ordered) (List.nodup_cons.mpr ⟨hcalled, h.nodup⟩)
    (fun j hj r => hpop.mem_iff hj) _ (fun _ _ => Iff.rfl)
  · intro u hu
    rw [ht] at hu
    cases hu
    constructor
    · exact fun r hr => absurd hr (h.notMem_popped hpop r)
    · exact fun hstate => nomatch hstate
    · intro _
      constructor
      · exact fun hstate => nomatch hstate
      · exact fun hstate => nomatch hstate
    · intro hi
      rw [(h.placed i t ht).withdrawn hi] at hwaiting
      cases hwaiting
  · intro j hj
    rw [List.mem_cons]
    exact or_iff_right hj

end Popped

/-! ## Return and cancellation -/

theorem finish (h : Tracked s called withdrawn) (hi : i ∈ called) {state : TaskState}
    (hqueued : state ≠ .queued) (hcancelled : state ≠ .cancelled) (runningCount : UInt32) :
    Tracked ({ s with runningCount := runningCount }.setState i state) called withdrawn := by
  apply h.change i (fun t => { t with state := state }) (h.listed i (Or.inl hi)) rfl _ h.nodup
    _ (fun _ _ => Iff.rfl) (fun _ _ => Iff.rfl)
  · intro t ht
    constructor
    · exact fun r hr => absurd hi ((h.placed i t ht).waiting r hr).2.2
    · exact fun hstate => absurd hstate hqueued
    · exact fun _ => ⟨hqueued, hcancelled⟩
    · exact fun hw => absurd hi (h.notMem_called hw)
  · exact h.ordered
  · exact fun _ _ _ => Iff.rfl

theorem withdraw (h : Tracked s called withdrawn) {t : TaskEntry F A}
    (ht : s.tasks[i]? = some t) (hqueued : t.state = .queued)
    (f : TaskEntry F A → TaskEntry F A)
    (hf : f t = { t with cancelFlag := true, state := .cancelled }) :
    Tracked { s with tasks := s.tasks.modify i f } called (i :: withdrawn) := by
  have hplaced := h.placed i t ht
  apply h.change i f (List.getElem?_eq_some_iff.mp ht).1 rfl _ h.nodup _ (fun _ _ => Iff.rfl) _
  · intro u hu
    rw [ht] at hu
    cases hu
    rw [hf]
    constructor
    · intro p hp
      obtain ⟨hlevel, -, hcalled⟩ := hplaced.waiting p hp
      exact ⟨hlevel, rfl, hcalled⟩
    · exact fun hstate => nomatch hstate
    · exact fun hi => absurd hqueued (hplaced.called hi).1
    · exact fun _ => rfl
  · exact h.ordered
  · exact fun _ _ _ => Iff.rfl
  · intro j hj
    rw [List.mem_cons]
    exact or_iff_right hj

theorem flag (h : Tracked s called withdrawn) {t : TaskEntry F A} (ht : s.tasks[i]? = some t)
    (hqueued : t.state ≠ .queued) (hcancelled : t.state ≠ .cancelled)
    (f : TaskEntry F A → TaskEntry F A) (hf : f t = { t with cancelFlag := true }) :
    Tracked { s with tasks := s.tasks.modify i f } called withdrawn := by
  have hplaced := h.placed i t ht
  apply h.change i f (List.getElem?_eq_some_iff.mp ht).1 rfl _ h.nodup _ (fun _ _ => Iff.rfl)
    (fun _ _ => Iff.rfl)
  · intro u hu
    rw [ht] at hu
    cases hu
    rw [hf]
    constructor
    · intro p hp
      obtain ⟨-, hwaiting, -⟩ := hplaced.waiting p hp
      rw [TaskEntry.Waiting] at hwaiting
      split at hwaiting
      · exact absurd hwaiting hcancelled
      · exact absurd hwaiting hqueued
    · exact fun hstate => absurd hstate hqueued
    · exact hplaced.called
    · exact hplaced.withdrawn
  · exact h.ordered
  · exact fun _ _ _ => Iff.rfl

end Tracked

theorem Scheduler.getElem?_of_findTask {s : Scheduler F A} {id : KernelTaskId}
    {t : TaskEntry F A} {i : ℕ} (h : s.findTask id = some (t, i)) : s.tasks[i]? = some t :=
  List.mem_zipIdx_iff_getElem?.mp (List.mem_of_find?_eq_some h)

theorem Scheduler.cancel_frame (s : Scheduler F A) (id : KernelTaskId) :
    (s.cancel id).2.maxConcurrent = s.maxConcurrent ∧
      (s.cancel id).2.runningCount = s.runningCount ∧ (s.cancel id).2.queues = s.queues ∧
      (s.cancel id).2.tasks.length = s.tasks.length := by
  unfold Scheduler.cancel
  cases s.findTask id with
  | none => exact ⟨rfl, rfl, rfl, rfl⟩
  | some found =>
      dsimp only
      split
      · exact ⟨rfl, rfl, rfl, rfl⟩
      · exact ⟨rfl, rfl, rfl, List.length_modify _ _ _⟩

theorem Tracked.cancel {s : Scheduler F A} {called withdrawn : List ℕ}
    (h : Tracked s called withdrawn) (id : KernelTaskId) :
    Tracked (s.cancel id).2 called (s.withdrawn id ++ withdrawn) := by
  unfold Scheduler.cancel Scheduler.withdrawn
  cases hfind : s.findTask id with
  | none => exact h
  | some found =>
      obtain ⟨t, i⟩ := found
      have ht := Scheduler.getElem?_of_findTask hfind
      dsimp only
      by_cases hqueued : t.state = .queued
      · rw [if_pos hqueued, if_neg (by simp [hqueued])]
        exact h.withdraw ht hqueued _ (by simp only [if_pos hqueued])
      · rw [if_neg hqueued]
        split
        · exact h
        · next hterminal =>
          rw [not_or, not_or] at hterminal
          exact h.flag ht hqueued hterminal.2.2 _ (by simp only [if_neg hqueued])

/-! ## The order of the dequeues -/

theorem Scheduler.popped_of_dequeueHighest {s s' : Scheduler F A} {i : ℕ}
    (h : s.dequeueHighest = some (i, s')) :
    ∃ p queues, LevelQueue.Popped s.queues p i queues ∧ s' = { s with queues := queues } := by
  obtain ⟨⟨j, queues⟩, hpop, heq⟩ := Option.map_eq_some_iff.mp h
  cases heq
  obtain ⟨p, hpopped⟩ := LevelQueue.popped_of_pop hpop
  exact ⟨p, queues, hpopped, rfl⟩

theorem Scheduler.queues_eq_nil {s : Scheduler F A} (h : s.dequeueHighest = none) (p : Fin 8) :
    s.queues p = [] :=
  LevelQueue.pop_eq_none (Option.map_eq_none_iff.mp h) p

/-- No task that is QUEUED or in a queue has a higher level than the task `i`, and none of
its level was submitted before it. -/
def Scheduler.First (s : Scheduler F A) (i : ℕ) : Prop :=
  ∃ t, s.tasks[i]? = some t ∧ ∀ j u, s.tasks[j]? = some u →
    (u.state = .queued ∨ ∃ p, j ∈ s.queues p) →
      level u.priority < level t.priority ∨ level u.priority = level t.priority ∧ i ≤ j

theorem Tracked.first {s s' : Scheduler F A} {called withdrawn : List ℕ} {i : ℕ}
    (h : Tracked s called withdrawn) (hpop : s.dequeueHighest = some (i, s')) : s.First i := by
  obtain ⟨p, queues, hpopped, -⟩ := Scheduler.popped_of_dequeueHighest hpop
  obtain ⟨t, ht, hplaced⟩ := h.entry_of_listed (Or.inr (Or.inr ⟨p, hpopped.mem⟩))
  obtain ⟨rfl, -⟩ := hplaced.waiting p hpopped.mem
  refine ⟨t, ht, ?_⟩
  intro j u hu hj
  have hwait : j ∈ s.queues (level u.priority) := by
    rcases hj with hqueued | ⟨r, hr⟩
    · exact (h.placed j u hu).queued hqueued
    · obtain ⟨rfl, -⟩ := (h.placed j u hu).waiting r hr
      exact hr
  exact hpopped.oldest h.ordered hwait

end Kernel

end InfinityOS
