import InfinityOS.Scheduler.Lifecycle

/-!
# The effect of every call

`Effect s op answer s'` lists what a call can do to an accounted scheduler: it
is refused and changes nothing, it registers a task, or it moves tasks along the
edges of the lifecycle under the guard that the source checks. `step_effect`
proves that every operation has such an effect.
-/

namespace InfinityOS

namespace Scheduler

def TaskScheduler.register (s : TaskScheduler) (id : TaskId) (spec : TaskSpec)
    (now : UInt64) : TaskScheduler :=
  { s with index := s.index.push id spec now }

/-- Promotion: pending tasks whose prerequisites are completed become queued, one
after the other. -/
inductive Promoted : TaskScheduler → TaskScheduler → Prop
  | refl (s : TaskScheduler) : Promoted s s
  | step {s m t : TaskScheduler} {id : TaskId} {r r' : TaskRecord}
      (hm : Moved s m id r r') (hpending : r.state = .pending) (hqueued : r'.state = .queued)
      (hdeps : s.allDepsCompleted r.spec.dependencies = true) (hrest : Promoted m t) :
      Promoted s t

/-- No pending task has all its prerequisites completed. -/
def Settled (s : TaskScheduler) : Prop :=
  ∀ id r, s.index.get id = some r → r.state = .pending →
    s.allDepsCompleted r.spec.dependencies = false

inductive Answer.Refusal : Answer → Prop
  | handed : Refusal (.handed none)
  | lease (e : SchedulerError) : Refusal (.lease (.error e))
  | done (e : SchedulerError) : Refusal (.done (.error e))

inductive Effect : TaskScheduler → Op → Answer → TaskScheduler → Prop
  | quota {s} (dim : DimensionId) (quota : DimensionQuota) :
      Effect s (.setQuota dim quota) .unit (s.setQuota dim quota)
  | refused {s op answer} (h : answer.Refusal) : Effect s op answer s
  | registered {s id spec now} (hnew : s.index.get id = none)
      (hexist : ∀ p ∈ spec.dependencies, (s.index.get p).isSome)
      (hwait : s.allDepsCompleted spec.dependencies = false) :
      Effect s (.submit id spec now) (.done (.ok ())) (s.register id spec (now 0))
  | queued {s s' id spec now r'} (hnew : s.index.get id = none)
      (hexist : ∀ p ∈ spec.dependencies, (s.index.get p).isSome)
      (hdeps : s.allDepsCompleted spec.dependencies = true)
      (hm : Moved (s.register id spec (now 0)) s' id
        (TaskRecord.new id spec (s.index.seq + 1) (now 0)) r')
      (hqueued : r'.state = .queued) :
      Effect s (.submit id spec now) (.done (.ok ())) s'
  | handed {s s' w now id r r' lease} (hm : Moved s s' id r r')
      (hqueued : r.state = .queued) (hrunning : r'.state = .running)
      (hslot : s.runningFor r.spec.dimensionId <
        (s.quotaFor r.spec.dimensionId).maxConcurrent) :
      Effect s (.nextReady w now) (.handed (some (r', lease))) s'
  | renewed {s s' id now r r' lease} (hm : Moved s s' id r r')
      (hsame : r'.state = r.state) :
      Effect s (.renewLease id now) (.lease (.ok lease)) s'
  | completed {s m s' id now r r'} (hm : Moved s m id r r')
      (hrunning : r.state = .running) (hcompleted : r'.state = .completed)
      (hpromoted : Promoted m s') (hsettled : Settled s') :
      Effect s (.complete id now) (.done (.ok ())) s'
  | failed {s m s' id reason now r r' r''} (hm : Moved s m id r r')
      (hrunning : r.state = .running) (hfailed : r'.state = .failed)
      (htouch : Moved m s' id r' r'') (hsame : r''.state = .failed)
      (hlast : ¬ r.attempt < r.spec.retryPolicy.maxAttempts) :
      Effect s (.fail id reason now) (.done (.ok ())) s'
  | retried {s m n s' id reason now r r' r'' r₃} (hm : Moved s m id r r')
      (hrunning : r.state = .running) (hfailed : r'.state = .failed)
      (htouch : Moved m n id r' r'') (hsame : r''.state = .failed)
      (hrequeue : Moved n s' id r'' r₃) (hqueued : r₃.state = .queued)
      (hmore : r.attempt < r.spec.retryPolicy.maxAttempts) :
      Effect s (.fail id reason now) (.done (.ok ())) s'
  | cancelled {s s' id now r r'} (hm : Moved s s' id r r')
      (hcan : r.state.canTransitionTo .cancelled = true)
      (hcancelled : r'.state = .cancelled) :
      Effect s (.cancel id now) (.done (.ok ())) s'
  | paused {s s' id now r r'} (hm : Moved s s' id r r')
      (hrunning : r.state = .running) (hpaused : r'.state = .paused) :
      Effect s (.pause id now) (.done (.ok ())) s'
  | resumed {s s' id now r r'} (hm : Moved s s' id r r')
      (hcan : r.state.canTransitionTo .queued = true) (hqueued : r'.state = .queued) :
      Effect s (.resume id now) (.done (.ok ())) s'

/-! ## Admission and promotion -/

theorem Accounted.extend {s : TaskScheduler} (h : Accounted s) {x : TaskIndex} {id : TaskId}
    {r : TaskRecord} (hx : s.index.Extends x id r) (hid : r.taskId = id)
    (hrunning : r.state ≠ .running) {queue : List ReadyEntry}
    (hqueue : queue.Perm (s.readyQueue ++ if r.state = .queued then [r.entry] else []))
    (hsorted : queue.Pairwise ReadyEntry.before) :
    Accounted { s with index := x, readyQueue := queue } where
  index := hx.wellFormed h.index hid
  queue := by
    have hentries : x.queuedEntries =
        s.index.queuedEntries ++ if r.state = .queued then [r.entry] else [] := by
      rw [TaskIndex.queuedEntries, hx.iterInOrder h.index, List.filter_append, List.map_append]
      by_cases hq : r.state = .queued
      · simp [hq, TaskIndex.queuedEntries]
      · simp [hq, TaskIndex.queuedEntries]
    change queue.Perm x.queuedEntries
    rw [hentries]
    exact hqueue.trans (h.queue.append_right _)
  sorted := hsorted
  running d := by
    have htasks : x.runningTasks d = s.index.runningTasks d := by
      rw [TaskIndex.runningTasks, hx.iterInOrder h.index, List.countP_append]
      simp [hrunning, TaskIndex.runningTasks]
    exact (h.running d).trans htasks.symm

theorem Accounted.register {s : TaskScheduler} (h : Accounted s) {id : TaskId}
    (hid : s.index.get id = none) (spec : TaskSpec) (now : UInt64) :
    Accounted (s.register id spec now) := by
  apply h.extend (TaskIndex.extends_push hid spec now) rfl _ _ h.sorted
  · simp [TaskRecord.new]
  · simp [TaskRecord.new]

theorem Promoted.accounted {s t : TaskScheduler} (hp : Promoted s t) (h : Accounted s) :
    Accounted t := by
  induction hp with
  | refl s => exact h
  | step hm _ _ _ _ ih => exact ih (hm.accounted h)

/-- The record at `i` after a move: the new record of the moved task, or the one
before. -/
theorem Moved.get {s s' : TaskScheduler} {id : TaskId} {r r' : TaskRecord}
    (hm : Moved s s' id r r') (i : TaskId) :
    s'.index.get i = if i = id then some r' else s.index.get i := by
  rw [hm.index, TaskIndex.get_set]

theorem allDepsCompleted_iff (s : TaskScheduler) (deps : List TaskId) :
    s.allDepsCompleted deps = true ↔
      ∀ p ∈ deps, ∃ r, s.index.get p = some r ∧ r.state = .completed := by
  rw [TaskScheduler.allDepsCompleted, List.all_eq_true]
  refine forall₂_congr fun p _ => ?_
  cases h : s.index.get p with
  | none => simp
  | some r => simp

theorem Moved.allDepsCompleted {s s' : TaskScheduler} {id : TaskId} {r r' : TaskRecord}
    (hm : Moved s s' id r r') (hsame : r'.state = .completed ↔ r.state = .completed)
    (deps : List TaskId) :
    s'.allDepsCompleted deps = s.allDepsCompleted deps := by
  rw [Bool.eq_iff_iff, allDepsCompleted_iff, allDepsCompleted_iff]
  refine forall₂_congr fun p _ => ?_
  rw [hm.get]
  split
  · next hp => simp [hp, hm.found, hsame]
  · rfl

theorem Promoted.allDepsCompleted {s t : TaskScheduler} (hp : Promoted s t)
    (deps : List TaskId) : t.allDepsCompleted deps = s.allDepsCompleted deps := by
  induction hp with
  | refl s => rfl
  | step hm hpending hqueued _ _ ih =>
      rw [ih, hm.allDepsCompleted (by simp [hpending, hqueued])]

theorem Promoted.get_pending {s t : TaskScheduler} (hp : Promoted s t) {i : TaskId}
    {u : TaskRecord} (hu : t.index.get i = some u) (hpending : u.state = .pending) :
    s.index.get i = some u := by
  induction hp with
  | refl s => exact hu
  | step hm _ hqueued _ _ ih =>
      have hmid := ih hu
      rw [hm.get] at hmid
      split at hmid
      · cases hmid
        rw [hqueued] at hpending
        cases hpending
      · exact hmid

theorem Promoted.append {s m t : TaskScheduler} (h₁ : Promoted s m) (h₂ : Promoted m t) :
    Promoted s t := by
  induction h₁ with
  | refl s => exact h₂
  | step hm hpending hqueued hdeps _ ih => exact .step hm hpending hqueued hdeps (ih h₂)

theorem transition_queued {s s' : TaskScheduler} (h : Accounted s) {id : TaskId}
    {now : UInt64} (ht : s.transition id .queued now = .ok s') :
    ∃ r r', Moved s s' id r r' ∧ r.state.canTransitionTo .queued = true ∧
      r'.state = .queued := by
  obtain ⟨r, hr, hcan, hs'⟩ := TaskScheduler.transition_ok ht
  have hq : r.state ≠ .queued := by
    rintro hq
    simp [hq, TaskState.canTransitionTo] at hcan
  have hrun : r.state ≠ .running := by
    rintro hrun
    simp [hrun, TaskState.canTransitionTo] at hcan
  rw [if_pos rfl] at hs'
  refine ⟨r, { r with state := .queued, updatedAtMs := now }, ?_, hcan, rfl⟩
  rw [hs']
  exact moved_enqueue h hr rfl rfl rfl hq hrun rfl

theorem Promoted.get {s t : TaskScheduler} (hp : Promoted s t) {i : TaskId}
    {u : TaskRecord} (hu : t.index.get i = some u) :
    s.index.get i = some u ∨ u.state = .queued := by
  induction hp with
  | refl s => exact .inl hu
  | step hm _ hqueued _ _ ih =>
      rcases ih hu with hmid | hq
      · rw [hm.get] at hmid
        split at hmid
        · cases hmid
          exact .inr hqueued
        · exact .inl hmid
      · exact .inr hq

theorem promoteOne_promoted {s : TaskScheduler} (h : Accounted s) {id : TaskId}
    (now : UInt64)
    (hstate : ∀ r, s.index.get id = some r → r.state = .pending ∨ r.state = .queued) :
    Promoted s (s.promoteOne id now) ∧
      ∀ r, (s.promoteOne id now).index.get id = some r → r.state = .pending →
        (s.promoteOne id now).allDepsCompleted r.spec.dependencies = false := by
  unfold TaskScheduler.promoteOne
  dsimp only
  split
  · next hdeps =>
      split
      · next m ht =>
          obtain ⟨r, r', hm, hcan, hq⟩ := transition_queued h ht
          have hpending : r.state = .pending := by
            rcases hstate r hm.found with hp | hp
            · exact hp
            · simp [hp, TaskState.canTransitionTo] at hcan
          have hrdeps : s.allDepsCompleted r.spec.dependencies = true := by
            simpa [hm.found] using hdeps
          refine ⟨.step hm hpending hq hrdeps (.refl m), fun t ht hp => ?_⟩
          rw [hm.get, if_pos rfl] at ht
          cases ht
          rw [hq] at hp
          cases hp
      · next e ht =>
          refine ⟨.refl s, fun r hr hp => ?_⟩
          obtain ⟨t, ht'⟩ := TaskScheduler.transition_isOk hr .queued
            (by simp [hp, TaskState.canTransitionTo]) now
          rw [ht] at ht'
          cases ht'
  · next hdeps =>
      refine ⟨.refl s, fun r hr _ => ?_⟩
      simpa [hr] using hdeps

theorem promoteLoop_promoted {s : TaskScheduler} (h : Accounted s) (ids : List TaskId)
    (now : Clock)
    (hstate : ∀ i ∈ ids, ∀ r, s.index.get i = some r →
      r.state = .pending ∨ r.state = .queued) :
    Promoted s (s.promoteLoop ids now) ∧
      ∀ i ∈ ids, ∀ r, (s.promoteLoop ids now).index.get i = some r →
        r.state = .pending →
        (s.promoteLoop ids now).allDepsCompleted r.spec.dependencies = false := by
  induction ids generalizing s now with
  | nil => exact ⟨.refl s, by simp⟩
  | cons i ids ih =>
      obtain ⟨hone, hdone⟩ := promoteOne_promoted h (now 0) (hstate i (by simp))
      have hstate' : ∀ j ∈ ids, ∀ r, (s.promoteOne i (now 0)).index.get j = some r →
          r.state = .pending ∨ r.state = .queued := by
        intro j hj r hr
        rcases hone.get hr with hold | hq
        · exact hstate j (List.mem_cons_of_mem i hj) r hold
        · exact .inr hq
      obtain ⟨hrest, hall⟩ := ih (hone.accounted h) (fun k => now (k + 1)) hstate'
      refine ⟨hone.append hrest, ?_⟩
      intro j hj r hr hp
      rcases List.mem_cons.mp hj with rfl | hj
      · rw [TaskScheduler.promoteLoop, hrest.allDepsCompleted]
        exact hdone r (hrest.get_pending hr hp) hp
      · exact hall j hj r hr hp

theorem mem_map_tasksInState {s : TaskScheduler} (h : s.index.WellFormed) {state : TaskState}
    {i : TaskId} :
    i ∈ (s.tasksInState state).map TaskRecord.taskId ↔
      ∃ r, s.index.get i = some r ∧ r.state = state := by
  rw [List.mem_map]
  constructor
  · rintro ⟨r, hr, rfl⟩
    rw [TaskScheduler.tasksInState, List.mem_filter, TaskIndex.mem_iterInOrder h] at hr
    obtain ⟨⟨j, hj⟩, hp⟩ := hr
    exact ⟨r, by rw [h.keyed hj, hj], by simpa using hp⟩
  · rintro ⟨r, hr, hp⟩
    refine ⟨r, ?_, h.keyed hr⟩
    rw [TaskScheduler.tasksInState, List.mem_filter, TaskIndex.mem_iterInOrder h]
    exact ⟨⟨i, hr⟩, by simpa using hp⟩

theorem promotePendingTasks_promoted {s : TaskScheduler} (h : Accounted s) (now : Clock) :
    Promoted s (s.promotePendingTasks now) ∧ Settled (s.promotePendingTasks now) := by
  unfold TaskScheduler.promotePendingTasks
  have hmem (i : TaskId) : i ∈ (s.tasksInState .pending).map TaskRecord.taskId ↔
      ∃ r, s.index.get i = some r ∧ r.state = .pending :=
    mem_map_tasksInState h.index
  have hstate : ∀ i ∈ (s.tasksInState .pending).map TaskRecord.taskId,
      ∀ r, s.index.get i = some r → r.state = .pending ∨ r.state = .queued := by
    intro i hi r hr
    obtain ⟨t, ht, hp⟩ := (hmem i).mp hi
    rw [hr] at ht
    cases ht
    exact .inl hp
  obtain ⟨hpromoted, hall⟩ := promoteLoop_promoted h _ now hstate
  refine ⟨hpromoted, fun i r hr hp => ?_⟩
  exact hall i ((hmem i).mpr ⟨r, hpromoted.get_pending hr hp, hp⟩) r hr hp

/-! ## The calls -/

variable {s : TaskScheduler}

theorem submit_effect (h : Accounted s) (id : TaskId) (spec : TaskSpec) (now : Clock) :
    Effect s (.submit id spec now) (.done (s.submit id spec now).1)
      (s.submit id spec now).2 := by
  unfold TaskScheduler.submit
  split
  · exact .refused (.done _)
  · next hcontains =>
      have hnew : s.index.get id = none := by
        simpa [TaskIndex.contains_eq_isSome] using hcontains
      dsimp only
      split
      · exact .refused (.done _)
      · split
        · exact .refused (.done _)
        · next hfind =>
            have hexist : ∀ p ∈ spec.dependencies, (s.index.get p).isSome := by
              intro p hp
              have := List.find?_eq_none.mp hfind p hp
              simpa [TaskIndex.contains_eq_isSome, Option.isSome_iff_ne_none] using this
            have hinsert : s.index.insert id spec (now 0) =
                .ok (s.index.push id spec (now 0)) := by
              rw [TaskIndex.insert, if_neg hcontains]
            rw [hinsert]
            dsimp only
            split
            · next hdeps =>
                have hregister := h.register hnew spec (now 0)
                have hget : (s.register id spec (now 0)).index.get id =
                    some (TaskRecord.new id spec (s.index.seq + 1) (now 0)) := by
                  change (s.index.push id spec (now 0)).get id = _
                  rw [TaskIndex.get_push, if_pos rfl]
                obtain ⟨t, ht⟩ := TaskScheduler.transition_isOk hget .queued
                  (by simp [TaskRecord.new, TaskState.canTransitionTo]) (now 1)
                obtain ⟨r, r', hm, -, hq⟩ := transition_queued hregister ht
                have hr : r = TaskRecord.new id spec (s.index.seq + 1) (now 0) :=
                  Option.some.inj (hm.found.symm.trans hget)
                change ({ s with index := s.index.push id spec (now 0) } :
                  TaskScheduler).transition id .queued (now 1) = .ok t at ht
                rw [ht]
                exact .queued hnew hexist hdeps (hr ▸ hm) hq
            · next hdeps =>
                exact .registered hnew hexist (by simpa using hdeps)

theorem nextReady_none (h : Accounted s) (hpos : s.readyQueue.findIdx? s.eligible = none)
    (w : String) (now : Clock) : s.nextReady w now = (none, s) := by
  unfold TaskScheduler.nextReady
  rw [h.sortReadyQueue]
  dsimp only
  rw [hpos]

theorem nextReady_found (h : Accounted s) {pos : ℕ} {e : ReadyEntry}
    (hpos : s.readyQueue.findIdx? s.eligible = some pos) (hget : s.readyQueue[pos]? = some e)
    (w : String) (now : Clock) :
    ∃ r r' lease s', s.nextReady w now = (some (r', lease), s') ∧
      Moved s s' e.taskId r r' ∧ r.state = .queued ∧ r'.state = .running ∧
      lease.taskId = e.taskId ∧
      s.runningFor r.spec.dimensionId < (s.quotaFor r.spec.dimensionId).maxConcurrent := by
  obtain ⟨hlt, helig, -⟩ := List.findIdx?_eq_some_iff_getElem.mp hpos
  obtain ⟨_, hentry⟩ := List.getElem?_eq_some_iff.mp hget
  rw [hentry] at helig
  obtain ⟨r, hr, hq, -⟩ := h.mem_queue.mp (List.mem_of_getElem? hget)
  have hslot : s.runningFor r.spec.dimensionId <
      (s.quotaFor r.spec.dimensionId).maxConcurrent := by
    rw [TaskScheduler.eligible, hr] at helig
    simpa using helig
  obtain ⟨t, ht⟩ := TaskScheduler.transition_isOk
    (s := { s with readyQueue := s.readyQueue.eraseIdx pos }) hr .running
    (by simp [hq, TaskState.canTransitionTo]) (now 0)
  obtain ⟨r₀, hr₀, -, htdef⟩ := TaskScheduler.transition_ok ht
  have hsame : r₀ = r := Option.some.inj (hr₀.symm.trans hr)
  subst hsame
  rw [if_neg (by simp), if_pos rfl] at htdef
  have htget : t.index.get e.taskId =
      some { r₀ with state := .running, updatedAtMs := now 0 } := by
    rw [htdef]
    exact TaskIndex.get_set_self _ _ _
  set lease := TaskLease.new e.taskId w t.leaseDurationMs (now 1) with hlease
  set r' : TaskRecord :=
    { r₀ with
      state := .running, updatedAtMs := now 0, lease := some lease,
      attempt := r₀.attempt + 1 } with hr'
  have hm : Moved s (t.setRecord e.taskId r') e.taskId r₀ r' := by
    rw [htdef]
    refine moved_handOut h hr ?_ ?_ ?_ hq ?_ hget rfl _ hslot <;> rfl
  refine ⟨r₀, r', lease, _, ?_, hm, hq, rfl, rfl, hslot⟩
  unfold TaskScheduler.nextReady
  rw [h.sortReadyQueue]
  dsimp only
  rw [hpos]
  dsimp only
  rw [hget]
  dsimp only
  rw [ht]
  dsimp only
  rw [htget]

theorem nextReady_effect (h : Accounted s) (w : String) (now : Clock) :
    Effect s (.nextReady w now) (.handed (s.nextReady w now).1) (s.nextReady w now).2 := by
  cases hpos : s.readyQueue.findIdx? s.eligible with
  | none =>
      rw [nextReady_none h hpos]
      exact .refused .handed
  | some pos =>
      obtain ⟨hlt, -⟩ := List.findIdx?_eq_some_iff_getElem.mp hpos
      obtain ⟨r, r', lease, s', heq, hm, hq, hrun, -, hslot⟩ :=
        nextReady_found h hpos (List.getElem?_eq_getElem hlt) w now
      rw [heq]
      exact .handed hm hq hrun hslot

theorem renewLease_effect (h : Accounted s) (id : TaskId) (now : Clock) :
    Effect s (.renewLease id now) (.lease (s.renewLease id now).1)
      (s.renewLease id now).2 := by
  unfold TaskScheduler.renewLease
  split
  · exact .refused (.lease _)
  · next r hr =>
      split
      · exact .refused (.lease _)
      · split
        · exact .renewed (moved_touch h hr rfl rfl rfl rfl) rfl
        · exact .refused (.lease _)

/-- A transition of an accounted scheduler that takes a running task off its
slot, together with the counter update that follows it in the source. -/
theorem transition_release (h : Accounted s) {t : TaskScheduler} {id : TaskId}
    {next : TaskState} {now : UInt64} (ht : s.transition id next now = .ok t)
    (hnext : next = .completed ∨ next = .failed ∨ next = .paused) :
    ∃ r, r.state = .running ∧ t.index.get id = some { r with state := next, updatedAtMs := now } ∧
      s.dimensionOf id = r.spec.dimensionId ∧
      t.dimensionOf id = r.spec.dimensionId ∧
      Moved s (t.decrementRunning r.spec.dimensionId) id r
        { r with state := next, updatedAtMs := now } := by
  obtain ⟨r, hr, hcan, htdef⟩ := TaskScheduler.transition_ok ht
  have hrun : r.state = .running := by
    rcases hnext with rfl | rfl | rfl <;>
      cases hstate : r.state <;> simp [hstate, TaskState.canTransitionTo] at hcan ⊢
  have hq : next ≠ .queued := by
    rcases hnext with rfl | rfl | rfl <;> simp
  have hr' : next ≠ .running := by
    rcases hnext with rfl | rfl | rfl <;> simp
  rw [if_neg hq, if_neg hr'] at htdef
  subst htdef
  refine ⟨r, hrun, TaskIndex.get_set_self _ _ _, ?_, ?_, ?_⟩
  · rw [TaskScheduler.dimensionOf, hr]
    rfl
  · rw [TaskScheduler.dimensionOf, TaskScheduler.index_setRecord, TaskIndex.get_set_self]
    rfl
  · exact moved_release h hr rfl rfl rfl hrun hq hr'

theorem complete_effect (h : Accounted s) (id : TaskId) (now : Clock) :
    Effect s (.complete id now) (.done (s.complete id now).1) (s.complete id now).2 := by
  unfold TaskScheduler.complete
  split
  · exact .refused (.done _)
  · next t ht =>
      obtain ⟨r, hrun, -, -, hdim, hm⟩ := transition_release h ht (by simp)
      rw [hdim]
      obtain ⟨hpromoted, hsettled⟩ :=
        promotePendingTasks_promoted (hm.accounted h) fun k => now (k + 1)
      exact .completed hm hrun rfl hpromoted hsettled

theorem pause_effect (h : Accounted s) (id : TaskId) (now : Clock) :
    Effect s (.pause id now) (.done (s.pause id now).1) (s.pause id now).2 := by
  unfold TaskScheduler.pause
  dsimp only
  split
  · exact .refused (.done _)
  · next t ht =>
      obtain ⟨r, hrun, -, hdim, -, hm⟩ := transition_release h ht (by simp)
      rw [hdim]
      exact .paused hm hrun rfl

theorem resume_effect (h : Accounted s) (id : TaskId) (now : Clock) :
    Effect s (.resume id now) (.done (s.resume id now).1) (s.resume id now).2 := by
  unfold TaskScheduler.resume
  split
  · exact .refused (.done _)
  · next t ht =>
      obtain ⟨r, r', hm, hcan, hq⟩ := transition_queued h ht
      exact .resumed hm hcan hq

theorem cancel_effect (h : Accounted s) (id : TaskId) (now : Clock) :
    Effect s (.cancel id now) (.done (s.cancel id now).1) (s.cancel id now).2 := by
  unfold TaskScheduler.cancel
  dsimp only
  split
  · exact .refused (.done _)
  · next t ht =>
      obtain ⟨r, hr, hcan, htdef⟩ := TaskScheduler.transition_ok ht
      rw [if_neg (by simp), if_neg (by simp)] at htdef
      subst htdef
      have hdim : s.dimensionOf id = r.spec.dimensionId := by
        rw [TaskScheduler.dimensionOf, hr]
        rfl
      rw [hr, hdim]
      set r' : TaskRecord := { r with state := .cancelled, updatedAtMs := now 0 } with hr'
      by_cases hrun : r.state = .running
      · have hm : Moved s ((s.setRecord id r').decrementRunning r.spec.dimensionId) id r r' :=
          moved_release h hr rfl rfl rfl hrun (by simp [hr']) (by simp [hr'])
        have hqueue : s.readyQueue.filter (fun e => e.taskId ≠ id) = s.readyQueue :=
          h.filter_queue hr (by simp [hrun])
        have hm' : Moved s { (s.setRecord id r').decrementRunning r.spec.dimensionId with
            readyQueue := s.readyQueue.filter fun e => e.taskId ≠ id } id r r' := by
          rw [hqueue]
          exact hm
        simp only [Option.map_some, Option.getD_some, hrun, decide_true, if_true]
        exact .cancelled hm' hcan rfl
      · have hm : Moved s { s.setRecord id r' with
            readyQueue := s.readyQueue.filter fun e => e.taskId ≠ id } id r r' :=
          moved_withdraw h hr rfl rfl rfl hrun (by simp [hr']) (by simp [hr'])
        simp only [Option.map_some, Option.getD_some, hrun, decide_false]
        exact .cancelled hm hcan rfl

theorem fail_effect (h : Accounted s) (id : TaskId) (reason : String) (now : Clock) :
    Effect s (.fail id reason now) (.done (s.fail id reason now).1)
      (s.fail id reason now).2 := by
  unfold TaskScheduler.fail TaskScheduler.markFailed
  split
  · exact .refused (.done _)
  · next r hr =>
      cases ht : s.transition id .failed (now 0) with
      | error e => exact .refused (.done _)
      | ok t =>
          obtain ⟨r₀, hrun, hget, hdim, -, hm⟩ := transition_release h ht (by simp)
          have hsame : r₀ = r := Option.some.inj (hm.found.symm.trans hr)
          subst hsame
          dsimp only
          rw [hget]
          dsimp only
          set r' : TaskRecord := { r₀ with state := .failed, updatedAtMs := now 0 } with hr'
          set r'' : TaskRecord := { r' with failureReason := some reason } with hr''
          have hget' : (t.decrementRunning r₀.spec.dimensionId).index.get id = some r' := hget
          have htouch : Moved (t.decrementRunning r₀.spec.dimensionId)
              ((t.setRecord id r'').decrementRunning r₀.spec.dimensionId) id r' r'' :=
            moved_touch (hm.accounted h) hget' rfl rfl rfl rfl
          split
          · next hmore =>
              have hacc := htouch.accounted (hm.accounted h)
              have hget'' : ((t.setRecord id r'').decrementRunning
                  r₀.spec.dimensionId).index.get id = some r'' := by
                rw [htouch.get, if_pos rfl]
              obtain ⟨u, hu⟩ := TaskScheduler.transition_isOk hget'' .queued rfl (now 1)
              obtain ⟨r₂, r₃, hm₃, -, hq⟩ := transition_queued hacc hu
              have hsame : r₂ = r'' := Option.some.inj (hm₃.found.symm.trans hget'')
              subst hsame
              rw [hu]
              exact .retried hm hrun rfl htouch rfl hm₃ hq hmore
          · next hlast => exact .failed hm hrun rfl htouch rfl hlast

theorem step_effect (h : Accounted s) (op : Op) :
    Effect s op (s.step op).1 (s.step op).2 := by
  cases op with
  | setQuota dim quota => exact .quota dim quota
  | submit id spec now => exact submit_effect h id spec now
  | nextReady w now => exact nextReady_effect h w now
  | renewLease id now => exact renewLease_effect h id now
  | complete id now => exact complete_effect h id now
  | fail id reason now => exact fail_effect h id reason now
  | cancel id now => exact cancel_effect h id now
  | pause id now => exact pause_effect h id now
  | resume id now => exact resume_effect h id now

theorem Effect.accounted {op : Op} {answer : Answer} {s' : TaskScheduler}
    (he : Effect s op answer s') (h : Accounted s) : Accounted s' := by
  cases he with
  | quota dim quota => exact ⟨h.index, h.queue, h.sorted, h.running⟩
  | refused _ => exact h
  | registered hnew _ _ => exact h.register hnew _ _
  | queued hnew _ _ hm _ => exact hm.accounted (h.register hnew _ _)
  | handed hm _ _ _ => exact hm.accounted h
  | renewed hm _ => exact hm.accounted h
  | completed hm _ _ hpromoted _ => exact hpromoted.accounted (hm.accounted h)
  | failed hm _ _ htouch _ _ => exact htouch.accounted (hm.accounted h)
  | retried hm _ _ htouch _ hrequeue _ _ =>
      exact hrequeue.accounted (htouch.accounted (hm.accounted h))
  | cancelled hm _ _ => exact hm.accounted h
  | paused hm _ _ => exact hm.accounted h
  | resumed hm _ _ => exact hm.accounted h

theorem accounted_step (op : Op) (h : Accounted s) : Accounted (s.step op).2 :=
  (step_effect h op).accounted h

end Scheduler

end InfinityOS
