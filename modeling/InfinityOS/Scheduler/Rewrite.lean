import InfinityOS.Scheduler.Dispatch

/-!
# What a call makes of the records

A restored snapshot can leave the ready queue and the counters behind the records, and then
`Effect` says nothing. `Rewrites s op answer x` lists what a call makes of the task index of
any scheduler: the record that is written, with all its fields, and the guard under which it
is. A call that could be applied to its task is not refused.
-/

namespace InfinityOS

namespace Scheduler

open Transition

def TaskRecord.inState (r : TaskRecord) (state : TaskState) (now : UInt64) : TaskRecord :=
  { r with state := state, updatedAtMs := now }

def TaskRecord.started (r : TaskRecord) (lease : TaskLease) (now : UInt64) : TaskRecord :=
  { r.inState .running now with lease := some lease, attempt := r.attempt + 1 }

def TaskRecord.broken (r : TaskRecord) (reason : String) (now : UInt64) : TaskRecord :=
  { r.inState .failed now with failureReason := some reason }

namespace TaskScheduler

def Promotable (s : TaskScheduler) (r : TaskRecord) : Prop :=
  r.state = .pending ∧ s.allDepsCompleted r.spec.dependencies = true

end TaskScheduler

/-- The promotable tasks of `s`, and no others, are moved to the queue in `t`. -/
structure Promotes (s t : TaskScheduler) : Prop where
  order : t.index.insertionOrder = s.index.insertionOrder
  moved : ∀ i r, s.index.get i = some r → s.Promotable r →
    ∃ now, t.index.get i = some (r.inState .queued now)
  kept : ∀ i, (∀ r, s.index.get i = some r → ¬ s.Promotable r) → t.index.get i = s.index.get i

def Op.Applies (s : TaskScheduler) : Op → Prop
  | .complete id _ => s.stateOf id = some .running
  | .fail id _ _ => s.stateOf id = some .running
  | .pause id _ => s.stateOf id = some .running
  | .cancel id _ => ∃ r, s.index.get id = some r ∧ r.state.canTransitionTo .cancelled = true
  | .resume id _ => ∃ r, s.index.get id = some r ∧ r.state.canTransitionTo .queued = true
  | _ => False

inductive Rewrites (s : TaskScheduler) : Op → Answer → TaskIndex → Prop
  | quota (dim : DimensionId) (quota : DimensionQuota) :
      Rewrites s (.setQuota dim quota) .unit s.index
  | refused {op : Op} {answer : Answer} (h : answer.Refusal) (hnot : ¬ op.Applies s) :
      Rewrites s op answer s.index
  | registered {id : TaskId} {spec : TaskSpec} {now : Clock} (hnew : s.index.get id = none) :
      Rewrites s (.submit id spec now) (.done (.ok ())) (s.index.push id spec (now 0))
  | queued {id : TaskId} {spec : TaskSpec} {now : Clock} (hnew : s.index.get id = none)
      (hroom : UInt32.ofNat (s.index.iterInOrder.countP fun r =>
        r.spec.dimensionId = spec.dimensionId ∧ r.state = .queued) <
          (s.quotaFor spec.dimensionId).maxQueued) :
      Rewrites s (.submit id spec now) (.done (.ok ()))
        ((s.index.push id spec (now 0)).set id
          ((TaskRecord.new id spec (s.index.seq + 1) (now 0)).inState .queued (now 1)))
  | handed {w : String} {now : Clock} {id : TaskId} {r : TaskRecord} {lease : TaskLease}
      (hr : s.index.get id = some r) (hqueued : r.state = .queued) (hlease : lease.taskId = id) :
      Rewrites s (.nextReady w now) (.handed (some (r.started lease (now 0), lease)))
        (s.index.set id (r.started lease (now 0)))
  | renewed {id : TaskId} {now : Clock} {r : TaskRecord} {old lease : TaskLease}
      (hr : s.index.get id = some r) (hlease : r.lease = some old) :
      Rewrites s (.renewLease id now) (.lease (.ok lease))
        (s.index.set id { r with lease := some lease })
  | completed {id : TaskId} {now : Clock} {r : TaskRecord} {m t : TaskScheduler}
      (hr : s.index.get id = some r) (hrunning : r.state = .running)
      (hm : m.index = s.index.set id (r.inState .completed (now 0))) (hpromotes : Promotes m t) :
      Rewrites s (.complete id now) (.done (.ok ())) t.index
  | failed {id : TaskId} {reason : String} {now : Clock} {r : TaskRecord}
      (hr : s.index.get id = some r) (hrunning : r.state = .running)
      (hlast : ¬ r.attempt < r.spec.retryPolicy.maxAttempts) :
      Rewrites s (.fail id reason now) (.done (.ok ()))
        (s.index.set id (r.broken reason (now 0)))
  | retried {id : TaskId} {reason : String} {now : Clock} {r : TaskRecord}
      (hr : s.index.get id = some r) (hrunning : r.state = .running)
      (hmore : r.attempt < r.spec.retryPolicy.maxAttempts) :
      Rewrites s (.fail id reason now) (.done (.ok ()))
        (s.index.set id ((r.broken reason (now 0)).inState .queued (now 1)))
  | cancelled {id : TaskId} {now : Clock} {r : TaskRecord} (hr : s.index.get id = some r)
      (hcan : r.state.canTransitionTo .cancelled = true) :
      Rewrites s (.cancel id now) (.done (.ok ()))
        (s.index.set id (r.inState .cancelled (now 0)))
  | paused {id : TaskId} {now : Clock} {r : TaskRecord} (hr : s.index.get id = some r)
      (hrunning : r.state = .running) :
      Rewrites s (.pause id now) (.done (.ok ())) (s.index.set id (r.inState .paused (now 0)))
  | resumed {id : TaskId} {now : Clock} {r : TaskRecord} (hr : s.index.get id = some r)
      (hcan : r.state.canTransitionTo .queued = true) :
      Rewrites s (.resume id now) (.done (.ok ())) (s.index.set id (r.inState .queued (now 0)))

/-! ## Transitions and promotion -/

variable {s s' : TaskScheduler} {id : TaskId}

theorem transition_rewrites {next : TaskState} {now : UInt64}
    (h : s.transition id next now = .ok s') :
    ∃ r, s.index.get id = some r ∧ r.state.canTransitionTo next = true ∧
      s'.index = s.index.set id (r.inState next now) ∧ s'.quotas = s.quotas := by
  obtain ⟨r, hr, hcan, hs'⟩ := TaskScheduler.transition_ok h
  refine ⟨r, hr, hcan, ?_⟩
  rw [hs']
  split_ifs
  · exact ⟨rfl, rfl⟩
  · exact ⟨rfl, rfl⟩
  · exact ⟨rfl, rfl⟩

theorem transition_error {next : TaskState} {now : UInt64} {e : SchedulerError}
    (h : s.transition id next now = .error e) {r : TaskRecord}
    (hr : s.index.get id = some r) : r.state.canTransitionTo next = false := by
  by_contra hcan
  obtain ⟨t, ht⟩ := TaskScheduler.transition_isOk hr next (by simpa using hcan) now
  rw [h] at ht
  cases ht

theorem not_exists_of_transition_error {next : TaskState} {now : UInt64} {e : SchedulerError}
    (h : s.transition id next now = .error e) :
    ¬ ∃ r, s.index.get id = some r ∧ r.state.canTransitionTo next = true := by
  rintro ⟨r, hr, hcan⟩
  rw [transition_error h hr] at hcan
  cases hcan

theorem stateOf_ne_of_transition_error {next state : TaskState} {now : UInt64}
    {e : SchedulerError} (h : s.transition id next now = .error e)
    (hcan : state.canTransitionTo next = true) : s.stateOf id ≠ some state := by
  intro hstate
  obtain ⟨r, hr, hsame⟩ := Option.map_eq_some_iff.mp hstate
  have hnot := transition_error h hr
  rw [hsame, hcan] at hnot
  cases hnot

theorem TaskState.eq_running_of_canTransitionTo {state next : TaskState}
    (hnext : next = .completed ∨ next = .failed ∨ next = .paused)
    (hcan : state.canTransitionTo next = true) : state = .running := by
  rcases hnext with rfl | rfl | rfl
  · cases state <;> first | rfl | cases hcan
  · cases state <;> first | rfl | cases hcan
  · cases state <;> first | rfl | cases hcan

/-- `Promotes` for the tasks of a list. -/
structure PromotesIn (ids : List TaskId) (s t : TaskScheduler) : Prop where
  order : t.index.insertionOrder = s.index.insertionOrder
  quotas : t.quotas = s.quotas
  deps : ∀ deps, t.allDepsCompleted deps = s.allDepsCompleted deps
  moved : ∀ i ∈ ids, ∀ r, s.index.get i = some r → s.Promotable r →
    ∃ now, t.index.get i = some (r.inState .queued now)
  kept : ∀ i, (i ∈ ids → ∀ r, s.index.get i = some r → ¬ s.Promotable r) →
    t.index.get i = s.index.get i

theorem PromotesIn.nil (s : TaskScheduler) : PromotesIn [] s s where
  order := rfl
  quotas := rfl
  deps _ := rfl
  moved _ hi := absurd hi List.not_mem_nil
  kept _ _ := rfl

theorem PromotesIn.cons {ids : List TaskId} {m t : TaskScheduler} (h : PromotesIn [id] s m)
    (hrest : PromotesIn ids m t) : PromotesIn (id :: ids) s t where
  order := hrest.order.trans h.order
  quotas := hrest.quotas.trans h.quotas
  deps deps := (hrest.deps deps).trans (h.deps deps)
  moved i hi r hr hp := by
    by_cases hid : i = id
    · subst hid
      obtain ⟨now, hm⟩ := h.moved i List.mem_cons_self r hr hp
      refine ⟨now, ?_⟩
      rw [hrest.kept i, hm]
      -- the record is queued now, so its second turn finds nothing to do
      intro _ r' hr' hp'
      rw [hm] at hr'
      cases hr'
      cases hp'.1
    · have hm : m.index.get i = s.index.get i :=
        h.kept i fun hmem => absurd (List.mem_singleton.mp hmem) hid
      apply hrest.moved i (List.mem_of_ne_of_mem hid hi) r (hm.trans hr)
      exact ⟨hp.1, (h.deps _).trans hp.2⟩
  kept i hi := by
    have hm : m.index.get i = s.index.get i :=
      h.kept i fun hmem => hi (List.mem_cons.mpr (.inl (List.mem_singleton.mp hmem)))
    rw [hrest.kept i, hm]
    intro hmem r hr hp
    apply hi (List.mem_cons_of_mem id hmem) r (hm ▸ hr)
    exact ⟨hp.1, (h.deps _).symm.trans hp.2⟩

theorem allDepsCompleted_set {t : TaskScheduler} {r r' : TaskRecord}
    (hr : s.index.get id = some r) (ht : t.index = s.index.set id r')
    (hsame : r'.state = .completed ↔ r.state = .completed) (deps : List TaskId) :
    t.allDepsCompleted deps = s.allDepsCompleted deps := by
  rw [Bool.eq_iff_iff, allDepsCompleted_iff, allDepsCompleted_iff]
  apply forall₂_congr
  intro p _
  rw [ht, TaskIndex.get_set]
  split
  · next hp => simp [hp, hr, hsame]
  · rfl

theorem promoteOne_promotesIn (now : UInt64)
    (hstate : ∀ r, s.index.get id = some r → r.state = .pending ∨ r.state = .queued) :
    PromotesIn [id] s (s.promoteOne id now) := by
  have stays (hnot : ∀ r, s.index.get id = some r → ¬ s.Promotable r) : PromotesIn [id] s s :=
    { order := rfl
      quotas := rfl
      deps := fun _ => rfl
      moved := fun i hi r hr hp => absurd hp (hnot r (List.mem_singleton.mp hi ▸ hr))
      kept := fun _ _ => rfl }
  unfold TaskScheduler.promoteOne
  dsimp only
  split
  · next hdeps =>
      split
      · next t ht =>
          obtain ⟨r, hr, hcan, hindex, hquotas⟩ := transition_rewrites ht
          have hpending : r.state = .pending := by
            rcases hstate r hr with hp | hq
            · exact hp
            · rw [hq] at hcan
              cases hcan
          refine ⟨?_, hquotas, ?_, ?_, ?_⟩
          · rw [hindex]
            rfl
          · apply allDepsCompleted_set hr hindex
            simp [TaskRecord.inState, hpending]
          · intro i hi u hu _
            obtain rfl := List.mem_singleton.mp hi
            rw [hr] at hu
            cases hu
            exact ⟨now, by rw [hindex, TaskIndex.get_set_self]⟩
          · intro i hi
            rw [hindex, TaskIndex.get_set, if_neg]
            rintro rfl
            apply hi List.mem_cons_self r hr
            exact ⟨hpending, by simpa [hr] using hdeps⟩
      · next e he =>
          apply stays
          intro r hr hp
          have hcan := transition_error he hr
          rw [hp.1] at hcan
          cases hcan
  · next hdeps =>
      apply stays
      intro r hr hp
      apply hdeps
      simpa [hr] using hp.2

theorem promoteLoop_promotesIn (ids : List TaskId) (now : Clock)
    (hstate : ∀ i ∈ ids, ∀ r, s.index.get i = some r → r.state = .pending ∨ r.state = .queued) :
    PromotesIn ids s (s.promoteLoop ids now) := by
  induction ids generalizing s now with
  | nil => exact .nil s
  | cons id ids ih =>
      have hone := promoteOne_promotesIn (now 0) (hstate id List.mem_cons_self)
      apply hone.cons
      apply ih
      intro i hi r hr
      by_cases hmoved : i = id ∧ ∃ u, s.index.get i = some u ∧ s.Promotable u
      · obtain ⟨rfl, u, hu, hp⟩ := hmoved
        obtain ⟨now', hget⟩ := hone.moved i List.mem_cons_self u hu hp
        rw [hget] at hr
        cases hr
        exact .inr rfl
      · rw [hone.kept i] at hr
        · exact hstate i (List.mem_cons_of_mem id hi) r hr
        · intro hmem u hu hp
          exact hmoved ⟨List.mem_singleton.mp hmem, u, hu, hp⟩

theorem promotePendingTasks_promotes (hx : s.index.WellFormed) (now : Clock) :
    Promotes s (s.promotePendingTasks now) ∧ (s.promotePendingTasks now).quotas = s.quotas := by
  have h : PromotesIn ((s.tasksInState .pending).map TaskRecord.taskId) s
      (s.promotePendingTasks now) := by
    apply promoteLoop_promotesIn
    intro i hi r hr
    obtain ⟨u, hu, hp⟩ := (mem_map_tasksInState hx).mp hi
    rw [hr] at hu
    cases hu
    exact .inl hp
  refine ⟨⟨h.order, ?_, ?_⟩, h.quotas⟩
  · intro i r hr hp
    exact h.moved i ((mem_map_tasksInState hx).mpr ⟨r, hr, hp.1⟩) r hr hp
  · intro i hi
    exact h.kept i fun _ => hi

/-! ## The calls -/

theorem submit_rewrites (s : TaskScheduler) (id : TaskId) (spec : TaskSpec) (now : Clock) :
    Rewrites s (.submit id spec now) (.done (s.submit id spec now).1)
        (s.submit id spec now).2.index ∧
      (s.submit id spec now).2.quotas = s.quotas := by
  have refused (e : SchedulerError) :
      Rewrites s (.submit id spec now) (.done (.error e)) s.index ∧ s.quotas = s.quotas :=
    ⟨.refused (.done e) fun h => h, rfl⟩
  unfold TaskScheduler.submit
  split
  · exact refused _
  · next hcontains =>
      have hnew : s.index.get id = none := by
        simpa [TaskIndex.contains_eq_isSome] using hcontains
      dsimp only
      split
      · exact refused _
      · next hroom =>
          split
          · exact refused _
          · have hinsert : s.index.insert id spec (now 0) =
                .ok (s.index.push id spec (now 0)) := by
              rw [TaskIndex.insert, if_neg hcontains]
            rw [hinsert]
            dsimp only
            split
            · have hget : (s.register id spec (now 0)).index.get id =
                  some (TaskRecord.new id spec (s.index.seq + 1) (now 0)) := by
                change (s.index.push id spec (now 0)).get id = _
                rw [TaskIndex.get_push, if_pos rfl]
              obtain ⟨t, ht⟩ := TaskScheduler.transition_isOk hget .queued rfl (now 1)
              obtain ⟨r, hr, -, hindex, hquotas⟩ := transition_rewrites ht
              rw [hget] at hr
              cases hr
              change ({ s with index := s.index.push id spec (now 0) } :
                TaskScheduler).transition id .queued (now 1) = .ok t at ht
              rw [ht]
              dsimp only
              rw [hindex]
              exact ⟨.queued hnew (by simpa using hroom), hquotas⟩
            · exact ⟨.registered hnew, rfl⟩

theorem nextReady_rewrites (s : TaskScheduler) (w : String) (now : Clock) :
    Rewrites s (.nextReady w now) (.handed (s.nextReady w now).1)
        (s.nextReady w now).2.index ∧
      (s.nextReady w now).2.quotas = s.quotas := by
  have refused (q : List ReadyEntry) : Rewrites s (.nextReady w now) (.handed none)
      ({ s with readyQueue := q } : TaskScheduler).index ∧ s.quotas = s.quotas :=
    ⟨.refused .handed fun h => h, rfl⟩
  unfold TaskScheduler.nextReady
  dsimp only
  split
  · exact refused _
  · split
    · exact refused _
    · next entry hentry =>
        split
        · exact refused _
        · next t ht =>
            obtain ⟨r, hr, hcan, hindex, hquotas⟩ := transition_rewrites ht
            have hget : t.index.get entry.taskId = some (r.inState .running (now 0)) := by
              rw [hindex]
              exact TaskIndex.get_set_self _ _ _
            have hqueued : r.state = .queued := by
              cases hstate : r.state <;> rw [hstate] at hcan <;> first | rfl | cases hcan
            rw [hget]
            dsimp only
            rw [TaskScheduler.index_setRecord, hindex, TaskIndex.set_set]
            exact ⟨.handed hr hqueued rfl, hquotas⟩

theorem renewLease_rewrites (s : TaskScheduler) (id : TaskId) (now : Clock) :
    Rewrites s (.renewLease id now) (.lease (s.renewLease id now).1)
        (s.renewLease id now).2.index ∧
      (s.renewLease id now).2.quotas = s.quotas := by
  have refused (e : SchedulerError) :
      Rewrites s (.renewLease id now) (.lease (.error e)) s.index ∧ s.quotas = s.quotas :=
    ⟨.refused (.lease e) fun h => h, rfl⟩
  unfold TaskScheduler.renewLease
  split
  · exact refused _
  · next r hr =>
      split
      · exact refused _
      · next old hold =>
          split
          · exact ⟨.renewed hr hold, rfl⟩
          · exact refused _

theorem complete_rewrites (hx : s.index.WellFormed) (id : TaskId) (now : Clock) :
    Rewrites s (.complete id now) (.done (s.complete id now).1) (s.complete id now).2.index ∧
      (s.complete id now).2.quotas = s.quotas := by
  unfold TaskScheduler.complete
  split
  · next e he =>
      exact ⟨.refused (.done e) (stateOf_ne_of_transition_error he rfl), rfl⟩
  · next t ht =>
      obtain ⟨r, hr, hcan, hindex, hquotas⟩ := transition_rewrites ht
      have hrunning := TaskState.eq_running_of_canTransitionTo (.inl rfl) hcan
      have hwf : (t.decrementRunning (t.dimensionOf id)).index.WellFormed := by
        change t.index.WellFormed
        rw [hindex]
        exact hx.set hr rfl
      obtain ⟨hpromotes, hpromoted⟩ := promotePendingTasks_promotes hwf fun k => now (k + 1)
      exact ⟨.completed (m := t.decrementRunning (t.dimensionOf id)) hr hrunning hindex hpromotes,
        hpromoted.trans hquotas⟩

theorem fail_rewrites (s : TaskScheduler) (id : TaskId) (reason : String) (now : Clock) :
    Rewrites s (.fail id reason now) (.done (s.fail id reason now).1)
        (s.fail id reason now).2.index ∧
      (s.fail id reason now).2.quotas = s.quotas := by
  unfold TaskScheduler.fail TaskScheduler.markFailed
  split
  · next hnone =>
      refine ⟨.refused (.done _) ?_, rfl⟩
      intro hrunning
      obtain ⟨r, hr, -⟩ := Option.map_eq_some_iff.mp hrunning
      rw [hnone] at hr
      cases hr
  · next r hr =>
      cases ht : s.transition id .failed (now 0) with
      | error e =>
          exact ⟨.refused (.done e) (stateOf_ne_of_transition_error ht rfl), rfl⟩
      | ok t =>
          obtain ⟨u, hu, hcan, hindex, hquotas⟩ := transition_rewrites ht
          rw [hr] at hu
          cases hu
          have hrunning := TaskState.eq_running_of_canTransitionTo (.inr (.inl rfl)) hcan
          have hget : t.index.get id = some (r.inState .failed (now 0)) := by
            rw [hindex]
            exact TaskIndex.get_set_self _ _ _
          dsimp only
          rw [hget]
          dsimp only
          have hbroken : (t.setRecord id (r.broken reason (now 0))).index =
              s.index.set id (r.broken reason (now 0)) := by
            rw [TaskScheduler.index_setRecord, hindex, TaskIndex.set_set]
          split
          · next hmore =>
              have hget' : ((t.setRecord id (r.broken reason (now 0))).decrementRunning
                  r.spec.dimensionId).index.get id = some (r.broken reason (now 0)) :=
                TaskIndex.get_set_self _ _ _
              obtain ⟨u, hu⟩ := TaskScheduler.transition_isOk hget' .queued rfl (now 1)
              obtain ⟨r', hr', -, hindex', hquotas'⟩ := transition_rewrites hu
              rw [hget'] at hr'
              cases hr'
              rw [TaskScheduler.index_decrementRunning, hbroken, TaskIndex.set_set] at hindex'
              change ((t.setRecord id (r.broken reason (now 0))).decrementRunning
                r.spec.dimensionId).transition id .queued (now 1) = .ok u at hu
              rw [show ({ r.inState .failed (now 0) with failureReason := some reason } :
                TaskRecord) = r.broken reason (now 0) from rfl, hu]
              dsimp only
              rw [hindex']
              exact ⟨.retried hr hrunning hmore, hquotas'.trans hquotas⟩
          · next hlast =>
              have hdone : Rewrites s (.fail id reason now) (.done (.ok ()))
                  (s.index.set id (r.broken reason (now 0))) := .failed hr hrunning hlast
              rw [← hbroken] at hdone
              exact ⟨hdone, hquotas⟩

theorem cancel_rewrites (s : TaskScheduler) (id : TaskId) (now : Clock) :
    Rewrites s (.cancel id now) (.done (s.cancel id now).1) (s.cancel id now).2.index ∧
      (s.cancel id now).2.quotas = s.quotas := by
  unfold TaskScheduler.cancel
  dsimp only
  split
  · next e he =>
      exact ⟨.refused (.done e) (not_exists_of_transition_error he), rfl⟩
  · next t ht =>
      obtain ⟨r, hr, hcan, hindex, hquotas⟩ := transition_rewrites ht
      have hdone : Rewrites s (.cancel id now) (.done (.ok ()))
          (s.index.set id (r.inState .cancelled (now 0))) := .cancelled hr hcan
      rw [← hindex] at hdone
      split
      · exact ⟨hdone, hquotas⟩
      · exact ⟨hdone, hquotas⟩

theorem pause_rewrites (s : TaskScheduler) (id : TaskId) (now : Clock) :
    Rewrites s (.pause id now) (.done (s.pause id now).1) (s.pause id now).2.index ∧
      (s.pause id now).2.quotas = s.quotas := by
  unfold TaskScheduler.pause
  dsimp only
  split
  · next e he =>
      exact ⟨.refused (.done e) (stateOf_ne_of_transition_error he rfl), rfl⟩
  · next t ht =>
      obtain ⟨r, hr, hcan, hindex, hquotas⟩ := transition_rewrites ht
      have hrunning := TaskState.eq_running_of_canTransitionTo (.inr (.inr rfl)) hcan
      have hdone : Rewrites s (.pause id now) (.done (.ok ()))
          (s.index.set id (r.inState .paused (now 0))) := .paused hr hrunning
      rw [← hindex] at hdone
      exact ⟨hdone, hquotas⟩

theorem resume_rewrites (s : TaskScheduler) (id : TaskId) (now : Clock) :
    Rewrites s (.resume id now) (.done (s.resume id now).1) (s.resume id now).2.index ∧
      (s.resume id now).2.quotas = s.quotas := by
  unfold TaskScheduler.resume
  split
  · next e he =>
      exact ⟨.refused (.done e) (not_exists_of_transition_error he), rfl⟩
  · next t ht =>
      obtain ⟨r, hr, hcan, hindex, hquotas⟩ := transition_rewrites ht
      have hdone : Rewrites s (.resume id now) (.done (.ok ()))
          (s.index.set id (r.inState .queued (now 0))) := .resumed hr hcan
      rw [← hindex] at hdone
      exact ⟨hdone, hquotas⟩

theorem step_rewrites (hx : s.index.WellFormed) (op : Op) :
    Rewrites s op (s.step op).1 (s.step op).2.index := by
  cases op with
  | setQuota dim quota => exact .quota dim quota
  | submit id spec now => exact (submit_rewrites s id spec now).1
  | nextReady w now => exact (nextReady_rewrites s w now).1
  | renewLease id now => exact (renewLease_rewrites s id now).1
  | complete id now => exact (complete_rewrites hx id now).1
  | fail id reason now => exact (fail_rewrites s id reason now).1
  | cancel id now => exact (cancel_rewrites s id now).1
  | pause id now => exact (pause_rewrites s id now).1
  | resume id now => exact (resume_rewrites s id now).1

theorem step_quotas (hx : s.index.WellFormed) {op : Op} (hop : op.isSetQuota = false) :
    (s.step op).2.quotas = s.quotas := by
  cases op with
  | setQuota dim quota => cases hop
  | submit id spec now => exact (submit_rewrites s id spec now).2
  | nextReady w now => exact (nextReady_rewrites s w now).2
  | renewLease id now => exact (renewLease_rewrites s id now).2
  | complete id now => exact (complete_rewrites hx id now).2
  | fail id reason now => exact (fail_rewrites s id reason now).2
  | cancel id now => exact (cancel_rewrites s id now).2
  | pause id now => exact (pause_rewrites s id now).2
  | resume id now => exact (resume_rewrites s id now).2

/-! ## Well-formed indexes -/

theorem Promotes.wellFormed {m t : TaskScheduler} (hp : Promotes m t) (hm : m.index.WellFormed) :
    t.index.WellFormed := by
  have hcases (i : TaskId) : (∃ r now, m.index.get i = some r ∧
      t.index.get i = some (r.inState .queued now)) ∨ t.index.get i = m.index.get i := by
    by_cases hpromotable : ∃ r, m.index.get i = some r ∧ m.Promotable r
    · obtain ⟨r, hr, hr'⟩ := hpromotable
      obtain ⟨now, hget⟩ := hp.moved i r hr hr'
      exact .inl ⟨r, now, hr, hget⟩
    · exact .inr (hp.kept i fun r hr hr' => hpromotable ⟨r, hr, hr'⟩)
  constructor
  · intro i u hu
    rcases hcases i with ⟨r, now, hr, hget⟩ | hsame
    · have hid : r.taskId = i := hm.keyed hr
      rw [hget] at hu
      cases hu
      exact hid
    · exact hm.keyed (hsame ▸ hu)
  · rw [hp.order]
    exact hm.nodup
  · intro i
    rw [hp.order, hm.mem_order]
    rcases hcases i with ⟨r, now, hr, hget⟩ | hsame
    · rw [hr, hget]
      rfl
    · rw [hsame]

theorem Rewrites.wellFormed {op : Op} {answer : Answer} {x : TaskIndex}
    (he : Rewrites s op answer x) (hx : s.index.WellFormed) : x.WellFormed := by
  cases he with
  | quota => exact hx
  | refused _ _ => exact hx
  | @registered id spec now hnew => exact hx.push hnew _ _
  | @queued id spec now hnew _ =>
      have hget : (s.index.push id spec (now 0)).get id =
          some (TaskRecord.new id spec (s.index.seq + 1) (now 0)) := by
        rw [TaskIndex.get_push, if_pos rfl]
      exact (hx.push hnew _ _).set hget rfl
  | handed hr _ _ => exact hx.set hr rfl
  | renewed hr _ => exact hx.set hr rfl
  | completed hr _ hm hpromotes =>
      apply hpromotes.wellFormed
      rw [hm]
      exact hx.set hr rfl
  | failed hr _ _ => exact hx.set hr rfl
  | retried hr _ _ => exact hx.set hr rfl
  | cancelled hr _ => exact hx.set hr rfl
  | paused hr _ => exact hx.set hr rfl
  | resumed hr _ => exact hx.set hr rfl

theorem Rewrites.handedOut {op : Op} {answer : Answer} {x : TaskIndex}
    (he : Rewrites s op answer x) (hx : s.index.WellFormed)
    (hhand : answer.handedOut = some id) :
    ∃ r lease now, s.index.get id = some r ∧ r.state = .queued ∧
      x = s.index.set id (r.started lease now) := by
  cases he with
  | refused h _ => cases h <;> cases hhand
  | @handed _ now i r lease hr hqueued _ =>
      have hid : r.taskId = id := Option.some.inj hhand
      rw [hx.keyed hr] at hid
      subst hid
      exact ⟨r, lease, now 0, hr, hqueued, rfl⟩
  | _ => cases hhand

/-- What a call makes of the state of a task: it stays, or the task is handed out, or leaves its
worker, or makes another move that the state machine allows. -/
def TaskState.MovesTo (state next : TaskState) (handed : Prop) : Prop :=
  next = state ∨ handed ∨ state = .running ∨
    (state.canTransitionTo next = true ∧ next ≠ .running)

theorem Rewrites.state_moves {op : Op} {answer : Answer} {x : TaskIndex}
    (he : Rewrites s op answer x) (hx : s.index.WellFormed) {r : TaskRecord}
    (hr : s.index.get id = some r) :
    ∃ r', x.get id = some r' ∧ r.state.MovesTo r'.state (answer.handedOut = some id) := by
  have written {a : Answer} {j : TaskId} {u v : TaskRecord} (hu : s.index.get j = some u)
      (hmove : u.state.MovesTo v.state (a.handedOut = some j)) :
      ∃ r', (s.index.set j v).get id = some r' ∧
        r.state.MovesTo r'.state (a.handedOut = some id) := by
    by_cases hid : id = j
    · subst hid
      rw [hr] at hu
      cases hu
      exact ⟨v, TaskIndex.get_set_self _ _ _, hmove⟩
    · exact ⟨r, by rw [TaskIndex.get_set_of_ne _ _ hid, hr], .inl rfl⟩
  have pushed {j : TaskId} (hnew : s.index.get j = none) (spec : TaskSpec) (now : UInt64) :
      (s.index.push j spec now).get id = some r := by
    rw [TaskIndex.get_push, if_neg]
    · exact hr
    · rintro rfl
      rw [hnew] at hr
      cases hr
  cases he with
  | quota => exact ⟨r, hr, .inl rfl⟩
  | refused _ _ => exact ⟨r, hr, .inl rfl⟩
  | registered hnew => exact ⟨r, pushed hnew _ _, .inl rfl⟩
  | @queued j spec now hnew _ =>
      refine ⟨r, ?_, .inl rfl⟩
      rw [TaskIndex.get_set_of_ne]
      · exact pushed hnew _ _
      · rintro rfl
        rw [hnew] at hr
        cases hr
  | @handed _ _ j u _ hu _ _ =>
      have hkey : u.taskId = j := hx.keyed hu
      exact written hu (.inr (.inl (congrArg some hkey)))
  | renewed hu _ => exact written hu (.inl rfl)
  | @completed j now u m t hu hrunning hm hp =>
      have hmid := written (a := .done (.ok ())) (v := u.inState .completed (now 0)) hu
        (.inr (.inr (.inl hrunning)))
      rw [← hm] at hmid
      obtain ⟨v, hv, hmove⟩ := hmid
      by_cases hpromotable : m.Promotable v
      · obtain ⟨now', hget⟩ := hp.moved id v hv hpromotable
        refine ⟨_, hget, ?_⟩
        rcases hmove with hsame | hhand | hrun | ⟨hcan, -⟩
        · refine .inr (.inr (.inr ⟨?_, TaskState.noConfusion⟩))
          rw [← hsame, hpromotable.1]
          rfl
        · exact .inr (.inl hhand)
        · exact .inr (.inr (.inl hrun))
        · -- no state leads back to `pending`
          rw [hpromotable.1] at hcan
          cases hstate : r.state <;> rw [hstate] at hcan <;> cases hcan
      · refine ⟨v, ?_, hmove⟩
        rw [hp.kept id, hv]
        intro w hw
        rw [hv] at hw
        cases hw
        exact hpromotable
  | failed hu hrunning _ => exact written hu (.inr (.inr (.inl hrunning)))
  | retried hu hrunning _ => exact written hu (.inr (.inr (.inl hrunning)))
  | cancelled hu hcan => exact written hu (.inr (.inr (.inr ⟨hcan, TaskState.noConfusion⟩)))
  | paused hu hrunning => exact written hu (.inr (.inr (.inl hrunning)))
  | resumed hu hcan => exact written hu (.inr (.inr (.inr ⟨hcan, TaskState.noConfusion⟩)))

/-! ## Restoring -/

theorem restoreOne_of_known {r u : TaskRecord} (h : s.index.get r.taskId = some u) :
    (s.restoreOne r).index = s.index := by
  rw [TaskScheduler.restoreOne_eq, TaskIndex.contains_eq_isSome, h, Option.isSome_some, if_pos rfl]

theorem restoreOne_of_new {r : TaskRecord} (h : s.index.get r.taskId = none) :
    (s.restoreOne r).index = s.index.adopt r := by
  rw [TaskScheduler.restoreOne_eq, TaskIndex.contains_eq_isSome, h, Option.isSome_none,
    if_neg Bool.false_ne_true]

theorem get_restoreOne (s : TaskScheduler) (r : TaskRecord) (id : TaskId) :
    (s.restoreOne r).index.get id =
      (s.index.get id).or (if id = r.taskId then some r else none) := by
  cases hget : s.index.get r.taskId with
  | some u =>
      rw [restoreOne_of_known hget]
      split
      · next hid => rw [hid, hget, Option.some_or]
      · rw [Option.or_none]
  | none =>
      rw [restoreOne_of_new hget, TaskIndex.get_adopt]
      split
      · next hid => rw [hid, hget, Option.none_or]
      · rw [Option.or_none]

theorem get_restoreRecords (s : TaskScheduler) (records : List TaskRecord) (id : TaskId) :
    (s.restoreRecords records).index.get id =
      (s.index.get id).or (records.find? fun r => r.taskId = id) := by
  induction records generalizing s with
  | nil =>
      rw [List.find?_nil, Option.or_none]
      rfl
  | cons r records ih =>
      change ((s.restoreOne r).restoreRecords records).index.get id = _
      rw [ih, get_restoreOne, List.find?_cons]
      by_cases hid : id = r.taskId
      · rw [if_pos hid, decide_eq_true hid.symm, Option.or_assoc, Option.some_or]
      · rw [if_neg hid, decide_eq_false (Ne.symm hid), Option.or_none]

theorem quotas_restoreOne (s : TaskScheduler) (r : TaskRecord) :
    (s.restoreOne r).quotas = s.quotas := by
  rw [TaskScheduler.restoreOne_eq]

theorem wellFormed_restoreOne (hx : s.index.WellFormed) (r : TaskRecord) :
    (s.restoreOne r).index.WellFormed := by
  cases hget : s.index.get r.taskId with
  | some u =>
      rw [restoreOne_of_known hget]
      exact hx
  | none =>
      rw [restoreOne_of_new hget]
      exact (TaskIndex.extends_adopt hget).wellFormed hx rfl

def TaskScheduler.read (s : TaskScheduler) (r : TaskRecord) : Unit × TaskScheduler :=
  ((), s.restoreOne r)

theorem wellFormed_restoreRecords (hx : s.index.WellFormed) (records : List TaskRecord) :
    (s.restoreRecords records).index.WellFormed := by
  induction records generalizing s with
  | nil => exact hx
  | cons r records ih => exact ih (wellFormed_restoreOne hx r)

theorem wellFormed_stepCall (json : RecordJson) (hx : s.index.WellFormed) (call : Call) :
    (stepCall json s call).2.index.WellFormed := by
  cases call with
  | op op => exact (step_rewrites hx op).wellFormed hx
  | restore text =>
      change (s.restore json text).2.index.WellFormed
      unfold TaskScheduler.restore
      split
      · exact hx
      · exact wellFormed_restoreRecords hx _

theorem wellFormed_final (json : RecordJson) (hx : s.index.WellFormed) (calls : List Call) :
    (final (stepCall json) s calls).index.WellFormed :=
  invariant_final_of_forall (fun s : TaskScheduler => s.index.WellFormed)
    (fun _ call h => wellFormed_stepCall json h call) calls hx

def Reply.handedOut : Reply → Option TaskId
  | .answer a => a.handedOut
  | .restored _ => none

theorem stepCall_state_moves (hx : s.index.WellFormed) (json : RecordJson) (call : Call)
    {r : TaskRecord} (hr : s.index.get id = some r) :
    ∃ r', (stepCall json s call).2.index.get id = some r' ∧
      r.state.MovesTo r'.state ((stepCall json s call).1.handedOut = some id) := by
  cases call with
  | op op => exact (step_rewrites hx op).state_moves hx hr
  | restore text =>
      refine ⟨r, ?_, .inl rfl⟩
      change (s.restore json text).2.index.get id = some r
      unfold TaskScheduler.restore
      split
      · exact hr
      · rw [get_restoreRecords, hr, Option.some_or]

theorem forall_reached_iff_of_wellFormed {json : RecordJson} {P : TaskScheduler → Call → Prop}
    (Good : TaskScheduler → Prop)
    (hstep : ∀ s call, s.index.WellFormed → Good s →
      (Good (stepCall json s call).2 ↔ P s call))
    (hx : s.index.WellFormed) (hs : Good s) (calls : List Call) :
    (∀ bs, bs <+: calls → Good (final (stepCall json) s bs)) ↔
      Along P (stepCall json) s calls := by
  rw [← forall_reached_iff_along (fun s : TaskScheduler => s.index.WellFormed ∧ Good s) _ calls
    ⟨hx, hs⟩]
  · apply forall₂_congr
    intro bs _
    exact (and_iff_right (wellFormed_final json hx bs)).symm
  · rintro s call ⟨hx, h⟩
    rw [hstep s call hx h]
    exact and_iff_right (wellFormed_stepCall json hx call)

def Call.Reads (json : RecordJson) (P : TaskScheduler → TaskRecord → Prop) (s : TaskScheduler)
    (text : String) : Prop :=
  ∀ records, json.fromStr text = .ok records → Along P TaskScheduler.read s records

/-! ## Conditions on every record -/

namespace TaskIndex

variable {x : TaskIndex} {P : TaskRecord → Prop}

def Forall (P : TaskRecord → Prop) (x : TaskIndex) : Prop :=
  ∀ i r, x.get i = some r → P r

theorem Forall.set (h : x.Forall P) {r : TaskRecord} (hr : P r) (id : TaskId) :
    (x.set id r).Forall P := by
  intro i u hu
  rw [get_set] at hu
  split at hu
  · cases hu
    exact hr
  · exact h i u hu

theorem Forall.push (h : x.Forall P) {id : TaskId} {spec : TaskSpec} {now : UInt64}
    (hr : P (TaskRecord.new id spec (x.seq + 1) now)) : (x.push id spec now).Forall P := by
  intro i u hu
  rw [get_push] at hu
  split at hu
  · cases hu
    exact hr
  · exact h i u hu

end TaskIndex

theorem Promotes.forall {m t : TaskScheduler} {P : TaskRecord → Prop} (hp : Promotes m t)
    (h : m.index.Forall P)
    (hmoved : ∀ r now, P r → r.state = .pending → P (r.inState .queued now)) :
    t.index.Forall P := by
  intro i u hu
  by_cases hpromotable : ∃ r, m.index.get i = some r ∧ m.Promotable r
  · obtain ⟨r, hr, hr'⟩ := hpromotable
    obtain ⟨now, hget⟩ := hp.moved i r hr hr'
    rw [hget] at hu
    cases hu
    exact hmoved r now (h i r hr) hr'.1
  · rw [hp.kept i fun r hr hr' => hpromotable ⟨r, hr, hr'⟩] at hu
    exact h i u hu

theorem Promotes.forall_iff {m t : TaskScheduler} {P : TaskRecord → Prop} (hp : Promotes m t)
    (hmoved : ∀ r now, r.state = .pending → (P (r.inState .queued now) ↔ P r)) :
    t.index.Forall P ↔ m.index.Forall P := by
  constructor
  · intro h i r hr
    by_cases hpromotable : m.Promotable r
    · obtain ⟨now, hget⟩ := hp.moved i r hr hpromotable
      exact (hmoved r now hpromotable.1).mp (h i _ hget)
    · apply h i r
      rw [hp.kept i, hr]
      intro u hu
      rw [hr] at hu
      cases hu
      exact hpromotable
  · intro h
    exact hp.forall h fun r now hr hpending => (hmoved r now hpending).mpr hr

theorem forall_restoreOne_iff {P : TaskRecord → Prop} (r : TaskRecord) :
    (s.restoreOne r).index.Forall P ↔
      s.index.Forall P ∧ (s.index.get r.taskId = none → P r) := by
  cases hget : s.index.get r.taskId with
  | some u => simp [restoreOne_of_known hget]
  | none =>
      rw [restoreOne_of_new hget]
      constructor
      · intro h
        constructor
        · intro i u hu
          apply h i u
          rw [TaskIndex.get_adopt, if_neg]
          · exact hu
          · rintro rfl
            rw [hget] at hu
            cases hu
        · intro _
          apply h r.taskId r
          rw [TaskIndex.get_adopt, if_pos rfl]
      · rintro ⟨h, hr⟩
        exact h.set (hr rfl) r.taskId

theorem forall_restoreRecords_iff {P : TaskRecord → Prop} (records : List TaskRecord) :
    (s.restoreRecords records).index.Forall P ↔
      s.index.Forall P ∧
        Along (fun s r => s.index.get r.taskId = none → P r) TaskScheduler.read s records := by
  induction records generalizing s with
  | nil => simp [TaskScheduler.restoreRecords, Along]
  | cons r records ih =>
      change ((s.restoreOne r).restoreRecords records).index.Forall P ↔ _
      rw [ih, forall_restoreOne_iff, and_assoc]
      rfl

end Scheduler

end InfinityOS
