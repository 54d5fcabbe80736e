import InfinityOS.Transition.Run
import InfinityOS.Scheduler.Effect

/-!
# The books of the scheduler over a run

On a fresh scheduler and at every call boundary the ready queue holds exactly
the queued tasks, each once, and the counter of a dimension is the number of its
running tasks. If no quota is set after a task has been handed out, no dimension
runs more tasks than its quota allows. Each task enters the ready queue as often
as it is handed out or withdrawn from it, counting its present stay.
-/

namespace InfinityOS

namespace Scheduler

open Transition

namespace TaskScheduler

def stateOf (s : TaskScheduler) (id : TaskId) : Option TaskState :=
  (s.index.get id).map TaskRecord.state

def inQueue (s : TaskScheduler) (id : TaskId) : Bool :=
  s.readyQueue.any fun e => e.taskId = id

end TaskScheduler

def Answer.handedOut : Answer → Option TaskId
  | .handed (some (r, _)) => some r.taskId
  | _ => none

def Op.isSetQuota : Op → Bool
  | .setQuota _ _ => true
  | _ => false

def Op.isCancelOf (id : TaskId) : Op → Bool
  | .cancel i _ => i = id
  | _ => false

/-- A call that puts the task into the ready queue. -/
def enqueues (id : TaskId) (s : TaskScheduler) (_ : Op) (_ : Answer)
    (s' : TaskScheduler) : Bool :=
  !s.inQueue id && s'.inQueue id

def handsOut (id : TaskId) (_ : TaskScheduler) (_ : Op) (answer : Answer)
    (_ : TaskScheduler) : Bool :=
  answer.handedOut = some id

def withdraws (id : TaskId) (s : TaskScheduler) (op : Op) (_ : Answer)
    (s' : TaskScheduler) : Bool :=
  op.isCancelOf id && s.inQueue id && !s'.inQueue id

/-- No quota is set after a call that handed out a task. -/
def QuotasFirst (s : TaskScheduler) (ops : List Op) : Prop :=
  (trace TaskScheduler.step s ops).Pairwise fun a b =>
    a.2.handedOut.isSome → b.1.isSetQuota = false

/-- No dimension runs more tasks than its quota allows. -/
def Capped (s : TaskScheduler) : Prop :=
  ∀ d, s.index.runningTasks d ≤ (s.quotaFor d).maxConcurrent.toNat

/-! ## The ready queue -/

theorem Accounted.inQueue_eq {s : TaskScheduler} (h : Accounted s) (id : TaskId) :
    s.inQueue id = decide (s.stateOf id = some .queued) := by
  rw [Bool.eq_iff_iff, TaskScheduler.inQueue, List.any_eq_true, decide_eq_true_eq]
  constructor
  · rintro ⟨e, he, hid⟩
    obtain ⟨r, hr, hq, -⟩ := h.mem_queue.mp he
    rw [decide_eq_true_eq] at hid
    rw [← hid, TaskScheduler.stateOf, hr, Option.map_some, hq]
  · intro hstate
    obtain ⟨r, hr, hq⟩ := Option.map_eq_some_iff.mp hstate
    have hid : r.entry.taskId = id := h.index.keyed hr
    exact ⟨r.entry, h.mem_queue.mpr ⟨r, by rw [hid, hr], hq, rfl⟩, by simp [hid]⟩

theorem Accounted.count_readyQueue {s : TaskScheduler} (h : Accounted s) (id : TaskId) :
    (s.readyQueue.map ReadyEntry.taskId).count id =
      if s.stateOf id = some .queued then 1 else 0 := by
  cases hr : s.index.get id with
  | none =>
      rw [TaskScheduler.stateOf, hr, Option.map_none, if_neg (by simp),
        List.count_eq_zero, List.mem_map]
      rintro ⟨e, he, rfl⟩
      obtain ⟨r, hget, -, -⟩ := h.mem_queue.mp he
      rw [hr] at hget
      cases hget
  | some r =>
      obtain ⟨rest, hperm, hfilter, -⟩ := h.queue_split hr
      have hrest : (rest.map ReadyEntry.taskId).count id = 0 := by
        rw [List.count_eq_zero, List.mem_map]
        rintro ⟨e, he, hid⟩
        have := List.of_mem_filter (hfilter.mem_iff.mpr he)
        exact (decide_eq_true_eq.mp this) hid
      have hid : r.entry.taskId = id := h.index.keyed hr
      rw [(hperm.map _).count_eq, List.map_append, List.count_append, hrest,
        TaskScheduler.stateOf, hr, Option.map_some]
      by_cases hq : r.state = .queued
      · simp [hq, hid]
      · simp [hq]

/-! ## Entering and leaving the ready queue -/

variable {s s' : TaskScheduler}

theorem Moved.stateOf {id : TaskId} {r r' : TaskRecord} (hm : Moved s s' id r r')
    (i : TaskId) :
    s'.stateOf i = if i = id then some r'.state else s.stateOf i := by
  rw [TaskScheduler.stateOf, hm.get]
  split <;> rfl

theorem Moved.stateOf_self {id : TaskId} {r r' : TaskRecord} (hm : Moved s s' id r r') :
    s.stateOf id = some r.state := by
  rw [TaskScheduler.stateOf, hm.found, Option.map_some]

theorem stateOf_register {id : TaskId} (spec : TaskSpec) (now : UInt64) (i : TaskId) :
    (s.register id spec now).stateOf i = if i = id then some .pending else s.stateOf i := by
  change ((s.index.push id spec now).get i).map TaskRecord.state = _
  rw [TaskIndex.get_push]
  split <;> rfl

theorem Promoted.queued_of_queued (hp : Promoted s s') {id : TaskId}
    (hq : s.stateOf id = some .queued) : s'.stateOf id = some .queued := by
  induction hp with
  | refl s => exact hq
  | step hm _ hqueued _ _ ih =>
      refine ih ?_
      rw [hm.stateOf]
      split
      · rw [hqueued]
      · exact hq

theorem Moved.queued_of_queued {id i : TaskId} {r r' : TaskRecord} (hm : Moved s s' i r r')
    (hne : r.state ≠ .queued) (hq : s.stateOf id = some .queued) :
    s'.stateOf id = some .queued := by
  rw [hm.stateOf, if_neg]
  · exact hq
  · rintro rfl
    rw [hm.stateOf_self] at hq
    exact hne (Option.some.inj hq)

theorem queued_register {id i : TaskId} {spec : TaskSpec} {now : UInt64}
    (hnew : s.index.get i = none) (hq : s.stateOf id = some .queued) :
    (s.register i spec now).stateOf id = some .queued := by
  rw [stateOf_register, if_neg]
  · exact hq
  · rintro rfl
    rw [TaskScheduler.stateOf, hnew] at hq
    cases hq

theorem Effect.queued_of_queued {op : Op} {answer : Answer} (h : Accounted s)
    (he : Effect s op answer s') {id : TaskId} (hq : s.stateOf id = some .queued)
    (hhand : answer.handedOut ≠ some id) (hcancel : op.isCancelOf id = false) :
    s'.stateOf id = some .queued := by
  cases he with
  | quota => exact hq
  | refused _ => exact hq
  | registered hnew _ _ => exact queued_register hnew hq
  | queued hnew _ _ hm _ =>
      exact hm.queued_of_queued (by simp [TaskRecord.new]) (queued_register hnew hq)
  | @handed _ _ _ i r r' _ hm _ _ _ =>
      rw [hm.stateOf, if_neg]
      · exact hq
      · rintro rfl
        refine hhand ?_
        rw [Answer.handedOut, hm.taskId, h.index.keyed hm.found]
  | renewed hm hsame =>
      rw [hm.stateOf]
      split
      · next hid => rw [hsame, ← hm.stateOf_self, ← hid, hq]
      · exact hq
  | completed hm hrun _ hpromoted _ =>
      exact hpromoted.queued_of_queued (hm.queued_of_queued (by simp [hrun]) hq)
  | failed hm hrun hfailed htouch _ _ =>
      have hfail := hm.queued_of_queued (by simp [hrun]) hq
      exact htouch.queued_of_queued (by simp [hfailed]) hfail
  | retried hm hrun hfailed htouch hsame hrequeue _ _ =>
      have hfail := hm.queued_of_queued (by simp [hrun]) hq
      have htouched := htouch.queued_of_queued (by simp [hfailed]) hfail
      exact hrequeue.queued_of_queued (by simp [hsame]) htouched
  | cancelled hm _ _ =>
      rw [hm.stateOf, if_neg]
      · exact hq
      · rintro rfl
        simp [Op.isCancelOf] at hcancel
  | paused hm hrun _ => exact hm.queued_of_queued (by simp [hrun]) hq
  | resumed hm hcan _ =>
      apply hm.queued_of_queued _ hq
      intro hr
      simp [hr, TaskState.canTransitionTo] at hcan

theorem Effect.handedOut {op : Op} {answer : Answer} (h : Accounted s)
    (he : Effect s op answer s') {id : TaskId} (hhand : answer.handedOut = some id) :
    s.stateOf id = some .queued ∧ s'.stateOf id = some .running ∧
      op.isCancelOf id = false := by
  cases he with
  | @handed _ _ _ i r r' _ hm hq hrun _ =>
      rw [Answer.handedOut, hm.taskId, h.index.keyed hm.found] at hhand
      cases hhand
      exact ⟨by rw [hm.stateOf_self, hq], by rw [hm.stateOf, if_pos rfl, hrun], rfl⟩
  | refused hrefusal =>
      cases hrefusal <;> cases hhand
  | _ => cases hhand

theorem step_balance (h : Accounted s) (op : Op) (id : TaskId) :
    (s.inQueue id).toNat + (enqueues id s op (s.step op).1 (s.step op).2).toNat =
      ((s.step op).2.inQueue id).toNat +
        ((handsOut id s op (s.step op).1 (s.step op).2).toNat +
          (withdraws id s op (s.step op).1 (s.step op).2).toNat) := by
  have he := step_effect h op
  have hq := h.inQueue_eq id
  have hq' := (accounted_step op h).inQueue_eq id
  by_cases hhand : (s.step op).1.handedOut = some id
  · obtain ⟨hbefore, hafter, hcancel⟩ := he.handedOut h hhand
    simp [enqueues, handsOut, withdraws, hhand, hcancel, hq, hq', hbefore, hafter]
  · cases hin : s.inQueue id with
    | false => simp [enqueues, handsOut, withdraws, hhand, hin]
    | true =>
        cases hcancel : op.isCancelOf id with
        | true => cases hout : (s.step op).2.inQueue id <;>
            simp [enqueues, handsOut, withdraws, hhand, hin, hout, hcancel]
        | false =>
            rw [hin, eq_comm, decide_eq_true_eq] at hq
            have hstay := he.queued_of_queued h hq hhand hcancel
            rw [decide_eq_true hstay] at hq'
            simp [enqueues, handsOut, withdraws, hhand, hin, hq', hcancel]

/-! ## Concurrency limits -/

theorem Moved.runningTasks {id : TaskId} {r r' : TaskRecord} (hm : Moved s s' id r r')
    (h : Accounted s) (d : DimensionId) :
    s'.index.runningTasks d + r.slot d = s.index.runningTasks d + r'.slot d := by
  rw [hm.index]
  exact TaskIndex.runningTasks_set h.index hm.found r' d

theorem Moved.runningTasks_le {id : TaskId} {r r' : TaskRecord} (hm : Moved s s' id r r')
    (h : Accounted s) (hrun : r'.state ≠ .running ∨ r'.state = r.state)
    (d : DimensionId) : s'.index.runningTasks d ≤ s.index.runningTasks d := by
  have hslot : r'.slot d ≤ r.slot d := by
    rcases hrun with hne | hsame
    · rw [r'.slot_of_ne_running hne]
      exact Nat.zero_le _
    · rw [TaskRecord.slot, TaskRecord.slot, hsame, hm.spec]
  have := hm.runningTasks h d
  omega

theorem Promoted.runningTasks_le (hp : Promoted s s') (h : Accounted s)
    (d : DimensionId) : s'.index.runningTasks d ≤ s.index.runningTasks d := by
  induction hp with
  | refl s => exact le_rfl
  | step hm _ hqueued _ _ ih =>
      exact (ih (hm.accounted h)).trans (hm.runningTasks_le h (.inl (by simp [hqueued])) d)

theorem runningTasks_register (h : Accounted s) {id : TaskId} (hid : s.index.get id = none)
    (spec : TaskSpec) (now : UInt64) (d : DimensionId) :
    (s.register id spec now).index.runningTasks d = s.index.runningTasks d := by
  have hbefore := h.running d
  have hafter := (h.register hid spec now).running d
  exact hafter.symm.trans hbefore

theorem Effect.runningTasks_le {op : Op} {answer : Answer} (he : Effect s op answer s')
    (h : Accounted s) (hnone : answer.handedOut = none) (d : DimensionId) :
    s'.index.runningTasks d ≤ s.index.runningTasks d := by
  cases he with
  | quota => exact le_rfl
  | refused _ => exact le_rfl
  | registered hnew _ _ => exact (runningTasks_register h hnew _ _ d).le
  | queued hnew _ _ hm hq =>
      exact (hm.runningTasks_le (h.register hnew _ _) (.inl (by simp [hq])) d).trans
        (runningTasks_register h hnew _ _ d).le
  | handed => cases hnone
  | renewed hm hsame => exact hm.runningTasks_le h (.inr hsame) d
  | completed hm _ hc hpromoted _ =>
      exact (hpromoted.runningTasks_le (hm.accounted h) d).trans
        (hm.runningTasks_le h (.inl (by simp [hc])) d)
  | failed hm _ hf htouch hsame _ =>
      exact (htouch.runningTasks_le (hm.accounted h) (.inl (by simp [hsame])) d).trans
        (hm.runningTasks_le h (.inl (by simp [hf])) d)
  | retried hm _ hf htouch hsame hrequeue hq _ =>
      have hacc := hm.accounted h
      calc _ ≤ _ := hrequeue.runningTasks_le (htouch.accounted hacc) (.inl (by simp [hq])) d
        _ ≤ _ := htouch.runningTasks_le hacc (.inl (by simp [hsame])) d
        _ ≤ _ := hm.runningTasks_le h (.inl (by simp [hf])) d
  | cancelled hm _ hc => exact hm.runningTasks_le h (.inl (by simp [hc])) d
  | paused hm _ hp => exact hm.runningTasks_le h (.inl (by simp [hp])) d
  | resumed hm _ hq => exact hm.runningTasks_le h (.inl (by simp [hq])) d

theorem Promoted.quotas (hp : Promoted s s') : s'.quotas = s.quotas := by
  induction hp with
  | refl s => rfl
  | step hm _ _ _ _ ih => rw [ih, hm.quotas]

theorem Effect.quotas {op : Op} {answer : Answer} (he : Effect s op answer s')
    (hop : op.isSetQuota = false) : s'.quotas = s.quotas := by
  cases he with
  | quota => cases hop
  | refused _ => rfl
  | registered => rfl
  | queued _ _ _ hm _ => exact hm.quotas
  | handed hm _ _ _ => exact hm.quotas
  | renewed hm _ => exact hm.quotas
  | completed hm _ _ hpromoted _ => rw [hpromoted.quotas, hm.quotas]
  | failed hm _ _ htouch _ _ => rw [htouch.quotas, hm.quotas]
  | retried hm _ _ htouch _ hrequeue _ _ => rw [hrequeue.quotas, htouch.quotas, hm.quotas]
  | cancelled hm _ _ => exact hm.quotas
  | paused hm _ _ => exact hm.quotas
  | resumed hm _ _ => exact hm.quotas

theorem Effect.capped {op : Op} {answer : Answer} (he : Effect s op answer s')
    (h : Accounted s) (hcap : Capped s) (hop : op.isSetQuota = false) : Capped s' := by
  intro d
  have hquota : s'.quotaFor d = s.quotaFor d := by
    rw [TaskScheduler.quotaFor, TaskScheduler.quotaFor, he.quotas hop]
  rw [hquota]
  by_cases hnone : answer.handedOut = none
  · exact (he.runningTasks_le h hnone d).trans (hcap d)
  · cases he with
    | @handed _ _ _ i r r' _ hm hq hrun hslot =>
        have hcount := hm.runningTasks h d
        rw [r.slot_of_ne_running (by simp [hq]), r'.slot_of_running hrun, hm.spec] at hcount
        split at hcount
        · next hd =>
            have hlt := UInt32.lt_iff_toNat_lt.mp hslot
            rw [hd, h.running] at hlt
            omega
        · have := hcap d
          omega
    | refused hrefusal => cases hrefusal <;> exact absurd rfl hnone
    | _ => exact absurd rfl hnone

/-- Along a run in which the quotas are set first, the limits are kept; and while
nothing has been handed out, nothing runs. -/
theorem capped_final (dim : DimensionId) (policy : PreemptionPolicy) (leaseMs : UInt64)
    (ops : List Op) (hquotas : QuotasFirst (TaskScheduler.new dim policy leaseMs) ops) :
    let s := final TaskScheduler.step (TaskScheduler.new dim policy leaseMs) ops
    Accounted s ∧ Capped s ∧
      ((∀ a ∈ trace TaskScheduler.step (TaskScheduler.new dim policy leaseMs) ops,
        a.2.handedOut = none) → ∀ d, s.index.runningTasks d = 0) := by
  induction ops using List.reverseRecOn with
  | nil =>
      refine ⟨accounted_new dim policy leaseMs, fun d => ?_, fun _ d => rfl⟩
      exact Nat.zero_le _
  | append_singleton ops op ih =>
      rw [QuotasFirst, trace_append, List.pairwise_append] at hquotas
      obtain ⟨hbefore, -, hlast⟩ := hquotas
      obtain ⟨hacc, hcap, hidle⟩ := ih hbefore
      set t := final TaskScheduler.step (TaskScheduler.new dim policy leaseMs) ops with ht
      have he := step_effect hacc op
      rw [final_append, ← ht]
      refine ⟨accounted_step op hacc, ?_, ?_⟩
      · by_cases hop : op.isSetQuota = true
        · -- no task has been handed out before, so none is running
          have hzero : ∀ d, t.index.runningTasks d = 0 := by
            refine hidle fun a ha => ?_
            have himp := hlast a ha (op, (t.step op).1) (by simp [trace_cons])
            by_contra hsome
            have := himp (Option.isSome_iff_ne_none.mpr hsome)
            simp [hop] at this
          cases op with
          | setQuota dim' quota =>
              intro d
              change t.index.runningTasks d ≤ _
              rw [hzero d]
              exact Nat.zero_le _
          | _ => cases hop
        · exact he.capped hacc hcap (by simpa using hop)
      · intro hall d
        rw [trace_append, ← ht] at hall
        have hzero := hidle (fun a ha => hall a (List.mem_append_left _ ha)) d
        have hnone := hall (op, (t.step op).1)
          (List.mem_append_right _ (by simp [trace_cons]))
        have := he.runningTasks_le hacc hnone d
        change (t.step op).2.index.runningTasks d = 0
        omega

/-- At every call boundary the ready queue holds exactly the queued tasks, each
once, the counters are the numbers of running tasks, and no limit is exceeded.
Over the run a task has entered the ready queue as often as it was handed out or
withdrawn, plus one if it is in the queue now. -/
theorem scheduler_books (dim : DimensionId) (policy : PreemptionPolicy)
    (leaseMs : UInt64) (ops : List Op)
    (hquotas : QuotasFirst (TaskScheduler.new dim policy leaseMs) ops) :
    let s₀ := TaskScheduler.new dim policy leaseMs
    let s := final TaskScheduler.step s₀ ops
    (∀ id, (s.readyQueue.map ReadyEntry.taskId).count id =
      if s.stateOf id = some .queued then 1 else 0) ∧
    (∀ d, (s.runningFor d).toNat =
      s.index.iterInOrder.countP fun r => r.state = .running ∧ r.spec.dimensionId = d) ∧
    (∀ d, (s.index.iterInOrder.countP fun r =>
        r.state = .running ∧ r.spec.dimensionId = d) ≤
      (s.quotaFor d).maxConcurrent.toNat) ∧
    ∀ id, tally (enqueues id) TaskScheduler.step s₀ ops =
      tally (handsOut id) TaskScheduler.step s₀ ops +
        tally (withdraws id) TaskScheduler.step s₀ ops +
        if s.stateOf id = some .queued then 1 else 0 := by
  intro s₀ s
  obtain ⟨hacc, hcap, -⟩ := capped_final dim policy leaseMs ops hquotas
  refine ⟨hacc.count_readyQueue, hacc.running, hcap, fun id => ?_⟩
  have hbalance : (s₀.inQueue id).toNat + tally (enqueues id) TaskScheduler.step s₀ ops =
      (s.inQueue id).toNat + (tally (handsOut id) TaskScheduler.step s₀ ops +
        tally (withdraws id) TaskScheduler.step s₀ ops) :=
    tally_balance (fun t => (t.inQueue id).toNat) _ _ _ (fun t op h => accounted_step op h)
      (fun t op h => step_balance h op id) ops (accounted_new dim policy leaseMs)
  have hstart : s₀.inQueue id = false := rfl
  have hend : (s.inQueue id).toNat = if s.stateOf id = some .queued then 1 else 0 := by
    rw [hacc.inQueue_eq]
    split
    · next hq => rw [decide_eq_true hq, Bool.toNat_true]
    · next hq => rw [decide_eq_false hq, Bool.toNat_false]
  rw [hstart, hend, Bool.toNat_false, Nat.zero_add] at hbalance
  rw [hbalance]
  omega

/-- Two tasks of one dimension that allows one at a time; the second call to
`next_ready` finds no free slot. -/
def sampleRun : List Op :=
  [.setQuota 7 { maxConcurrent := 1, maxQueued := 100, tasksPerMinute := 0 },
   .submit 1 (.new 7 "http.request" "first") fun _ => 10,
   .submit 2 (.new 7 "http.request" "second") fun _ => 20,
   .nextReady "worker-1" fun _ => 30,
   .nextReady "worker-2" fun _ => 40,
   .complete 1 fun _ => 50]

theorem scheduler_books_sampleRun :
    let s₀ := TaskScheduler.new 1 .none 5000
    let s := final TaskScheduler.step s₀ sampleRun
    s.readyQueue.map ReadyEntry.taskId = [2] ∧
      tally (enqueues 1) TaskScheduler.step s₀ sampleRun =
        tally (handsOut 1) TaskScheduler.step s₀ sampleRun +
          tally (withdraws 1) TaskScheduler.step s₀ sampleRun +
          if s.stateOf 1 = some .queued then 1 else 0 := by
  have hquotas : QuotasFirst (TaskScheduler.new 1 .none 5000) sampleRun := by
    unfold QuotasFirst
    decide
  exact ⟨by decide, (scheduler_books 1 .none 5000 sampleRun hquotas).2.2.2 1⟩

end Scheduler

end InfinityOS
