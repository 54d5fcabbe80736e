import InfinityOS.Scheduler.Rewrite

/-!
# Terminal states

A task that is completed or cancelled stays so, and every call aimed at it is
refused. A failed task stays failed until the first `cancel` or `resume` that is
aimed at it: `Failed → Queued` and `Failed → Cancelled` are edges of the
transition table, kept for the retry inside `fail`, and the two methods check
nothing else. Snapshots may be restored before and in between: `restore` can put
a terminal task into the ready queue, but its record stays and the queue element
is dropped when its turn comes.
-/

namespace InfinityOS

namespace Scheduler

open Transition

/-- The task a call is aimed at. `renew_lease` moves no task and is not counted. -/
def Op.target : Op → Option TaskId
  | .submit id _ _ => some id
  | .complete id _ => some id
  | .fail id _ _ => some id
  | .cancel id _ => some id
  | .pause id _ => some id
  | .resume id _ => some id
  | .setQuota _ _ => none
  | .nextReady _ _ => none
  | .renewLease _ _ => none

def Call.target : Call → Option TaskId
  | .op o => o.target
  | .restore _ => none

/-- The call is a `cancel` or a `resume` of the task. -/
def Op.Reopens (id : TaskId) : Op → Prop
  | .cancel i _ => i = id
  | .resume i _ => i = id
  | _ => False

def Call.Reopens (id : TaskId) : Call → Prop
  | .op o => o.Reopens id
  | .restore _ => False

/-- The call leaves the task in `state` and, when it is aimed at the task, is
answered by an error. -/
def Absorbs (json : RecordJson) (id : TaskId) (state : TaskState) (s : TaskScheduler)
    (call : Call) : Prop :=
  (stepCall json s call).2.stateOf id = some state ∧
    (call.target = some id → ∃ e, (stepCall json s call).1 = .answer (.done (.error e)))

variable {s s' : TaskScheduler} {id : TaskId} {state : TaskState} {x : TaskIndex}

def TaskIndex.stateAt (x : TaskIndex) (id : TaskId) : Option TaskState :=
  (x.get id).map TaskRecord.state

theorem TaskIndex.stateAt_set {i : TaskId} {r r' : TaskRecord} (hr : x.get i = some r)
    (hne : r.state ≠ state) (hstate : x.stateAt id = some state) :
    i ≠ id ∧ (x.set i r').stateAt id = some state := by
  have hid : i ≠ id := by
    rintro rfl
    rw [stateAt, hr] at hstate
    exact hne (Option.some.inj hstate)
  refine ⟨hid, ?_⟩
  rw [stateAt, TaskIndex.get_set_of_ne _ _ hid.symm]
  exact hstate

theorem TaskIndex.stateAt_push {i : TaskId} (hnew : x.get i = none) (spec : TaskSpec)
    (now : UInt64) (hstate : x.stateAt id = some state) :
    i ≠ id ∧ (x.push i spec now).stateAt id = some state := by
  have hid : i ≠ id := by
    rintro rfl
    rw [stateAt, hnew] at hstate
    cases hstate
  refine ⟨hid, ?_⟩
  rw [stateAt, TaskIndex.get_push, if_neg hid.symm]
  exact hstate

theorem Promotes.stateAt {m t : TaskScheduler} (hp : Promotes m t) (hne : state ≠ .pending)
    (hstate : m.index.stateAt id = some state) : t.index.stateAt id = some state := by
  rw [TaskIndex.stateAt, hp.kept id]
  · exact hstate
  · intro r hr hpromotable
    rw [TaskIndex.stateAt, hr, Option.map_some, hpromotable.1] at hstate
    exact hne (Option.some.inj hstate).symm

theorem TaskState.eq_failed_of_canTransitionTo {next : TaskState}
    (hterminal : state.isTerminal = true) (hcan : state.canTransitionTo next = true) :
    state = .failed := by
  cases state with
  | failed => rfl
  | completed => cases next <;> cases hcan
  | cancelled => cases next <;> cases hcan
  | _ => cases hterminal

theorem TaskState.ne_of_isTerminal {t : TaskState} (ht : t.isTerminal = false)
    (hterminal : state.isTerminal = true) : t ≠ state := by
  rintro rfl
  rw [ht] at hterminal
  cases hterminal

theorem TaskIndex.stateAt_set_of_reopens {i : TaskId} {r r' : TaskRecord} {next : TaskState}
    (hr : x.get i = some r) (hterminal : state.isTerminal = true)
    (hstate : x.stateAt id = some state) (hcan : r.state.canTransitionTo next = true)
    (hop : state = .failed → i ≠ id) : i ≠ id ∧ (x.set i r').stateAt id = some state := by
  by_cases hsame : r.state = state
  · have hid : i ≠ id := by
      rw [hsame] at hcan
      exact hop (TaskState.eq_failed_of_canTransitionTo hterminal hcan)
    refine ⟨hid, ?_⟩
    rw [stateAt, TaskIndex.get_set_of_ne _ _ hid.symm]
    exact hstate
  · exact TaskIndex.stateAt_set hr hsame hstate

/-- A task in a terminal state stays in it, and a call aimed at it has no success,
unless the task is failed and the call reopens it. -/
theorem Rewrites.absorbs {op : Op} {answer : Answer} (he : Rewrites s op answer x)
    (hterminal : state.isTerminal = true) (hstate : s.index.stateAt id = some state)
    (hop : state = .failed → ¬ op.Reopens id) :
    x.stateAt id = some state ∧ (op.target = some id → answer ≠ .done (.ok ())) := by
  have hrunning : TaskState.running ≠ state := TaskState.ne_of_isTerminal rfl hterminal
  have hqueued : TaskState.queued ≠ state := TaskState.ne_of_isTerminal rfl hterminal
  have hpending : TaskState.pending ≠ state := TaskState.ne_of_isTerminal rfl hterminal
  -- a call that moved its own task away from another state was not aimed at this one
  have other {i : TaskId} {y : TaskIndex} (h : i ≠ id ∧ y.stateAt id = some state) :
      y.stateAt id = some state ∧ (some i = some id → answer ≠ .done (.ok ())) :=
    ⟨h.2, fun hi => absurd (Option.some.inj hi) h.1⟩
  cases he with
  | quota dim quota => exact ⟨hstate, fun h => nomatch h⟩
  | refused h _ => exact ⟨hstate, fun _ heq => by subst heq; cases h⟩
  | registered hnew => exact other (TaskIndex.stateAt_push hnew _ _ hstate)
  | queued hnew _ =>
      obtain ⟨hid, hpushed⟩ := TaskIndex.stateAt_push hnew _ _ hstate
      refine other ⟨hid, ?_⟩
      rw [TaskIndex.stateAt, TaskIndex.get_set_of_ne _ _ hid.symm]
      exact hpushed
  | handed hr hq _ =>
      exact ⟨(TaskIndex.stateAt_set hr (by rw [hq]; exact hqueued) hstate).2, fun h => nomatch h⟩
  | @renewed i _ r _ _ hr _ =>
      refine ⟨?_, fun h => nomatch h⟩
      rw [TaskIndex.stateAt, TaskIndex.get_set]
      split
      · next hid =>
          rw [← hstate, TaskIndex.stateAt, hid, hr]
          rfl
      · exact hstate
  | completed hr hrun hm hpromotes =>
      obtain ⟨hid, hmid⟩ := TaskIndex.stateAt_set hr (by rw [hrun]; exact hrunning) hstate
      exact other ⟨hid, hpromotes.stateAt hpending.symm (by rw [hm]; exact hmid)⟩
  | failed hr hrun _ =>
      exact other (TaskIndex.stateAt_set hr (by rw [hrun]; exact hrunning) hstate)
  | retried hr hrun _ =>
      exact other (TaskIndex.stateAt_set hr (by rw [hrun]; exact hrunning) hstate)
  | cancelled hr hcan =>
      exact other (TaskIndex.stateAt_set_of_reopens hr hterminal hstate hcan hop)
  | paused hr hrun =>
      exact other (TaskIndex.stateAt_set hr (by rw [hrun]; exact hrunning) hstate)
  | resumed hr hcan =>
      exact other (TaskIndex.stateAt_set_of_reopens hr hterminal hstate hcan hop)

theorem stateAt_restore (json : RecordJson) {text : String}
    (hstate : s.index.stateAt id = some state) :
    (s.restore json text).2.index.stateAt id = some state := by
  unfold TaskScheduler.restore
  cases json.fromStr text with
  | error e => exact hstate
  | ok records =>
      obtain ⟨r, hr, hsame⟩ := Option.map_eq_some_iff.mp hstate
      change (s.restoreRecords records).index.stateAt id = some state
      rw [TaskIndex.stateAt, get_restoreRecords, hr, Option.some_or, Option.map_some, hsame]

theorem reopens_failed {op : Op} (hstate : s.stateOf id = some .failed)
    (hop : op.Reopens id) : op.target = some id ∧ (s.step op).1 = .done (.ok ()) := by
  obtain ⟨r, hr, hfailed⟩ := Option.map_eq_some_iff.mp hstate
  cases op with
  | cancel i now =>
      obtain rfl : i = id := hop
      obtain ⟨t, ht⟩ := TaskScheduler.transition_isOk hr .cancelled
        (by rw [hfailed]; rfl) (now 0)
      simp [Op.target, TaskScheduler.step, TaskScheduler.cancel, ht]
  | resume i now =>
      obtain rfl : i = id := hop
      obtain ⟨t, ht⟩ := TaskScheduler.transition_isOk hr .queued
        (by rw [hfailed]; rfl) (now 0)
      simp [Op.target, TaskScheduler.step, TaskScheduler.resume, ht]
  | _ => exact hop.elim

theorem step_done_of_target {op : Op} (h : op.target = some id) :
    ∃ r, (s.step op).1 = .done r := by
  cases op with
  | setQuota => cases h
  | nextReady => cases h
  | renewLease => cases h
  | _ => exact ⟨_, rfl⟩

theorem absorbs_iff (json : RecordJson) (hx : s.index.WellFormed)
    (hterminal : state.isTerminal = true) (hstate : s.stateOf id = some state) (call : Call) :
    Absorbs json id state s call ↔ (state = .failed → ¬ call.Reopens id) := by
  cases call with
  | restore text =>
      apply iff_of_true
      · exact ⟨stateAt_restore json hstate, fun h => nomatch h⟩
      · exact fun _ h => h
  | op op =>
      constructor
      · intro habsorbs hfailed hop
        subst hfailed
        obtain ⟨htarget, hok⟩ := reopens_failed hstate hop
        obtain ⟨e, herror⟩ := habsorbs.2 htarget
        change Reply.answer (s.step op).1 = _ at herror
        rw [hok] at herror
        cases herror
      · intro hop
        obtain ⟨hsame, herror⟩ := (step_rewrites hx op).absorbs hterminal hstate hop
        refine ⟨hsame, fun htarget => ?_⟩
        obtain ⟨r, hr⟩ := step_done_of_target (s := s) htarget
        cases r with
        | ok u => exact absurd hr (herror htarget)
        | error e => exact ⟨e, congrArg Reply.answer hr⟩

theorem along_absorbs_iff (json : RecordJson) (hx : s.index.WellFormed)
    (hterminal : state.isTerminal = true) (hstate : s.stateOf id = some state)
    (calls : List Call) :
    Along (Absorbs json id state) (stepCall json) s calls ↔
      (state = .failed → ∀ call ∈ calls, ¬ call.Reopens id) := by
  induction calls generalizing s with
  | nil => simp [Along]
  | cons call calls ih =>
      have hnext := wellFormed_stepCall json hx call
      rw [Along]
      constructor
      · rintro ⟨habsorbs, hrest⟩ hfailed
        rw [List.forall_mem_cons]
        exact ⟨(absorbs_iff json hx hterminal hstate call).mp habsorbs hfailed,
          (ih hnext habsorbs.1).mp hrest hfailed⟩
      · intro hall
        have habsorbs := (absorbs_iff json hx hterminal hstate call).mpr
          fun hfailed => hall hfailed call List.mem_cons_self
        refine ⟨habsorbs, (ih hnext habsorbs.1).mpr fun hfailed c hc => ?_⟩
        exact hall hfailed c (List.mem_cons_of_mem call hc)

/-- In every reachable state and every later run, restorations included, a task in a
terminal state is absorbed in it, refusing every call aimed at it, if and only if it is
not a failed task that the run cancels or resumes. -/
theorem terminal_absorption (json : RecordJson) (dim : DimensionId) (policy : PreemptionPolicy)
    (leaseMs : UInt64) (before : List Call) (id : TaskId) (state : TaskState)
    (hterminal : state.isTerminal = true)
    (hstate : (final (stepCall json) (TaskScheduler.new dim policy leaseMs)
      before).stateOf id = some state) (later : List Call) :
    Along (Absorbs json id state) (stepCall json)
        (final (stepCall json) (TaskScheduler.new dim policy leaseMs) before) later ↔
      (state = .failed → ∀ call ∈ later, ¬ call.Reopens id) :=
  along_absorbs_iff json (wellFormed_final json TaskIndex.wellFormed_new before) hterminal
    hstate later

/-- A task that may be executed once. -/
def singleAttemptSpec : TaskSpec :=
  { TaskSpec.new 7 "etl" "load" with retryPolicy := { RetryPolicy.default with maxAttempts := 1 } }

def failedRun : List Op :=
  [.submit 1 singleAttemptSpec fun _ => 0,
   .nextReady "w" fun _ => 0,
   .fail 1 "disk full" fun _ => 0]

def loadRecords : List TaskRecord :=
  (final TaskScheduler.step (TaskScheduler.new 1 .none 5000) (failedRun.take 1)).index.iterInOrder

/-- After the run its first snapshot is read: the failed task is in the ready queue. -/
def failedCalls : List Call :=
  failedRun.map Call.op ++ [.restore (snapshotText loadRecords)]

/-- The queue element of the failed task is taken, and other calls are made. -/
theorem terminal_absorption_failed :
    (final (stepCall (jsonOf loadRecords)) (TaskScheduler.new 1 .none 5000)
        failedCalls).inQueue 1 = true ∧
      Along (Absorbs (jsonOf loadRecords) 1 .failed) (stepCall (jsonOf loadRecords))
        (final (stepCall (jsonOf loadRecords)) (TaskScheduler.new 1 .none 5000) failedCalls)
        [.op (.nextReady "w" fun _ => 0), .op (.pause 1 fun _ => 0), .op (.complete 1 fun _ => 0),
          .restore (snapshotText loadRecords), .op (.submit 2 (.new 7 "etl" "load") fun _ => 0),
          .op (.cancel 2 fun _ => 0)] := by
  have hrun : final (stepCall (jsonOf loadRecords)) (TaskScheduler.new 1 .none 5000) failedCalls =
      (final TaskScheduler.step (TaskScheduler.new 1 .none 5000) failedRun).restoreRecords
        loadRecords := by
    rw [failedCalls, final_concat, stepCall, TaskScheduler.restore, fromStr_jsonOf]
    rfl
  constructor
  · rw [hrun]
    decide
  · apply (terminal_absorption (jsonOf loadRecords) 1 .none 5000 failedCalls 1 .failed rfl
      (by rw [hrun]; decide) _).mpr
    simp [Call.Reopens, Op.Reopens]

/-- A failed task is resumed: it is queued again. -/
theorem resume_revives_failed :
    (final (stepCall (jsonOf [])) (TaskScheduler.new 1 .none 5000)
        (failedRun.map Call.op)).stateOf 1 = some .failed ∧
      ¬ Along (Absorbs (jsonOf []) 1 .failed) (stepCall (jsonOf []))
        (final (stepCall (jsonOf [])) (TaskScheduler.new 1 .none 5000) (failedRun.map Call.op))
        [.op (.resume 1 fun _ => 0)] := by
  refine ⟨by decide, fun h => ?_⟩
  have hstate := h.1.1
  revert hstate
  decide

end Scheduler

end InfinityOS
