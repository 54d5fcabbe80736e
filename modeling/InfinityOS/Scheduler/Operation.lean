import InfinityOS.Scheduler.State

/-!
# Operations of the task scheduler

The methods of `TaskScheduler`, each as a function from the scheduler before
the call to its answer and the scheduler after it. An operation that answers
with an error returns the scheduler as the source leaves it at that point. The
clock readings of a call and the generated worker id are arguments.
-/

namespace InfinityOS

namespace Scheduler

namespace TaskScheduler

/-- Validate and apply a state transition. A refused transition changes nothing. -/
def transition (s : TaskScheduler) (taskId : TaskId) (next : TaskState) (now : UInt64) :
    Except SchedulerError TaskScheduler :=
  match s.index.get taskId with
  | none => .error (.taskNotFound taskId)
  | some record =>
      if record.state.canTransitionTo next then
        let s := s.setRecord taskId { record with state := next, updatedAtMs := now }
        if next = .queued then
          .ok (s.enqueue taskId record.spec.priority record.seq)
        else if next = .running then
          .ok (s.incrementRunning record.spec.dimensionId)
        else
          .ok s
      else
        .error (.invalidTransition taskId record.state next)

def allDepsCompleted (s : TaskScheduler) (deps : List TaskId) : Bool :=
  deps.all fun id => ((s.index.get id).map fun r => decide (r.state = .completed)).getD false

/-- One turn of the loop of `promote_pending_tasks`; the result of the
transition is ignored. -/
def promoteOne (s : TaskScheduler) (id : TaskId) (now : UInt64) : TaskScheduler :=
  let deps := ((s.index.get id).map fun r => r.spec.dependencies).getD []
  if s.allDepsCompleted deps then
    match s.transition id .queued now with
    | .ok s => s
    | .error _ => s
  else s

/-- The loop of `promote_pending_tasks` over the collected ids. -/
def promoteLoop (s : TaskScheduler) : List TaskId → Clock → TaskScheduler
  | [], _ => s
  | id :: ids, now => promoteLoop (s.promoteOne id (now 0)) ids fun k => now (k + 1)

def promotePendingTasks (s : TaskScheduler) (now : Clock) : TaskScheduler :=
  s.promoteLoop ((s.tasksInState .pending).map TaskRecord.taskId) now

def submit (s : TaskScheduler) (taskId : TaskId) (spec : TaskSpec) (now : Clock) :
    Except SchedulerError Unit × TaskScheduler :=
  if s.index.contains taskId then
    (.error (.duplicateTaskId taskId), s)
  else
    let dim := spec.dimensionId
    -- `count() as u32`
    let queuedCount := UInt32.ofNat (s.index.iterInOrder.countP fun r =>
      r.spec.dimensionId = dim ∧ r.state = .queued)
    let quota := s.quotaFor dim
    if quota.maxQueued ≤ queuedCount then
      (.error (.quotaExceeded dim (s.runningFor dim) quota.maxQueued), s)
    else
      match spec.dependencies.find? fun prereq => !s.index.contains prereq with
      | some prereq => (.error (.prerequisiteNotFound prereq), s)
      | none =>
          let depsDone := s.allDepsCompleted spec.dependencies
          match s.index.insert taskId spec (now 0) with
          | .error e => (.error e, s)
          | .ok index =>
              let s := { s with index := index }
              if depsDone then
                match s.transition taskId .queued (now 1) with
                | .error e => (.error e, s)
                | .ok s => (.ok (), s)
              else
                (.ok (), s)

/-- The test of `next_ready` on a queue element: its task exists and its
dimension has a free slot. -/
def eligible (s : TaskScheduler) (e : ReadyEntry) : Bool :=
  match s.index.get e.taskId with
  | some r => s.runningFor r.spec.dimensionId < (s.quotaFor r.spec.dimensionId).maxConcurrent
  | none => false

def nextReady (s : TaskScheduler) (workerId : String) (now : Clock) :
    Option (TaskRecord × TaskLease) × TaskScheduler :=
  let s := s.sortReadyQueue
  match s.readyQueue.findIdx? s.eligible with
  | none => (none, s)
  | some pos =>
      match s.readyQueue[pos]? with
      | none => (none, s)
      | some entry =>
          let s := { s with readyQueue := s.readyQueue.eraseIdx pos }
          match s.transition entry.taskId .running (now 0) with
          | .error _ => (none, s)
          | .ok s =>
              let lease := TaskLease.new entry.taskId workerId s.leaseDurationMs (now 1)
              match s.index.get entry.taskId with
              | none => (none, s)
              | some record =>
                  let record :=
                    { record with lease := some lease, attempt := record.attempt + 1 }
                  (some (record, lease), s.setRecord entry.taskId record)

def renewLease (s : TaskScheduler) (taskId : TaskId) (now : Clock) :
    Except SchedulerError TaskLease × TaskScheduler :=
  match s.index.get taskId with
  | none => (.error (.taskNotFound taskId), s)
  | some record =>
      match record.lease with
      | none => (.error (.leaseExpired taskId), s)
      | some lease =>
          if lease.isValid (now 0) then
            let lease := lease.renew s.leaseDurationMs (now 1)
            (.ok lease, s.setRecord taskId { record with lease := some lease })
          else
            (.error (.leaseExpired taskId), s)

/-- The dimension of a task, or the scheduler's own when there is no such task. -/
def dimensionOf (s : TaskScheduler) (taskId : TaskId) : DimensionId :=
  ((s.index.get taskId).map fun r => r.spec.dimensionId).getD s.dimensionId

def complete (s : TaskScheduler) (taskId : TaskId) (now : Clock) :
    Except SchedulerError Unit × TaskScheduler :=
  match s.transition taskId .completed (now 0) with
  | .error e => (.error e, s)
  | .ok s =>
      let s := s.decrementRunning (s.dimensionOf taskId)
      (.ok (), s.promotePendingTasks fun k => now (k + 1))

/-- The common start of both branches of `fail`: the transition to `failed`, the
failure reason and the freed slot. -/
def markFailed (s : TaskScheduler) (taskId : TaskId) (reason : String)
    (dim : DimensionId) (now : UInt64) : Except SchedulerError Unit × TaskScheduler :=
  match s.transition taskId .failed now with
  | .error e => (.error e, s)
  | .ok s =>
      match s.index.get taskId with
      | none => (.error (.taskNotFound taskId), s)
      | some r =>
          let s := s.setRecord taskId { r with failureReason := some reason }
          (.ok (), s.decrementRunning dim)

def fail (s : TaskScheduler) (taskId : TaskId) (reason : String) (now : Clock) :
    Except SchedulerError Unit × TaskScheduler :=
  match s.index.get taskId with
  | none => (.error (.taskNotFound taskId), s)
  | some r =>
      match s.markFailed taskId reason r.spec.dimensionId (now 0) with
      | (.error e, s) => (.error e, s)
      | (.ok (), s) =>
          -- retry while `attempt < max_attempts`
          if r.attempt < r.spec.retryPolicy.maxAttempts then
            match s.transition taskId .queued (now 1) with
            | .error e => (.error e, s)
            | .ok s => (.ok (), s)
          else
            (.ok (), s)

def cancel (s : TaskScheduler) (taskId : TaskId) (now : Clock) :
    Except SchedulerError Unit × TaskScheduler :=
  let wasRunning := ((s.index.get taskId).map fun r => decide (r.state = .running)).getD false
  let dim := s.dimensionOf taskId
  match s.transition taskId .cancelled (now 0) with
  | .error e => (.error e, s)
  | .ok s =>
      let s := if wasRunning then s.decrementRunning dim else s
      (.ok (), { s with readyQueue := s.readyQueue.filter fun e => e.taskId ≠ taskId })

def pause (s : TaskScheduler) (taskId : TaskId) (now : Clock) :
    Except SchedulerError Unit × TaskScheduler :=
  let dim := s.dimensionOf taskId
  match s.transition taskId .paused (now 0) with
  | .error e => (.error e, s)
  | .ok s => (.ok (), s.decrementRunning dim)

def resume (s : TaskScheduler) (taskId : TaskId) (now : Clock) :
    Except SchedulerError Unit × TaskScheduler :=
  match s.transition taskId .queued (now 0) with
  | .error e => (.error e, s)
  | .ok s => (.ok (), s)

end TaskScheduler

/-- A call of the scheduler's interface, with the clock readings it takes and,
for `next_ready`, the worker id it generates. -/
inductive Op where
  | setQuota (dim : DimensionId) (quota : DimensionQuota)
  | submit (taskId : TaskId) (spec : TaskSpec) (now : Clock)
  | nextReady (workerId : String) (now : Clock)
  | renewLease (taskId : TaskId) (now : Clock)
  | complete (taskId : TaskId) (now : Clock)
  | fail (taskId : TaskId) (reason : String) (now : Clock)
  | cancel (taskId : TaskId) (now : Clock)
  | pause (taskId : TaskId) (now : Clock)
  | resume (taskId : TaskId) (now : Clock)

/-- What a call returns. -/
inductive Answer where
  | unit
  | handed (task : Option (TaskRecord × TaskLease))
  | lease (result : Except SchedulerError TaskLease)
  | done (result : Except SchedulerError Unit)

namespace TaskScheduler

def step (s : TaskScheduler) : Op → Answer × TaskScheduler
  | .setQuota dim quota => (.unit, s.setQuota dim quota)
  | .submit id spec now => let r := s.submit id spec now; (.done r.1, r.2)
  | .nextReady w now => let r := s.nextReady w now; (.handed r.1, r.2)
  | .renewLease id now => let r := s.renewLease id now; (.lease r.1, r.2)
  | .complete id now => let r := s.complete id now; (.done r.1, r.2)
  | .fail id reason now => let r := s.fail id reason now; (.done r.1, r.2)
  | .cancel id now => let r := s.cancel id now; (.done r.1, r.2)
  | .pause id now => let r := s.pause id now; (.done r.1, r.2)
  | .resume id now => let r := s.resume id now; (.done r.1, r.2)

end TaskScheduler

end Scheduler

end InfinityOS
