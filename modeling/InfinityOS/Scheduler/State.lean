import InfinityOS.Core.Types

/-!
# State of the task scheduler

The data of `TaskScheduler`: task specifications and records, the task index,
the ready queue, the quotas and the per-dimension counters of running tasks.
The action log, the template registry and the coordinator id are left out: no
modelled operation reads them.

A task keeps its record for ever, so the sequence counter, which counts
submissions, stays far below `2 ^ 64` and is a natural number here.
-/

namespace InfinityOS

namespace Scheduler

inductive TaskState where
  | pending
  | queued
  | running
  | paused
  | completed
  | failed
  | cancelled
  deriving DecidableEq

namespace TaskState

def isTerminal : TaskState → Bool
  | completed | failed | cancelled => true
  | _ => false

def canTransitionTo : TaskState → TaskState → Bool
  | pending, queued | pending, cancelled => true
  | queued, running | queued, cancelled => true
  | running, paused | running, completed | running, failed | running, cancelled => true
  | paused, queued | paused, cancelled => true
  -- the retry path
  | failed, queued | failed, cancelled => true
  | _, _ => false

end TaskState

inductive TaskPriority where
  | background
  | normal
  | high
  | critical
  deriving DecidableEq

def TaskPriority.rank : TaskPriority → ℕ
  | background => 0
  | normal => 1
  | high => 2
  | critical => 3

structure RetryPolicy where
  maxAttempts : UInt32
  baseBackoffMs : UInt64
  maxBackoffMs : UInt64

def RetryPolicy.default : RetryPolicy :=
  { maxAttempts := 3, baseBackoffMs := 500, maxBackoffMs := 30000 }

/-- The delay before the attempt `n`, counted from 0. -/
def RetryPolicy.backoffFor (p : RetryPolicy) (attempt : UInt32) : UInt64 :=
  if p.baseBackoffMs = 0 then
    0
  else
    -- the shift is cut so that it cannot overflow
    let shift := min attempt 62
    let raw := saturatingMul p.baseBackoffMs (1 <<< shift.toUInt64)
    min raw p.maxBackoffMs

structure TaskLease where
  taskId : TaskId
  workerId : String
  issuedAtMs : UInt64
  expiresAtMs : UInt64
  deriving DecidableEq

namespace TaskLease

def new (taskId : TaskId) (workerId : String) (durationMs now : UInt64) : TaskLease :=
  { taskId, workerId, issuedAtMs := now, expiresAtMs := saturatingAdd now durationMs }

def isValid (l : TaskLease) (now : UInt64) : Bool :=
  now < l.expiresAtMs

def renew (l : TaskLease) (durationMs now : UInt64) : TaskLease :=
  { l with issuedAtMs := now, expiresAtMs := saturatingAdd now durationMs }

end TaskLease

structure DimensionQuota where
  maxConcurrent : UInt32
  maxQueued : UInt32
  tasksPerMinute : UInt32

/-- `u32::MAX` in both limits. -/
def DimensionQuota.unlimited : DimensionQuota :=
  { maxConcurrent := 4294967295, maxQueued := 4294967295, tasksPerMinute := 0 }

structure TaskSpec where
  dimensionId : DimensionId
  kind : String
  label : String
  priority : TaskPriority
  params : BTreeMap String Json
  retryPolicy : RetryPolicy
  dependencies : List TaskId
  templateId : Option Uuid

def TaskSpec.new (dim : DimensionId) (kind label : String) : TaskSpec :=
  { dimensionId := dim, kind, label, priority := .normal, params := ∅,
    retryPolicy := .default, dependencies := [], templateId := none }

structure TaskRecord where
  taskId : TaskId
  spec : TaskSpec
  state : TaskState
  attempt : UInt32
  submittedAtMs : UInt64
  updatedAtMs : UInt64
  failureReason : Option String
  lease : Option TaskLease
  seq : ℕ

def TaskRecord.new (taskId : TaskId) (spec : TaskSpec) (seq : ℕ) (now : UInt64) :
    TaskRecord :=
  { taskId, spec, state := .pending, attempt := 0, submittedAtMs := now,
    updatedAtMs := now, failureReason := none, lease := none, seq }

inductive SchedulerError where
  | duplicateTaskId (id : TaskId)
  | taskNotFound (id : TaskId)
  | invalidTransition (taskId : TaskId) (source target : TaskState)
  | quotaExceeded (dim : DimensionId) (running limit : UInt32)
  | prerequisiteNotFound (id : TaskId)
  | leaseExpired (id : TaskId)
  deriving DecidableEq

/-- An element `(priority, seq, task_id)` of the ready queue. -/
structure ReadyEntry where
  priority : TaskPriority
  seq : ℕ
  taskId : TaskId
  deriving DecidableEq

/-- The comparison of `sort_ready_queue`: highest priority first, then lowest
sequence number. -/
def ReadyEntry.before (e f : ReadyEntry) : Prop :=
  f.priority.rank < e.priority.rank ∨
    (e.priority.rank = f.priority.rank ∧ e.seq ≤ f.seq)

instance : DecidableRel ReadyEntry.before := fun e f => by
  unfold ReadyEntry.before
  infer_instance

instance : Std.Total ReadyEntry.before := ⟨fun e f => by
  unfold ReadyEntry.before
  omega⟩

instance : IsTrans ReadyEntry ReadyEntry.before := ⟨fun e f g hef hfg => by
  unfold ReadyEntry.before at *
  omega⟩

structure TaskIndex where
  records : HashMap TaskId TaskRecord
  insertionOrder : List TaskId
  seq : ℕ

namespace TaskIndex

def new : TaskIndex :=
  { records := ∅, insertionOrder := [], seq := 0 }

def contains (x : TaskIndex) (id : TaskId) : Bool :=
  x.records.contains id

def get (x : TaskIndex) (id : TaskId) : Option TaskRecord :=
  x.records[id]?

/-- The write through `get_mut`: the record of `id` becomes `r`. -/
def set (x : TaskIndex) (id : TaskId) (r : TaskRecord) : TaskIndex :=
  { x with records := x.records.insert id r }

def push (x : TaskIndex) (taskId : TaskId) (spec : TaskSpec) (now : UInt64) : TaskIndex :=
  { records := x.records.insert taskId (TaskRecord.new taskId spec (x.seq + 1) now)
    insertionOrder := x.insertionOrder ++ [taskId]
    seq := x.seq + 1 }

def insert (x : TaskIndex) (taskId : TaskId) (spec : TaskSpec) (now : UInt64) :
    Except SchedulerError TaskIndex :=
  if x.contains taskId then
    .error (.duplicateTaskId taskId)
  else
    .ok (x.push taskId spec now)

def iterInOrder (x : TaskIndex) : List TaskRecord :=
  x.insertionOrder.filterMap x.get

@[simp] theorem get_new (id : TaskId) : TaskIndex.new.get id = none := by
  simp [get, new]

@[simp] theorem iterInOrder_new : TaskIndex.new.iterInOrder = [] := rfl

theorem contains_eq_isSome (x : TaskIndex) (id : TaskId) :
    x.contains id = (x.get id).isSome := by
  simp [contains, get]

theorem get_set (x : TaskIndex) (id : TaskId) (r : TaskRecord) (i : TaskId) :
    (x.set id r).get i = if i = id then some r else x.get i := by
  by_cases h : i = id
  · simp [get, set, h]
  · simp [get, set, h, Std.ExtTreeMap.getElem?_insert, Ne.symm h]

@[simp] theorem get_set_self (x : TaskIndex) (id : TaskId) (r : TaskRecord) :
    (x.set id r).get id = some r := by
  rw [get_set, if_pos rfl]

theorem get_set_of_ne (x : TaskIndex) {id i : TaskId} (r : TaskRecord) (h : i ≠ id) :
    (x.set id r).get i = x.get i := by
  rw [get_set, if_neg h]

theorem get_push (x : TaskIndex) (id : TaskId) (spec : TaskSpec) (now : UInt64)
    (i : TaskId) :
    (x.push id spec now).get i =
      if i = id then some (TaskRecord.new id spec (x.seq + 1) now) else x.get i := by
  by_cases h : i = id
  · simp [get, push, h]
  · simp [get, push, h, Std.ExtTreeMap.getElem?_insert, Ne.symm h]

theorem set_set (x : TaskIndex) (id : TaskId) (r r' : TaskRecord) :
    (x.set id r).set id r' = x.set id r' := by
  have hrecords : (x.records.insert id r).insert id r' = x.records.insert id r' := by
    refine Std.ExtTreeMap.ext_getElem? fun i => ?_
    by_cases h : id = i
    · simp [h]
    · simp [Std.ExtTreeMap.getElem?_insert, h]
  rw [set, set, set, hrecords]

@[simp] theorem insertionOrder_set (x : TaskIndex) (id : TaskId) (r : TaskRecord) :
    (x.set id r).insertionOrder = x.insertionOrder := rfl

@[simp] theorem seq_set (x : TaskIndex) (id : TaskId) (r : TaskRecord) :
    (x.set id r).seq = x.seq := rfl

end TaskIndex

inductive PreemptionPolicy where
  | none
  | criticalPreemptsAll
  | higherPriorityWins
  deriving DecidableEq

structure TaskScheduler where
  index : TaskIndex
  readyQueue : List ReadyEntry
  quotas : HashMap DimensionId DimensionQuota
  runningCount : HashMap DimensionId UInt32
  preemptionPolicy : PreemptionPolicy
  leaseDurationMs : UInt64
  dimensionId : DimensionId

namespace TaskScheduler

def new (dimensionId : DimensionId) (preemptionPolicy : PreemptionPolicy)
    (leaseDurationMs : UInt64) : TaskScheduler :=
  { index := TaskIndex.new, readyQueue := [], quotas := ∅, runningCount := ∅,
    preemptionPolicy, leaseDurationMs, dimensionId }

def setQuota (s : TaskScheduler) (dim : DimensionId) (quota : DimensionQuota) :
    TaskScheduler :=
  { s with quotas := s.quotas.insert dim quota }

def quotaFor (s : TaskScheduler) (dim : DimensionId) : DimensionQuota :=
  s.quotas[dim]?.getD .unlimited

def runningFor (s : TaskScheduler) (dim : DimensionId) : UInt32 :=
  s.runningCount[dim]?.getD 0

def incrementRunning (s : TaskScheduler) (dim : DimensionId) : TaskScheduler :=
  { s with runningCount := s.runningCount.insert dim (s.runningFor dim + 1) }

def decrementRunning (s : TaskScheduler) (dim : DimensionId) : TaskScheduler :=
  { s with runningCount := s.runningCount.insert dim (saturatingPred (s.runningFor dim)) }

/-- The record of `id` becomes `r`, everything else stays. -/
def setRecord (s : TaskScheduler) (id : TaskId) (r : TaskRecord) : TaskScheduler :=
  { s with index := s.index.set id r }

def sortReadyQueue (s : TaskScheduler) : TaskScheduler :=
  { s with readyQueue := s.readyQueue.insertionSort ReadyEntry.before }

def enqueue (s : TaskScheduler) (taskId : TaskId) (priority : TaskPriority) (seq : ℕ) :
    TaskScheduler :=
  sortReadyQueue { s with readyQueue := s.readyQueue ++ [⟨priority, seq, taskId⟩] }

def tasksInState (s : TaskScheduler) (state : TaskState) : List TaskRecord :=
  s.index.iterInOrder.filter (fun r => r.state = state)

theorem runningFor_incrementRunning (s : TaskScheduler) (dim d : DimensionId) :
    (s.incrementRunning dim).runningFor d =
      if d = dim then s.runningFor dim + 1 else s.runningFor d := by
  by_cases h : d = dim
  · simp [runningFor, incrementRunning, h]
  · simp [runningFor, incrementRunning, h, Std.ExtTreeMap.getElem?_insert, Ne.symm h]

theorem runningFor_decrementRunning (s : TaskScheduler) (dim d : DimensionId) :
    (s.decrementRunning dim).runningFor d =
      if d = dim then saturatingPred (s.runningFor dim) else s.runningFor d := by
  by_cases h : d = dim
  · simp [runningFor, decrementRunning, h]
  · simp [runningFor, decrementRunning, h, Std.ExtTreeMap.getElem?_insert, Ne.symm h]

theorem quotaFor_setQuota (s : TaskScheduler) (dim d : DimensionId)
    (q : DimensionQuota) :
    (s.setQuota dim q).quotaFor d = if d = dim then q else s.quotaFor d := by
  by_cases h : d = dim
  · simp [quotaFor, setQuota, h]
  · simp [quotaFor, setQuota, h, Std.ExtTreeMap.getElem?_insert, Ne.symm h]

end TaskScheduler

end Scheduler

end InfinityOS
