import InfinityOS.Core.LevelQueue
import InfinityOS.Kernel.Dimension
import InfinityOS.Transition.Reach

/-!
# The scheduler of the kernel

Tasks are the entries of one array and wait, by their index in it, in a FIFO queue for each
priority level. Submitting a task drains the queues, and the lock is free while a task
function runs, so task functions call the scheduler themselves. A machine runs one thread
of such calls: its stack holds, for every task function that runs, the loop of
`drain_queue` that has called it. Function pointers are values of `F` with their code given
apart, so functions may submit each other. The clock readings and the answers of `calloc`
are chosen at every step.
-/

namespace InfinityOS

namespace Kernel

/-- `ify_status_t`. -/
abbrev StatusCode := Int32

def ifyOk : StatusCode := 0

def errInvalidArg : StatusCode := -1

def errOutOfMemory : StatusCode := -2

def errNotFound : StatusCode := -3

def errOverflow : StatusCode := -5

def errAlreadyExists : StatusCode := -7

/-- `ify_task_state_t`. -/
inductive TaskState where
  | queued
  | running
  | paused
  | cancelled
  | failed
  | completed
  deriving DecidableEq

/-- `task_entry_t`, without the link to the next entry of its queue. -/
structure TaskEntry (F A : Type*) where
  id : KernelTaskId
  fn : F
  arg : A
  priority : UInt8
  state : TaskState
  cancelFlag : Bool

def level (priority : UInt8) : Fin 8 :=
  if h : priority ≤ 7 then ⟨priority.toNat, Nat.lt_succ_of_le h⟩ else 7

/-- `IFY_SCHED_MAX_TASKS`. -/
def schedMaxTasks : ℕ := 4096

/-- `struct ify_scheduler`, without its timers. -/
structure Scheduler (F A : Type*) where
  maxConcurrent : UInt32
  runningCount : UInt32
  queues : Fin 8 → List ℕ
  tasks : List (TaskEntry F A)
  taskSeq : Word

namespace Scheduler

variable {F A : Type*}

/-- `ify_scheduler_create`. -/
def create (maxConcurrent : UInt32) : Scheduler F A where
  maxConcurrent := if maxConcurrent ≠ 0 then maxConcurrent else 32
  runningCount := 0
  queues := fun _ => []
  tasks := []
  taskSeq := 0

/-- `next_task_id` at the clock reading `now`. -/
def nextTaskId (s : Scheduler F A) (now : Word) : KernelTaskId :=
  ⟨now, s.taskSeq + 1⟩

/-- `find_task`, with the index of the entry. -/
def findTask (s : Scheduler F A) (id : KernelTaskId) : Option (TaskEntry F A × ℕ) :=
  s.tasks.zipIdx.find? fun entry => entry.1.id = id

/-- The new entry of a submission. -/
def register (s : Scheduler F A) (now : Word) (fn : F) (arg : A) (priority : UInt8) :
    Scheduler F A :=
  let entry : TaskEntry F A :=
    { id := s.nextTaskId now, fn := fn, arg := arg, priority := priority, state := .queued,
      cancelFlag := false }
  { s with tasks := s.tasks ++ [entry], taskSeq := s.taskSeq + 1 }

def enqueue (s : Scheduler F A) (task : ℕ) (priority : UInt8) : Scheduler F A :=
  { s with queues := LevelQueue.push s.queues (level priority) task }

def dequeueHighest (s : Scheduler F A) : Option (ℕ × Scheduler F A) :=
  (LevelQueue.pop s.queues).map fun popped => (popped.1, { s with queues := popped.2 })

def setState (s : Scheduler F A) (task : ℕ) (state : TaskState) : Scheduler F A :=
  { s with tasks := s.tasks.modify task fun t => { t with state := state } }

/-- `ify_scheduler_cancel`. -/
def cancel (s : Scheduler F A) (id : KernelTaskId) : StatusCode × Scheduler F A :=
  match s.findTask id with
  | none => (errNotFound, s)
  | some (t, i) =>
      if t.state = .completed ∨ t.state = .failed ∨ t.state = .cancelled then
        (errNotFound, s)
      else
        let entry (t : TaskEntry F A) : TaskEntry F A :=
          { t with
            cancelFlag := true
            state := if t.state = .queued then .cancelled else t.state }
        (ifyOk, { s with tasks := s.tasks.modify i entry })

/-- `ify_scheduler_state`. -/
def taskState (s : Scheduler F A) (id : KernelTaskId) : StatusCode × Option TaskState :=
  match s.findTask id with
  | none => (errNotFound, none)
  | some (t, _) => (ifyOk, some t.state)

def withdrawn (s : Scheduler F A) (id : KernelTaskId) : List ℕ :=
  match s.findTask id with
  | none => []
  | some (t, i) => if t.state = .queued then [i] else []

end Scheduler

/-- What a thread does between its calls of the scheduler: it reads and writes the memory
`μ` that all functions share. `out` writes the new id through `out_id`. -/
inductive Prog (F A μ : Type*) where
  | ret (rc : StatusCode)
  | submit (fn : Option F) (arg : A) (priority : UInt8) (out : KernelTaskId → μ → μ)
      (next : StatusCode → Prog F A μ)
  | cancel (id : KernelTaskId) (next : StatusCode → Prog F A μ)
  | state (id : KernelTaskId) (next : StatusCode × Option TaskState → Prog F A μ)
  | read (next : μ → Prog F A μ)
  | write (memory : μ) (next : Prog F A μ)

/-- The thread runs code, or it is in the loop of `drain_queue` of a submission. -/
inductive Control (F A μ : Type*) where
  | exec (prog : Prog F A μ)
  | drain (next : StatusCode → Prog F A μ)

/-- A loop of `drain_queue` that waits for the function of a task. -/
structure Frame (F A μ : Type*) where
  task : ℕ
  next : StatusCode → Prog F A μ

/-- `called` and `withdrawn` record which task functions were called and which tasks were
cancelled while QUEUED. -/
structure Machine (F A μ : Type*) where
  sched : Scheduler F A
  memory : μ
  control : Control F A μ
  stack : List (Frame F A μ)
  called : List ℕ
  withdrawn : List ℕ

/-- What the environment answers in a step. -/
structure Choice where
  clock : Word
  allocated : Bool

namespace Machine

variable {F A μ : Type*}

/-- The program that creates the scheduler and goes on with `main`. -/
def start (maxConcurrent : UInt32) (main : Prog F A μ) (memory : μ) : Machine F A μ where
  sched := Scheduler.create maxConcurrent
  memory := memory
  control := .exec main
  stack := []
  called := []
  withdrawn := []

/-- `ify_scheduler_submit`, up to the call of `drain_queue`. -/
def submit (m : Machine F A μ) (c : Choice) (fn : Option F) (arg : A) (priority : UInt8)
    (out : KernelTaskId → μ → μ) (next : StatusCode → Prog F A μ) : Machine F A μ :=
  match fn with
  | none => { m with control := .exec (next errInvalidArg) }
  | some fn =>
      if schedMaxTasks ≤ m.sched.tasks.length then
        { m with control := .exec (next errOverflow) }
      else if c.allocated = false then
        { m with control := .exec (next errOutOfMemory) }
      else
        let s := m.sched.register c.clock fn arg priority
        { m with
          sched := s.enqueue m.sched.tasks.length priority
          memory := out (m.sched.nextTaskId c.clock) m.memory
          control := .drain next }

/-- The loop of `drain_queue`, up to the next call of a task function. -/
def drainQueue (code : F → KernelTaskId → A → Prog F A μ) (m : Machine F A μ)
    (next : StatusCode → Prog F A μ) : Option (Machine F A μ) :=
  if m.sched.runningCount < m.sched.maxConcurrent then
    match m.sched.dequeueHighest with
    | none => some { m with control := .exec (next ifyOk) }
    | some (i, s) =>
        match s.tasks[i]? with
        | none => none
        | some t =>
            if t.cancelFlag then
              some { m with sched := s.setState i .cancelled }
            else
              let s := s.setState i .running
              some
                { m with
                  sched := { s with runningCount := s.runningCount + 1 }
                  control := .exec (code t.fn t.id t.arg)
                  stack := ⟨i, next⟩ :: m.stack
                  called := i :: m.called }
  else
    some { m with control := .exec (next ifyOk) }

/-- The function of a task returns to the loop that has called it. -/
def resume (m : Machine F A μ) (rc : StatusCode) (frame : Frame F A μ)
    (stack : List (Frame F A μ)) : Machine F A μ :=
  let s := { m.sched with runningCount := m.sched.runningCount - 1 }
  { m with
    sched := s.setState frame.task (if rc = ifyOk then .completed else .failed)
    control := .drain frame.next
    stack := stack }

/-- There is no step where `main` has returned. -/
def step (code : F → KernelTaskId → A → Prog F A μ) (m : Machine F A μ) (c : Choice) :
    Option (Machine F A μ) :=
  match m.control with
  | .drain next => m.drainQueue code next
  | .exec (.submit fn arg priority out next) => some (m.submit c fn arg priority out next)
  | .exec (.cancel id next) =>
      some
        { m with
          sched := (m.sched.cancel id).2
          control := .exec (next (m.sched.cancel id).1)
          withdrawn := m.sched.withdrawn id ++ m.withdrawn }
  | .exec (.state id next) => some { m with control := .exec (next (m.sched.taskState id)) }
  | .exec (.read next) => some { m with control := .exec (next m.memory) }
  | .exec (.write memory next) => some { m with memory := memory, control := .exec next }
  | .exec (.ret rc) =>
      match m.stack with
      | [] => none
      | frame :: stack => some (m.resume rc frame stack)

/-- The states of the runs of `main`. -/
def Reached (code : F → KernelTaskId → A → Prog F A μ) (maxConcurrent : UInt32)
    (main : Prog F A μ) (memory : μ) (m : Machine F A μ) : Prop :=
  Transition.Reach (fun m c m' => step code m c = some m') (fun _ _ => True)
    (start maxConcurrent main memory) m

/-- `main` has returned. -/
def Returned (m : Machine F A μ) : Prop :=
  m.stack = [] ∧ ∃ rc, m.control = .exec (.ret rc)

end Machine

end Kernel

end InfinityOS
