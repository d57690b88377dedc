import DistroSync.Lib.PyValue
import DistroSync.Lib.Table

/-!
# The queue manager and the dead letter queue

`broker/queue_manager.py` and `broker/dead_letter.py`.

Each operation is a function on the state.  Where the source gives up its lock in the
middle of an operation, the operation is cut there: `nackBegin` and `nackFinish` are
the two critical sections of `negative_acknowledge`, `retryBegin` and `retryFinish`
those of `DeadLetterQueue.retry`, and the whole operation is their composition.  A
task that is between two sections is held by the suspended operation only.

A dictionary whose values are stored under their own `task_id` is a `Table
Task.taskId`; the pending queues are a table of `(name, deque)` pairs in creation
order, which is the order in which a wildcard consumer looks at them.
-/

namespace DistroSync

open Keyed Py

/-- The status texts a task is given. -/
inductive TaskStatus where
  | pending
  | inFlight
  | done
  | deadLettered
  deriving DecidableEq

/-- `Task`: a single unit of work. -/
structure Task where
  taskId : String
  queueName : Scalar
  payload : Json
  status : TaskStatus := .pending
  createdAt : Rat
  assignedWorker : Json := .null
  attempts : Nat := 0
  /-- Set by `DeadLetterQueue.add` only. -/
  deadLetteredAt : Option Rat := none

namespace Task

/-- A pending task as `dequeue` hands it to a worker. -/
def deliver (task : Task) (workerId : Json) : Task :=
  { task with status := .inFlight, assignedWorker := workerId, attempts := task.attempts + 1 }

/-- A task as it goes back to its queue. -/
def release (task : Task) : Task :=
  { task with status := .pending, assignedWorker := .null }

@[simp] theorem deliver_taskId (task : Task) (w : Json) : (task.deliver w).taskId = task.taskId :=
  rfl

@[simp] theorem deliver_attempts (task : Task) (w : Json) :
    (task.deliver w).attempts = task.attempts + 1 := rfl

@[simp] theorem release_taskId (task : Task) : task.release.taskId = task.taskId := rfl

@[simp] theorem release_queueName (task : Task) : task.release.queueName = task.queueName := rfl

end Task

/-- Tasks stored under their own id. -/
abbrev TaskTable := Table Task.taskId

/-- `DeadLetterQueue`: tasks that exhausted their retry budget, oldest first. -/
structure DeadLetterQueue where
  tasks : TaskTable := Table.empty
  totalReceived : Nat := 0
  totalRetried : Nat := 0
  totalPurged : Nat := 0

namespace DeadLetterQueue

/-- `add`: store the task under its id. -/
def add (dlq : DeadLetterQueue) (now : Rat) (task : Task) : DeadLetterQueue :=
  { dlq with
    tasks := dlq.tasks.put { task with status := .deadLettered, deadLetteredAt := some now }
    totalReceived := dlq.totalReceived + 1 }

/-- `peek(limit)`: the oldest `limit` tasks. -/
def peek (dlq : DeadLetterQueue) (limit : Int) : List Task := sliceTo dlq.tasks.rows limit

/-- `remove`. -/
def remove (dlq : DeadLetterQueue) (taskId : String) : Bool × DeadLetterQueue :=
  ((dlq.tasks.find? taskId).isSome, { dlq with tasks := dlq.tasks.erase taskId })

/-- `purge`: drop everything. -/
def purge (dlq : DeadLetterQueue) : Nat × DeadLetterQueue :=
  (dlq.tasks.rows.length,
    { dlq with
      tasks := Table.empty
      totalPurged := dlq.totalPurged + dlq.tasks.rows.length })

/-- `count`. -/
def count (dlq : DeadLetterQueue) : Nat := dlq.tasks.rows.length

end DeadLetterQueue

/-- A pending queue and its name. -/
abbrev NamedDeque := Key × List Task

/-- The pending queues, in the order in which they were created. -/
abbrev QueueTable := Table (Prod.fst : NamedDeque → Key)

/-- `QueueManager`. -/
structure QueueManager where
  queues : QueueTable := Table.empty
  inFlight : TaskTable := Table.empty
  completed : TaskTable := Table.empty
  deadLetterQueue : DeadLetterQueue := {}
  maxRetries : Nat := 3
  totalEnqueued : Nat := 0
  totalDequeued : Nat := 0
  totalAcked : Nat := 0
  totalNacked : Nat := 0
  totalDeadLettered : Nat := 0

/-- What `negative_acknowledge` did with the task. -/
inductive NackAction where
  | requeued
  | deadLettered
  deriving DecidableEq

namespace QueueManager

/-- `reset`: clears the containers and the counters.  The dead letter queue keeps its
statistics, only its tasks go. -/
def reset (qm : QueueManager) : QueueManager :=
  { qm with
    queues := Table.empty
    inFlight := Table.empty
    completed := Table.empty
    deadLetterQueue := { qm.deadLetterQueue with tasks := Table.empty }
    totalEnqueued := 0
    totalDequeued := 0
    totalAcked := 0
    totalNacked := 0
    totalDeadLettered := 0 }

/-- The deque named `name`; empty where there is none. -/
def deque (qm : QueueManager) (name : Key) : List Task :=
  ((qm.queues.find? name).map Prod.snd).getD []

/-- `_ensure_queue`. -/
def ensureQueue (qm : QueueManager) (name : Key) : QueueManager :=
  match qm.queues.find? name with
  | some _ => qm
  | none => { qm with queues := qm.queues.put (name, []) }

/-- `_queues[task.queue_name].append(task)`, after `_ensure_queue`. -/
def append (qm : QueueManager) (task : Task) : QueueManager :=
  let qm := qm.ensureQueue task.queueName.key
  { qm with
    queues := qm.queues.put (task.queueName.key, qm.deque task.queueName.key ++ [task]) }

/-- `_queues[task.queue_name].appendleft(task)`, after `_ensure_queue`. -/
def appendLeft (qm : QueueManager) (task : Task) : QueueManager :=
  let qm := qm.ensureQueue task.queueName.key
  { qm with
    queues := qm.queues.put (task.queueName.key, task :: qm.deque task.queueName.key) }

section Deques

variable (qm : QueueManager) (name : Key) (tasks : List Task)

theorem deque_put_self :
    ({ qm with queues := qm.queues.put (name, tasks) } : QueueManager).deque name = tasks := by
  have stored := Table.find?_put_self qm.queues (name, tasks)
  simp only at stored
  simp [deque, stored]

theorem deque_put_of_ne {other : Key} (ne : other ≠ name) :
    ({ qm with queues := qm.queues.put (name, tasks) } : QueueManager).deque other =
      qm.deque other := by
  simp [deque, Table.find?_put_of_ne qm.queues (v := (name, tasks)) ne]

@[simp] theorem deque_ensureQueue (other : Key) :
    (qm.ensureQueue name).deque other = qm.deque other := by
  unfold ensureQueue
  cases present : qm.queues.find? name with
  | some entry => rfl
  | none =>
    by_cases same : other = name
    · subst same
      rw [deque_put_self]
      simp [deque, present]
    · exact deque_put_of_ne qm name [] same

theorem deque_append_self (task : Task) :
    (qm.append task).deque task.queueName.key = qm.deque task.queueName.key ++ [task] := by
  unfold append
  rw [deque_put_self, deque_ensureQueue]

end Deques

/-- `enqueue`, with the id and the time the source draws for the new task. -/
def enqueue (qm : QueueManager) (taskId : String) (now : Rat) (queueName : Scalar)
    (payload : Json) : QueueManager :=
  let task : Task := { taskId, queueName, payload, createdAt := now }
  let qm := qm.append task
  { qm with totalEnqueued := qm.totalEnqueued + 1 }

/-- `enqueue_recovered`: keeps the id and the attempt count of a stored task. -/
def enqueueRecovered (qm : QueueManager) (queueName : Scalar) (taskId : String) (now : Rat)
    (payload : Json) (attempts : Nat) : QueueManager :=
  let task : Task := { taskId, queueName, payload, createdAt := now, attempts }
  let qm := qm.append task
  { qm with totalEnqueued := qm.totalEnqueued + 1 }

/-- Pop the head of the deque `name` and hand it to `workerId`. -/
def popLeft (qm : QueueManager) (name : Key) (workerId : Json) : Option Task × QueueManager :=
  match qm.deque name with
  | [] => (none, qm)
  | task :: rest =>
    let delivered := task.deliver workerId
    (some delivered,
      { qm with
        queues := qm.queues.put (name, rest)
        inFlight := qm.inFlight.put delivered
        totalDequeued := qm.totalDequeued + 1 })

/-- The first queue that holds a task. -/
def firstNonempty (qm : QueueManager) : Option Key :=
  (qm.queues.rows.find? fun entry => !entry.2.isEmpty).map Prod.fst

/-- `dequeue`.  A wildcard consumer takes the head of the first nonempty queue, unless the
name of that queue is falsy; a named queue is created when it does not exist. -/
def dequeue (qm : QueueManager) (queueName : Scalar) (workerId : Json) :
    Option Task × QueueManager :=
  if queueName = .str "*" then
    match qm.firstNonempty with
    | none => (none, qm)
    | some target => if target.truthy then qm.popLeft target workerId else (none, qm)
  else
    (qm.ensureQueue queueName.key).popLeft queueName.key workerId

/-- `acknowledge`. -/
def acknowledge (qm : QueueManager) (taskId : String) : Bool × QueueManager :=
  match qm.inFlight.find? taskId with
  | none => (false, qm)
  | some task =>
    (true,
      { qm with
        inFlight := qm.inFlight.erase taskId
        completed := qm.completed.put { task with status := .done }
        totalAcked := qm.totalAcked + 1 })

/-- The first critical section of `negative_acknowledge`: take the task out of flight and
decide, by its attempt count, where it goes. -/
def nackBegin (qm : QueueManager) (taskId : String) : Option Task × QueueManager :=
  match qm.inFlight.find? taskId with
  | none => (none, qm)
  | some task =>
    let qm := { qm with
      inFlight := qm.inFlight.erase taskId
      totalNacked := qm.totalNacked + 1 }
    if qm.maxRetries ≤ task.attempts then
      (some { task with status := .deadLettered },
        { qm with totalDeadLettered := qm.totalDeadLettered + 1 })
    else (some task, qm)

/-- The second critical section of `negative_acknowledge`: add the task to the dead letter
queue, or put it back at the front of its queue. -/
def nackFinish (qm : QueueManager) (now : Rat) (task : Task) : NackAction × QueueManager :=
  if task.status = .deadLettered then
    (.deadLettered, { qm with deadLetterQueue := qm.deadLetterQueue.add now task })
  else (.requeued, qm.appendLeft task.release)

/-- `negative_acknowledge`: the action taken and the task it was taken on. -/
def negativeAcknowledge (qm : QueueManager) (now : Rat) (taskId : String) :
    Option (NackAction × Task) × QueueManager :=
  match qm.nackBegin taskId with
  | (none, qm) => (none, qm)
  | (some task, qm) =>
    let (action, qm) := qm.nackFinish now task
    (some (action, task), qm)

/-- `requeue`. -/
def requeue (qm : QueueManager) (task : Task) (front : Bool) : QueueManager :=
  if front then qm.appendLeft task.release else qm.append task.release

/-- `requeue_by_id`: an in-flight task goes back to the front of its queue. -/
def requeueById (qm : QueueManager) (taskId : String) : Bool × QueueManager :=
  match qm.inFlight.find? taskId with
  | none => (false, qm)
  | some task =>
    let qm := { qm with inFlight := qm.inFlight.erase taskId }
    (true, qm.appendLeft task.release)

/-- The critical section of `DeadLetterQueue.retry`: take the task out of the dead letter
queue. -/
def retryBegin (qm : QueueManager) (taskId : String) : Option Task × QueueManager :=
  match qm.deadLetterQueue.tasks.find? taskId with
  | none => (none, qm)
  | some task =>
    (some task,
      { qm with
        deadLetterQueue :=
          { qm.deadLetterQueue with tasks := qm.deadLetterQueue.tasks.erase taskId } })

/-- The rest of `DeadLetterQueue.retry`: a fresh set of retries, at the back of the queue. -/
def retryFinish (qm : QueueManager) (task : Task) : QueueManager :=
  let qm := qm.requeue { task with status := .pending, attempts := 0, assignedWorker := .null }
    false
  { qm with
    deadLetterQueue :=
      { qm.deadLetterQueue with totalRetried := qm.deadLetterQueue.totalRetried + 1 } }

/-- `DeadLetterQueue.retry(task_id, queue_manager)`. -/
def retry (qm : QueueManager) (taskId : String) : Bool × QueueManager :=
  match qm.retryBegin taskId with
  | (none, qm) => (false, qm)
  | (some task, qm) => (true, qm.retryFinish task)

/-- `queue_depth`. -/
def queueDepth (qm : QueueManager) (name : Key) : Nat := (qm.deque name).length

/-- `in_flight_count`. -/
def inFlightCount (qm : QueueManager) : Nat := qm.inFlight.rows.length

end QueueManager

/-- `DeadLetterQueue.get_stats`. -/
structure DeadLetterStats where
  currentSize : Nat
  totalReceived : Nat
  totalRetried : Nat
  totalPurged : Nat
  deriving DecidableEq

/-- `QueueManager.get_stats`. -/
structure QueueManagerStats where
  totalEnqueued : Nat
  totalDequeued : Nat
  totalAcked : Nat
  totalNacked : Nat
  totalDeadLettered : Nat
  inFlight : Nat
  maxRetries : Nat
  queues : List (Key × Nat)
  dlq : DeadLetterStats
  deriving DecidableEq

/-- `DeadLetterQueue.get_stats`. -/
def DeadLetterQueue.getStats (dlq : DeadLetterQueue) : DeadLetterStats where
  currentSize := dlq.tasks.rows.length
  totalReceived := dlq.totalReceived
  totalRetried := dlq.totalRetried
  totalPurged := dlq.totalPurged

/-- `QueueManager.get_stats`. -/
def QueueManager.getStats (qm : QueueManager) : QueueManagerStats where
  totalEnqueued := qm.totalEnqueued
  totalDequeued := qm.totalDequeued
  totalAcked := qm.totalAcked
  totalNacked := qm.totalNacked
  totalDeadLettered := qm.totalDeadLettered
  inFlight := qm.inFlight.rows.length
  maxRetries := qm.maxRetries
  queues := qm.queues.rows.map fun entry => (entry.1, entry.2.length)
  dlq := qm.deadLetterQueue.getStats

end DistroSync
