import DistroSync.Lib.Exec
import DistroSync.LoadShedder
import DistroSync.MetricsCollector
import DistroSync.WalStore

/-!
# The broker server

`broker/server.py`: the command handlers behind `_dispatch`, the handlers of the HTTP
dashboard that change the broker, and the recovery phase of `start`.

A handler is a program in `BrokerM`: it works on a `Machine` (the broker process and
the database file), returns a response or raises, and what it had changed before it
raised stays changed.  Message fields are JSON values of any type, as the source does
not check them; a value becomes a dictionary key where the source first uses it as
one, by `hashable`, and that is where it raises `TypeError` when it is a list or an
object.

`Machine.crashIn` is the number of committing store calls the process survives.  Every
such call passes `crashPoint`, so that a crash can be placed between any two of them.

The handlers run one at a time: no lock of the broker is ever held across a suspension
point, so acquiring one never suspends.  Locks and log lines are left out, except for
the log lines that slice and format an id, which raise when it has no slices or is nested
too deeply.
-/

namespace DistroSync

open Keyed Py

/-- A task id as `str(uuid.uuid4())` makes it. -/
structure Uuid where
  text : String
  length_text : text.length = 36

/-- What a handler draws from outside the broker. -/
structure Env where
  /-- `time.time()`. -/
  time : Rat
  /-- `time.monotonic()`. -/
  monotonic : Rat
  /-- `uuid.uuid4()`; a handler draws at most one. -/
  uuid : Uuid
  /-- `_active_connections`, which the connections count and the handlers report. -/
  activeConnections : Nat := 0

/-- What the process remembers of its database connection. -/
structure Connection where
  /-- A statement has begun a transaction that was not committed. -/
  inTransaction : Bool := false
  deriving DecidableEq

/-- The parameters a broker is started with. -/
structure Config where
  /-- A `db_path` was given. -/
  persistent : Bool
  maxRetries : Nat := 3

/-- `BrokerServer`: everything that dies with the process. -/
structure Broker where
  queueManager : QueueManager
  workerRegistry : WorkerRegistry
  loadShedder : LoadShedder
  metrics : MetricsCollector
  walStore : Option Connection

/-- `BrokerServer.__init__`. -/
def Broker.new (config : Config) (env : Env) : Broker where
  queueManager := { maxRetries := config.maxRetries }
  workerRegistry := {}
  loadShedder := {}
  metrics := { startTime := env.monotonic }
  walStore := if config.persistent then some {} else none

/-- The broker process, the database file, and how many more commits the process makes. -/
structure Machine where
  broker : Broker
  disk : Database
  crashIn : Option Nat := none

/-- Why a handler did not return. -/
inductive Stop where
  | raised (error : Error)
  | crashed
  deriving DecidableEq

/-- Programs of the broker process. -/
abbrev BrokerM := EStateM Stop Machine

/-! ## Responses -/

/-- The `task` object of a CONSUME response. -/
structure Delivery where
  taskId : String
  queueName : Scalar
  payload : Json
  attempts : Nat

/-- An entry of a DLQ_LIST response; the in-memory queue has no `final_error`, the table
no `status`. -/
structure DlqEntry where
  taskId : String
  queueName : Json
  payload : Json
  attempts : Nat
  status : Option TaskStatus
  finalError : Option String
  deadLetteredAt : Option Rat

/-- The STATS response. -/
structure StatsReport where
  queueManager : QueueManagerStats
  workerRegistry : WorkerRegistry.Stats
  loadShedder : LoadShedder.Stats
  metrics : MetricsCollector.Stats
  activeConnections : Nat
  walStore : Option Database.Stats

/-- The METRICS response. -/
structure MetricsReport where
  queues : List MetricsCollector.QueueSnapshot
  activeWorkers : List Scalar
  evictedCount : Nat
  dlqTotalTasks : Nat
  uptimeSeconds : Rat
  trackedInFlight : Nat
  inFlightTasks : Nat
  activeConnections : Nat
  loadShedder : LoadShedder.Stats

/-- A response dictionary, by the handler and the branch that returns it.  `status` is
`"error"` for `error`, `"rate_limited"` for `rateLimited`, `"empty"` for `empty`, and
`"ok"` otherwise. -/
inductive Response where
  | error (reason : String)
  | rateLimited (retryAfterSeconds : Rat) (reason : String)
  | produced (taskId : String)
  | consumed (task : Delivery)
  | empty
  | registered (isNew : Bool) (message : String)
  | heartbeat
  | acknowledged (message : String)
  | negativeAcknowledged (action : NackAction) (attempts : Nat) (message : String)
  | dlqList (count : Nat) (tasks : List DlqEntry)
  | replayed (originalTaskId newTaskId : String)
  | purged (count : Nat)
  | stats (report : StatsReport)
  | metrics (report : MetricsReport)

/-! ## Access to the parts of the machine -/

/-- Raise a Python exception. -/
def raise {α : Type} (error : Error) : BrokerM α := throw (.raised error)

/-- The dictionary key of a value; `TypeError` if it is not hashable. -/
def hashable (value : Json) : BrokerM Scalar :=
  match value.scalar? with
  | some scalar => pure scalar
  | none => raise .typeError

/-- Run an operation of the queue manager. -/
def onQueueManager {α : Type} (operation : QueueManager → α × QueueManager) : BrokerM α :=
  modifyGet fun m =>
    let (result, queueManager) := operation m.broker.queueManager
    (result, { m with broker := { m.broker with queueManager } })

/-- Run an operation of the worker registry. -/
def onRegistry {α : Type} (operation : WorkerRegistry → α × WorkerRegistry) : BrokerM α :=
  modifyGet fun m =>
    let (result, workerRegistry) := operation m.broker.workerRegistry
    (result, { m with broker := { m.broker with workerRegistry } })

/-- Run an operation of the load shedder. -/
def onLoadShedder {α : Type} (operation : LoadShedder → α × LoadShedder) : BrokerM α :=
  modifyGet fun m =>
    let (result, loadShedder) := operation m.broker.loadShedder
    (result, { m with broker := { m.broker with loadShedder } })

/-- Run an operation of the metrics collector. -/
def onMetrics (operation : MetricsCollector → MetricsCollector) : BrokerM Unit :=
  modify fun m => { m with broker := { m.broker with metrics := operation m.broker.metrics } }

/-! ## Store calls -/

/-- `if self.wal_store:`. -/
def whenPersistent (body : BrokerM Unit) : BrokerM Unit := do
  let m ← get
  if m.broker.walStore.isSome then body else pure ()

/-- Where the process may die: before a committing call, once the calls it survives are
used up. -/
def crashPoint : BrokerM Unit := do
  let m ← get
  match m.crashIn with
  | none => pure ()
  | some 0 => throw .crashed
  | some (n + 1) => set { m with crashIn := some n }

/-- Note that a transaction is open, or that none is. -/
def setInTransaction (inTransaction : Bool) : BrokerM Unit :=
  modify fun m => { m with broker := { m.broker with walStore := some { inTransaction } } }

/-- Execute statements and commit them. -/
def walCommit (statements : Database → Database) : BrokerM Unit := do
  crashPoint
  modify fun m => { m with disk := statements m.disk }
  setInTransaction false

/-- `conn.execute(statement, parameters)` and `conn.commit()`.  The driver begins a
transaction before it binds the parameters, and a failing bind leaves it open. -/
def walWrite (bound : Except Error (Database → Database)) : BrokerM Unit :=
  match bound with
  | .ok statements => walCommit statements
  | .error e => do
    setInTransaction true
    raise e

/-- The row that `save_task` writes.  Its parameters are made before the statement is
executed, and bound by it. -/
def Platform.taskRow (platform : Platform) (task : Task) (now : Rat) : Except Error TaskRow := do
  let text ← platform.dumps platform.storeDepth task.payload
  let queueName ← platform.requiredTextOf task.queueName.toJson
  let payload ← platform.bindText text
  let assignedWorker ← platform.textOf task.assignedWorker
  return {
    taskId := task.taskId
    queueName
    payload
    status := task.status
    attempts := task.attempts
    assignedWorker
    createdAt := task.createdAt
    updatedAt := now }

/-- `save_task`.  A payload that cannot be written down raises before a transaction is
begun. -/
def saveTask (platform : Platform) (env : Env) (task : Task) : BrokerM Unit :=
  match platform.dumps platform.storeDepth task.payload with
  | .error e => raise e
  | .ok _ => walWrite ((platform.taskRow task env.time).map fun row db => db.saveTask row)

/-- `update_task_status`. -/
def updateTaskStatus (platform : Platform) (env : Env) (taskId : String) (status : TaskStatus)
    (attempts : Option Nat) (assignedWorker : Json) : BrokerM Unit :=
  walWrite ((platform.optionalTextOf assignedWorker).map fun worker db =>
    db.updateTaskStatus taskId status attempts worker env.time)

/-- The row that `add_to_dlq` writes. -/
def Platform.dlqRow (platform : Platform) (task : Task) (error : String) (now : Rat) :
    Except Error DlqRow := do
  let text ← platform.dumps platform.storeDepth task.payload
  let queueName ← platform.requiredTextOf task.queueName.toJson
  let payload ← platform.bindText text
  return {
    taskId := task.taskId
    queueName
    payload
    finalError := error
    attempts := task.attempts
    deadLetteredAt := now }

/-- `add_to_dlq`.  Its explicit BEGIN fails inside an open transaction; what fails after it,
`json.dumps` included, is rolled back. -/
def addToDlq (platform : Platform) (env : Env) (task : Task) (error : String) : BrokerM Unit := do
  let m ← get
  if m.broker.walStore = some { inTransaction := true } then raise .operationalError
  else
    match platform.dlqRow task error env.time with
    | .error e => raise e
    | .ok row => walCommit fun db => db.addToDlq row

/-- Persist the task that was just enqueued: the newest one in its queue with that id. -/
def saveNewest (platform : Platform) (env : Env) (queue : Key) (taskId : String) :
    BrokerM Unit := do
  let m ← get
  match (m.broker.queueManager.deque queue).reverse.find? fun task => task.taskId = taskId with
  | none => pure ()
  | some task => saveTask platform env task

/-! ## Command handlers -/

/-- The key that `_in_flight.pop(task_id, None)` finds a task under.  Popping from an empty
dictionary does not hash the key; a key that is not a string is never found.  The warning
for an unknown id slices it and, like the response, formats it, which raises for a list that
is nested too deeply. -/
def inFlightKey (platform : Platform) (taskId : Json) : BrokerM (Option String) := do
  let m ← get
  let inFlight := m.broker.queueManager.inFlight
  let unknown : BrokerM (Option String) :=
    if !taskId.sliceable then raise .typeError
    else if platform.strDepth < taskId.depth then raise .recursionError
    else pure none
  if inFlight.rows.isEmpty then unknown
  else
    match ← hashable taskId with
    | .str id => if (inFlight.find? id).isSome then pure (some id) else unknown
    | _ => unknown

/-- `_handle_produce`. -/
def handleProduce (platform : Platform) (env : Env) (message : Message) : BrokerM Response := do
  let queueName := message.get "queue" .null
  let payload := message.get "task" .null
  if !queueName.truthy then pure (.error "Missing 'queue' field")
  else if payload.isNone then pure (.error "Missing 'task' field")
  else
    let queue ← hashable queueName
    let m ← get
    let (allowed, retryAfter) ← onLoadShedder fun shedder =>
      shedder.checkAndConsume queue.key (m.broker.queueManager.queueDepth queue.key)
        (m.broker.workerRegistry.averageLatencyMs queue.key) env.monotonic
    if !allowed then pure (.rateLimited retryAfter "Queue overloaded. Please back off.")
    else
      onQueueManager fun qm => ((), qm.enqueue env.uuid.text env.time queue payload)
      onMetrics fun metrics => metrics.recordProduce queue.key env.monotonic
      whenPersistent (saveNewest platform env queue.key env.uuid.text)
      pure (.produced env.uuid.text)

/-- `_handle_consume`.  A worker id that is no key raises after the task was taken, in
`assign_task` or, for a list that is nested too deeply, in the log line before it. -/
def handleConsume (platform : Platform) (env : Env) (message : Message) : BrokerM Response := do
  let queueName := message.get "queue" .null
  let workerId := message.get "worker_id" .null
  if !queueName.truthy then pure (.error "Missing 'queue' field")
  else if !workerId.truthy then pure (.error "Missing 'worker_id' field")
  else
    let queue ← hashable queueName
    match ← onQueueManager fun qm => qm.dequeue queue workerId with
    | none => pure .empty
    | some task =>
      let worker ← hashable workerId
      onRegistry fun registry =>
        ((), registry.assignTask worker.key task.taskId env.monotonic)
      onMetrics fun metrics => metrics.recordConsume queue.key task.taskId env.monotonic
      whenPersistent
        (updateTaskStatus platform env task.taskId .inFlight (some task.attempts) workerId)
      pure (.consumed
        { taskId := task.taskId
          queueName := task.queueName
          payload := task.payload
          attempts := task.attempts })

/-- `_handle_register`. -/
def handleRegister (platform : Platform) (env : Env) (message : Message) : BrokerM Response := do
  let workerId := message.get "worker_id" .null
  let queues := message.get "queues" (.arr [])
  if !workerId.truthy then pure (.error "Missing 'worker_id' field")
  else
    let worker ← hashable workerId
    let isNew ← onRegistry fun registry => registry.register worker queues env.time
    pure (.registered isNew ("Worker '" ++ platform.str workerId ++ "' registered"))

/-- `_handle_heartbeat`. -/
def handleHeartbeat (platform : Platform) (env : Env) (message : Message) : BrokerM Response := do
  let workerId := message.get "worker_id" .null
  if !workerId.truthy then pure (.error "Missing 'worker_id' field")
  else
    let worker ← hashable workerId
    let found ← onRegistry fun registry => registry.recordHeartbeat worker.key env.time
    if found then pure .heartbeat
    else pure (.error ("Unknown worker: " ++ platform.str workerId))

/-- `complete_task`, for the `worker_id` of an ACK or NACK message. -/
def completeTask (env : Env) (message : Message) (taskId : String) : BrokerM Unit := do
  let worker ← hashable (message.get "worker_id" (.str ""))
  match ← onRegistry fun registry => registry.completeTask worker.key taskId env.monotonic with
  | .ok () => pure ()
  | .error e => raise e

/-- `_handle_ack`. -/
def handleAck (platform : Platform) (env : Env) (message : Message) : BrokerM Response := do
  let taskId := message.get "task_id" .null
  if !taskId.truthy then pure (.error "Missing 'task_id' field")
  else
    match ← inFlightKey platform taskId with
    | none => pure (.error ("Task " ++ platform.str taskId ++ " not found in-flight"))
    | some id =>
      let _ ← onQueueManager fun qm => qm.acknowledge id
      completeTask env message id
      let queue ← hashable (message.get "queue" (.str "unknown"))
      onMetrics fun metrics => metrics.recordAck queue.key id env.monotonic
      whenPersistent (updateTaskStatus platform env id .done none .null)
      pure (.acknowledged ("Task " ++ platform.str taskId ++ " acknowledged"))

/-- The payload `_handle_nack` finds for a dead-lettered task: that of the first task with
this id among the 100 oldest of the dead letter queue, or else an empty object. -/
def deadLetterPayload (dlq : DeadLetterQueue) (taskId : String) : Json :=
  match (dlq.peek 100).find? fun task => task.taskId = taskId with
  | some task => task.payload
  | none => .obj []

/-- The store call of `_handle_nack`. -/
def persistNack (platform : Platform) (env : Env) (action : NackAction) (task : Task) :
    BrokerM Unit := do
  match action with
  | .deadLettered =>
    let m ← get
    let stub : Task :=
      { taskId := task.taskId
        queueName := task.queueName
        payload := deadLetterPayload m.broker.queueManager.deadLetterQueue task.taskId
        createdAt := env.time
        attempts := task.attempts }
    addToDlq platform env stub "max retries exceeded"
  | .requeued =>
    updateTaskStatus platform env task.taskId .pending (some task.attempts) .null

/-- `_handle_nack`. -/
def handleNack (platform : Platform) (env : Env) (message : Message) : BrokerM Response := do
  let taskId := message.get "task_id" .null
  if !taskId.truthy then pure (.error "Missing 'task_id' field")
  else
    match ← inFlightKey platform taskId with
    | none => pure (.error ("Task " ++ platform.str taskId ++ " not found in-flight"))
    | some id =>
      match ← onQueueManager fun qm => qm.negativeAcknowledge env.time id with
      | none => pure (.error ("Task " ++ platform.str taskId ++ " not found in-flight"))
      | some (action, task) =>
        completeTask env message id
        onMetrics fun metrics =>
          metrics.recordNack task.queueName.key id (action = .deadLettered)
        whenPersistent (persistNack platform env action task)
        pure (.negativeAcknowledged action task.attempts
          (if action = .deadLettered then "Task " ++ platform.str taskId ++ " moved to DLQ"
          else "Task " ++ platform.str taskId ++ " re-queued for retry"))

/-! ## Administration -/

/-- `peek(limit)` for the `limit` field of a message. -/
def peekLimit (dlq : DeadLetterQueue) : Json → Except Error (List Task)
  | .null => .ok dlq.tasks.rows
  | .bool b => .ok (dlq.peek (if b then 1 else 0))
  | .int i => .ok (dlq.peek i)
  | _ => .error .typeError

/-- `task.queue_name == queue_name`, for the value of a message field. -/
def Task.inQueue (task : Task) (queueName : Json) : Bool := queueName.equals task.queueName

/-- A dead-lettered task as DLQ_LIST shows it. -/
def DlqEntry.ofTask (task : Task) : DlqEntry where
  taskId := task.taskId
  queueName := task.queueName.toJson
  payload := task.payload
  attempts := task.attempts
  status := some task.status
  finalError := none
  deadLetteredAt := task.deadLetteredAt

/-- A row of the dead letter table as DLQ_LIST shows it. -/
def DlqEntry.ofRow (platform : Platform) (row : DlqRow) : DlqEntry where
  taskId := row.taskId
  queueName := .str row.queueName
  payload := (platform.loads row.payload).getD (.str row.payload)
  attempts := row.attempts
  status := none
  finalError := some row.finalError
  deadLetteredAt := some row.deadLetteredAt

/-- The queue filter of `get_dlq_tasks` and `purge_dlq`: a falsy name is no filter. -/
def Platform.queueFilter (platform : Platform) (queueName : Json) :
    Except Error (Option (Option String)) :=
  if queueName.truthy then (platform.textOf queueName).map some else .ok none

/-- `_handle_dlq_list`. -/
def handleDlqList (platform : Platform) (message : Message) : BrokerM Response := do
  let queueName := message.get "queue" .null
  let limit := message.get "limit" (.int 50)
  let m ← get
  if m.broker.walStore.isSome then
    match platform.queueFilter queueName, platform.limitOf limit with
    | .error e, _ => raise e
    | .ok _, .error e => raise e
    | .ok name, .ok n =>
      let tasks := (m.disk.getDlqTasks name n).map (DlqEntry.ofRow platform)
      pure (.dlqList tasks.length tasks)
  else
    match peekLimit m.broker.queueManager.deadLetterQueue limit with
    | .error e => raise e
    | .ok tasks =>
      let tasks := if queueName.truthy then tasks.filter fun task => task.inQueue queueName
        else tasks
      let entries := tasks.map DlqEntry.ofTask
      pure (.dlqList entries.length entries)

/-- `replay_dlq_task`: look the row up, delete it, and return it.  Both log lines slice
the id. -/
def replayDlqTask (platform : Platform) (taskId : Json) : BrokerM (Option DlqRow) := do
  match platform.textOf taskId with
  | .error e => raise e
  | .ok text =>
    let m ← get
    match text.bind m.disk.deadLetterQueue.find? with
    | none => if taskId.sliceable then pure none else raise .typeError
    | some row =>
      walCommit fun db => db.deleteDlq row.taskId
      if taskId.sliceable then pure (some row) else raise .typeError

/-- `_tasks.pop(task_id, None)` in `DeadLetterQueue.retry`; an `OrderedDict` always hashes
the key. -/
def deadLetterKey (taskId : Json) : BrokerM (Option String) := do
  let m ← get
  let unknown : BrokerM (Option String) :=
    if taskId.sliceable then pure none else raise .typeError
  match ← hashable taskId with
  | .str id =>
    if (m.broker.queueManager.deadLetterQueue.tasks.find? id).isSome then pure (some id)
    else unknown
  | _ => unknown

/-- `_handle_dlq_replay`. -/
def handleDlqReplay (platform : Platform) (env : Env) (message : Message) : BrokerM Response := do
  let taskId := message.get "task_id" .null
  if !taskId.truthy then pure (.error "Missing 'task_id' field")
  else
    let m ← get
    if m.broker.walStore.isSome then
      match ← replayDlqTask platform taskId with
      | none => pure (.error ("Task " ++ platform.str taskId ++ " not found in DLQ"))
      | some row =>
        match platform.loads row.payload with
        | none => raise .jsonDecodeError
        | some payload =>
          let queue := Scalar.str row.queueName
          onQueueManager fun qm => ((), qm.enqueue env.uuid.text env.time queue payload)
          saveNewest platform env queue.key env.uuid.text
          pure (.replayed row.taskId env.uuid.text)
    else
      match ← deadLetterKey taskId with
      | none => pure (.error ("Task " ++ platform.str taskId ++ " not found in DLQ"))
      | some id =>
        let _ ← onQueueManager fun qm => qm.retry id
        pure (.replayed id id)

/-- `for tid in to_remove: await dlq.remove(tid)`. -/
def removeEach : List String → DeadLetterQueue → DeadLetterQueue
  | [], dlq => dlq
  | taskId :: rest, dlq => removeEach rest (dlq.remove taskId).2

/-- The purge of one queue from the in-memory dead letter queue: its tasks are removed one
by one, which `total_purged` does not count. -/
def purgeQueue (dlq : DeadLetterQueue) (queueName : Json) : Nat × DeadLetterQueue :=
  let toRemove := (dlq.tasks.rows.filter fun task => task.inQueue queueName).map Task.taskId
  (toRemove.length, removeEach toRemove dlq)

/-- `_handle_dlq_purge`. -/
def handleDlqPurge (platform : Platform) (message : Message) : BrokerM Response := do
  let queueName := message.get "queue" .null
  let m ← get
  if m.broker.walStore.isSome then
    match platform.queueFilter queueName with
    | .error e =>
      setInTransaction true
      raise e
    | .ok name =>
      walCommit fun db => db.purgeDlq name
      pure (.purged (m.disk.purgeCount name))
  else
    let count ← onQueueManager fun qm =>
      let (count, deadLetterQueue) :=
        if queueName.truthy then purgeQueue qm.deadLetterQueue queueName
        else qm.deadLetterQueue.purge
      (count, { qm with deadLetterQueue })
    pure (.purged count)

/-- The load shedder's `get_stats`, which refills every bucket. -/
def shedderStats (env : Env) : BrokerM LoadShedder.Stats := do
  let m ← get
  onLoadShedder fun shedder =>
    shedder.getStats m.broker.queueManager.queueDepth m.broker.workerRegistry.averageLatencyMs
      fun _ => env.monotonic

/-- `_handle_stats`. -/
def handleStats (env : Env) : BrokerM Response := do
  let loadShedder ← shedderStats env
  let m ← get
  pure (.stats
    { queueManager := m.broker.queueManager.getStats
      workerRegistry := m.broker.workerRegistry.getStats
      loadShedder
      metrics := m.broker.metrics.getStats env.monotonic
      activeConnections := env.activeConnections
      walStore := m.broker.walStore.map fun _ => m.disk.getStats })

/-- `_handle_metrics`, that is `_get_metrics_snapshot`. -/
def handleMetrics (env : Env) : BrokerM Response := do
  let m ← get
  let qm := m.broker.queueManager
  let (queues, metrics) :=
    MetricsCollector.snapshotQueues env.monotonic (qm.queues.rows.map Prod.fst) m.broker.metrics
  onMetrics fun _ => metrics
  let loadShedder ← shedderStats env
  pure (.metrics
    { queues := queues.map fun entry => { entry with depth := qm.queueDepth entry.queue }
      activeWorkers := m.broker.workerRegistry.getActiveWorkers.map WorkerInfo.workerId
      evictedCount := m.broker.workerRegistry.totalEvictions
      dlqTotalTasks :=
        if m.broker.walStore.isSome then (m.disk.getDlqTasks none 100).length
        else (qm.deadLetterQueue.peek 1000).length
      uptimeSeconds := roundTo (env.monotonic - m.broker.metrics.startTime) 1
      trackedInFlight := m.broker.metrics.dequeueTimestamps.rows.length
      inFlightTasks := qm.inFlightCount
      activeConnections := env.activeConnections
      loadShedder })

/-- The keys of the command table of `_dispatch`. -/
inductive Command where
  | produce
  | consume
  | register
  | heartbeat
  | ack
  | nack
  | dlqList
  | dlqReplay
  | dlqPurge
  | stats
  | metrics
  deriving DecidableEq

/-- The command table of `_dispatch`. -/
def Command.ofName? : String → Option Command
  | "PRODUCE" => some .produce
  | "CONSUME" => some .consume
  | "REGISTER" => some .register
  | "HEARTBEAT" => some .heartbeat
  | "ACK" => some .ack
  | "NACK" => some .nack
  | "DLQ_LIST" => some .dlqList
  | "DLQ_REPLAY" => some .dlqReplay
  | "DLQ_PURGE" => some .dlqPurge
  | "STATS" => some .stats
  | "METRICS" => some .metrics
  | _ => none

/-- The handler of a command. -/
def handle (platform : Platform) (env : Env) (message : Message) : Command → BrokerM Response
  | .produce => handleProduce platform env message
  | .consume => handleConsume platform env message
  | .register => handleRegister platform env message
  | .heartbeat => handleHeartbeat platform env message
  | .ack => handleAck platform env message
  | .nack => handleNack platform env message
  | .dlqList => handleDlqList platform message
  | .dlqReplay => handleDlqReplay platform env message
  | .dlqPurge => handleDlqPurge platform message
  | .stats => handleStats env
  | .metrics => handleMetrics env

/-- The command a message names, if its `command` field is a key of the table. -/
def commandOf (message : Message) : Option Command :=
  match message.get "command" .null with
  | .str name => Command.ofName? name
  | _ => none

/-- `_dispatch`. -/
def dispatch (platform : Platform) (env : Env) (message : Message) : BrokerM Response := do
  let command := message.get "command" .null
  if !command.truthy then pure (.error "Missing 'command' field")
  else
    let _ ← hashable command
    match commandOf message with
    | none => pure (.error ("Unknown command: " ++ platform.str command))
    | some command => handle platform env message command

/-! ## Dashboard handlers and recovery -/

/-- `evict_dead_workers`, as the eviction loop runs it. -/
def evictionPass (env : Env) (order : SetOrder) : BrokerM Unit := do
  let m ← get
  let (result, workerRegistry, queueManager) :=
    evictDeadWorkers order env.time m.broker.workerRegistry m.broker.queueManager
  set { m with broker := { m.broker with workerRegistry, queueManager } }
  match result with
  | .ok () => pure ()
  | .error e => raise e

/-- `for task in dlq_tasks: retry(task["task_id"])`: the ids that were retried. -/
def retryEach : List String → QueueManager → List String × QueueManager
  | [], qm => ([], qm)
  | taskId :: rest, qm =>
    let (success, qm) := qm.retry taskId
    let (replayed, qm) := retryEach rest qm
    ((if success then taskId :: replayed else replayed), qm)

/-- `_replay_dlq_handler`: the ids it replayed, of which the response tells the number. -/
def replayDlqHandler : BrokerM (List String) :=
  onQueueManager fun qm => retryEach ((qm.deadLetterQueue.peek 1000).map Task.taskId) qm

/-- `_reset_handler`. -/
def resetHandler (env : Env) : BrokerM Unit := do
  onQueueManager fun qm => ((), qm.reset)
  whenPersistent (walCommit Database.clearAllData)
  onMetrics fun metrics => metrics.reset env.monotonic

/-- `_crash_worker_handler` on the active worker number `pick`: its last heartbeat is set
ten seconds back. -/
def crashWorkerHandler (env : Env) (pick : Nat) : BrokerM Unit :=
  onRegistry fun registry =>
    match (registry.getActiveWorkers)[pick]? with
    | none => ((), registry)
    | some info =>
      ((), { registry with
        workers := registry.workers.put { info with lastHeartbeat := env.time - 10 } })

/-- The recovery loop of `start` over the rows that `load_pending_tasks` returned. -/
def recoverEach (platform : Platform) (env : Env) : List TaskRow → BrokerM Unit
  | [] => pure ()
  | row :: rest => do
    match platform.loads row.payload with
    | none => raise .jsonDecodeError
    | some payload =>
      onQueueManager fun qm =>
        ((), qm.enqueueRecovered (.str row.queueName) row.taskId env.time payload row.attempts)
      updateTaskStatus platform env row.taskId .pending (some row.attempts) .null
      recoverEach platform env rest

/-- The crash recovery phase of `start`. -/
def recover (platform : Platform) (env : Env) : BrokerM Unit := do
  let m ← get
  whenPersistent (recoverEach platform env m.disk.loadPendingTasks)

end DistroSync
