import DistroSync.Ledger
import DistroSync.System

/-!
# What an event does

Every invariant of the broker is proved from the same case analysis: which handler
ran, how far it got, and what it left behind.  That analysis is made once, here.

`Effect platform env m action r c` lists the ways in which `action`, performed on the
machine `m`, can end with the result `r` and the stores `c`.  The stores are the
`Core` of the machine: the load shedder and the metrics are read by no other store
and drop out.  `perform_effect` says that the list is complete, and `Transition`
carries it to the steps of a run, including the recovery phase of a start
(`Recovery`).

Most handlers end in one store call; `Persist` is its four possible endings.  The
guards of the commands that do nothing are collected in `Admits`, the condition under
which a handler gets past its checks.
-/

namespace DistroSync

open Keyed Py Exec

/-! ## The stores -/

/-- The stores of the broker: all of the machine but the load shedder, the metrics and the
crash point. -/
structure Core where
  queueManager : QueueManager
  workerRegistry : WorkerRegistry
  walStore : Option Connection
  disk : Database

/-- The stores of a process and its database. -/
def Broker.core (broker : Broker) (disk : Database) : Core where
  queueManager := broker.queueManager
  workerRegistry := broker.workerRegistry
  walStore := broker.walStore
  disk := disk

/-- The stores of a machine. -/
def Machine.core (m : Machine) : Core := m.broker.core m.disk

section Parts

variable (b : Broker) (d : Database)

@[simp] theorem Broker.core_queueManager : (b.core d).queueManager = b.queueManager := rfl

@[simp] theorem Broker.core_walStore : (b.core d).walStore = b.walStore := rfl

@[simp] theorem Broker.core_disk : (b.core d).disk = d := rfl

end Parts

/-- The machine after it committed statements. -/
def Machine.committed (m : Machine) (statements : Database → Database) : Machine where
  broker := { m.broker with walStore := some {} }
  disk := statements m.disk
  crashIn := m.crashIn.map Nat.pred

/-- The endings of a handler that finishes with one store call, guarded by `if
self.wal_store`, and then returns `success`. -/
inductive Persist (crashIn : Option Nat) (c : Core)
    (bound : Except Error (Database → Database)) (success : Outcome) :
    Except Stop Outcome → Core → Prop where
  | off (absent : c.walStore = none) : Persist crashIn c bound success (.ok success) c
  | died {statements : Database → Database} (present : c.walStore.isSome = true)
      (binds : bound = .ok statements) (spent : crashIn = some 0) :
      Persist crashIn c bound success (.error .crashed) c
  | refused {e : Error} {connection : Connection} (present : c.walStore.isSome = true)
      (fails : bound = .error e) :
      Persist crashIn c bound success (.error (.raised e))
        { c with walStore := some connection }
  | committed {statements : Database → Database} (present : c.walStore.isSome = true)
      (binds : bound = .ok statements) (alive : crashIn ≠ some 0) :
      Persist crashIn c bound success (.ok success)
        { c with walStore := some {}, disk := statements c.disk }

/-- A store call at the end of a handler changes no memory. -/
theorem Persist.memory {crashIn : Option Nat} {c c' : Core}
    {bound : Except Error (Database → Database)} {success : Outcome} {r : Except Stop Outcome}
    (persisted : Persist crashIn c bound success r c') :
    c'.queueManager = c.queueManager ∧ c'.workerRegistry = c.workerRegistry ∧
      c'.walStore.isSome = c.walStore.isSome := by
  cases persisted with
  | off absent => exact ⟨rfl, rfl, rfl⟩
  | died present binds spent => exact ⟨rfl, rfl, rfl⟩
  | refused present fails => exact ⟨rfl, rfl, by simp [present]⟩
  | committed present binds alive => exact ⟨rfl, rfl, by simp [present]⟩

/-- A store call at the end of a handler leaves the database as it was, or runs its
statements on it. -/
theorem Persist.disk_cases {crashIn : Option Nat} {c c' : Core}
    {bound : Except Error (Database → Database)} {success : Outcome} {r : Except Stop Outcome}
    (persisted : Persist crashIn c bound success r c') :
    c'.disk = c.disk ∨
      c.walStore.isSome = true ∧ crashIn ≠ some 0 ∧ r = .ok success ∧
        ∃ statements, bound = .ok statements ∧ c'.disk = statements c.disk := by
  cases persisted with
  | off absent => exact Or.inl rfl
  | died present binds spent => exact Or.inl rfl
  | refused present fails => exact Or.inl rfl
  | committed present binds alive => exact Or.inr ⟨present, alive, rfl, _, binds, rfl⟩

/-! ## Rules for the primitives -/

section Rules

variable {α : Type} {m : Machine}

@[simp] theorem wp_raise {Q : α → Machine → Prop} {E : Stop → Machine → Prop} (e : Error) :
    wp (raise e : BrokerM α) Q E m ↔ E (.raised e) m := Iff.rfl

/-- Lists and dictionaries raise where a key is expected. -/
theorem wp_hashable {Q : Scalar → Machine → Prop} {E : Stop → Machine → Prop} (value : Json) :
    wp (hashable value) Q E m ↔
      (∀ scalar, value.scalar? = some scalar → Q scalar m) ∧
        (value.scalar? = none → E (.raised .typeError) m) := by
  unfold hashable
  cases value.scalar? with
  | none => simp
  | some scalar => simp

@[simp] theorem wp_onQueueManager {Q : α → Machine → Prop} {E : Stop → Machine → Prop}
    (operation : QueueManager → α × QueueManager) :
    wp (onQueueManager operation) Q E m ↔
      Q (operation m.broker.queueManager).1
        { m with broker :=
          { m.broker with queueManager := (operation m.broker.queueManager).2 } } := Iff.rfl

@[simp] theorem wp_onRegistry {Q : α → Machine → Prop} {E : Stop → Machine → Prop}
    (operation : WorkerRegistry → α × WorkerRegistry) :
    wp (onRegistry operation) Q E m ↔
      Q (operation m.broker.workerRegistry).1
        { m with broker :=
          { m.broker with workerRegistry := (operation m.broker.workerRegistry).2 } } := Iff.rfl

@[simp] theorem wp_onLoadShedder {Q : α → Machine → Prop} {E : Stop → Machine → Prop}
    (operation : LoadShedder → α × LoadShedder) :
    wp (onLoadShedder operation) Q E m ↔
      Q (operation m.broker.loadShedder).1
        { m with broker :=
          { m.broker with loadShedder := (operation m.broker.loadShedder).2 } } := Iff.rfl

variable {Q : Unit → Machine → Prop} {E : Stop → Machine → Prop}

@[simp] theorem wp_onMetrics (operation : MetricsCollector → MetricsCollector) :
    wp (onMetrics operation) Q E m ↔
      Q () { m with broker := { m.broker with metrics := operation m.broker.metrics } } := Iff.rfl

@[simp] theorem wp_setInTransaction (inTransaction : Bool) :
    wp (setInTransaction inTransaction) Q E m ↔
      Q () { m with broker := { m.broker with walStore := some { inTransaction } } } := Iff.rfl

/-- Without a store there is nothing to do. -/
theorem wp_whenPersistent (body : BrokerM Unit) :
    wp (whenPersistent body) Q E m ↔
      (m.broker.walStore.isSome = true → wp body Q E m) ∧
        (m.broker.walStore = none → Q () m) := by
  unfold whenPersistent
  cases opened : m.broker.walStore with
  | none => simp [wp_ite, opened]
  | some connection => simp [wp_ite, opened]

/-- The process can die before the commit, or go on after it. -/
theorem wp_walCommit (statements : Database → Database) :
    wp (walCommit statements) Q E m ↔
      (m.crashIn = some 0 → E .crashed m) ∧
        (m.crashIn ≠ some 0 → Q () (m.committed statements)) := by
  obtain ⟨broker, disk, crashIn⟩ := m
  match crashIn with
  | none => simp [walCommit, crashPoint, Machine.committed]
  | some 0 => simp [walCommit, crashPoint]
  | some (n + 1) => simp [walCommit, crashPoint, Machine.committed]

theorem committed_crashIn (statements : Database → Database) :
    (m.committed statements).crashIn = none ↔ m.crashIn = none := by
  simp [Machine.committed]

end Rules

/-! ## The effects -/

/-- The task a producer's message becomes. -/
def Env.task (env : Env) (queueName : Scalar) (payload : Json) : Task where
  taskId := env.uuid.text
  queueName := queueName
  payload := payload
  createdAt := env.time

/-- The load shedder lets the queue have another task. -/
def Machine.allows (m : Machine) (env : Env) (queue : Scalar) : Bool :=
  (m.broker.loadShedder.checkAndConsume queue.key (m.broker.queueManager.queueDepth queue.key)
    (m.broker.workerRegistry.averageLatencyMs queue.key) env.monotonic).1.1

/-- The dead letter row a DLQ_REPLAY message names. -/
def Platform.namedRow (platform : Platform) (disk : Database) (taskId : Json) : Option DlqRow :=
  match platform.textOf taskId with
  | .ok (some text) => disk.deadLetterQueue.find? text
  | _ => none

/-- What a handler checks before it changes a store.  DLQ_LIST, STATS and METRICS never
change one. -/
def Admits (platform : Platform) (env : Env) (m : Machine) (message : Message) : Command → Prop
  | .produce =>
    (message.get "queue" .null).truthy = true ∧ (message.get "task" .null).isNone = false ∧
      ∃ queue, (message.get "queue" .null).scalar? = some queue ∧ m.allows env queue = true
  | .consume =>
    (message.get "queue" .null).truthy = true ∧ (message.get "worker_id" .null).truthy = true ∧
      ∃ queue, (message.get "queue" .null).scalar? = some queue
  | .register =>
    (message.get "worker_id" .null).truthy = true ∧
      ∃ worker, (message.get "worker_id" .null).scalar? = some worker
  | .heartbeat =>
    (message.get "worker_id" .null).truthy = true ∧
      ∃ worker info, (message.get "worker_id" .null).scalar? = some worker ∧
        m.broker.workerRegistry.workers.find? worker.key = some info
  | .ack | .nack =>
    ∃ id task, message.get "task_id" .null = .str id ∧ id ≠ "" ∧
      m.broker.queueManager.inFlight.find? id = some task
  | .dlqReplay =>
    (message.get "task_id" .null).truthy = true ∧
      if m.broker.walStore.isSome = true then
        ∃ row, platform.namedRow m.disk (message.get "task_id" .null) = some row
      else
        ∃ id task, message.get "task_id" .null = .str id ∧
          m.broker.queueManager.deadLetterQueue.tasks.find? id = some task
  | .dlqPurge => True
  | .dlqList | .stats | .metrics => False

/-- The responses that report no change of a store. -/
def Response.Silent : Response → Prop
  | .error _ => True
  | .rateLimited _ _ => True
  | .dlqList _ _ => True
  | .stats _ => True
  | .metrics _ => True
  | _ => False

/-- The results of a command that got nowhere. -/
def Silent : Except Stop Outcome → Prop
  | .ok (.answered response) => response.Silent
  | .ok _ => False
  | .error (.raised _) => True
  | .error .crashed => False

/-- `complete_task` for the worker an ACK or NACK message names. -/
def completion (env : Env) (registry : WorkerRegistry) (message : Message) (id : String) :
    Except Error Unit × WorkerRegistry :=
  match (message.get "worker_id" (.str "")).scalar? with
  | none => (.error .typeError, registry)
  | some worker => registry.completeTask worker.key id env.monotonic

/-- What can fail in `_handle_ack` between the memory and the store: `complete_task`, then
the queue name as a key of the metrics. -/
def ackChecks (env : Env) (registry : WorkerRegistry) (message : Message) (id : String) :
    Except Error Unit :=
  match (completion env registry message id).1 with
  | .error e => .error e
  | .ok () =>
    match (message.get "queue" (.str "unknown")).scalar? with
    | none => .error .typeError
    | some _ => .ok ()

/-- The stub that `_handle_nack` hands to `add_to_dlq`. -/
def nackStub (env : Env) (dlq : DeadLetterQueue) (task : Task) : Task where
  taskId := task.taskId
  queueName := task.queueName
  payload := deadLetterPayload dlq task.taskId
  createdAt := env.time
  attempts := task.attempts

/-- The statements of the store call of `_handle_nack`, on an open connection. -/
def nackStatements (platform : Platform) (env : Env) (walStore : Option Connection)
    (dlq : DeadLetterQueue) (action : NackAction) (task : Task) :
    Except Error (Database → Database) :=
  match action with
  | .deadLettered =>
    if walStore = some { inTransaction := true } then .error .operationalError
    else
      (platform.dlqRow (nackStub env dlq task) "max retries exceeded" env.time).map
        fun row db => db.addToDlq row
  | .requeued =>
    .ok fun db => db.updateTaskStatus task.taskId .pending (some task.attempts) none env.time

/-- The text of a NACK response. -/
def nackMessage (platform : Platform) (message : Message) (action : NackAction) : String :=
  if action = .deadLettered then
    "Task " ++ platform.str (message.get "task_id" .null) ++ " moved to DLQ"
  else "Task " ++ platform.str (message.get "task_id" .null) ++ " re-queued for retry"

/-- How a replay ends that has deleted the dead letter and does not get to save the task: the
process dies in between, or `save_task` raises.  A row that the broker wrote itself can always
be saved again. -/
inductive Unsaved (crashIn : Option Nat) (row : Except Error TaskRow) :
    Except Stop Outcome → Prop where
  | died (spent : crashIn = some 1) : Unsaved crashIn row (.error .crashed)
  | refused {e : Error} (fails : row = .error e) : Unsaved crashIn row (.error (.raised e))

/-- The result of an eviction pass. -/
def passResult : Except Error Unit → Except Stop Outcome
  | .ok () => .ok .completed
  | .error e => .error (.raised e)

/-- What `action` can do to the stores of `m`, and how it ends. -/
inductive Effect (platform : Platform) (env : Env) (m : Machine) :
    Action → Except Stop Outcome → Core → Prop where
  | quiet {message : Message} {r : Except Stop Outcome}
      (idle : ∀ command, commandOf message = some command →
        ¬Admits platform env m message command)
      (silent : Silent r) : Effect platform env m (.command message) r m.core
  | produce {message : Message} {queue : Scalar} {r : Except Stop Outcome} {c : Core}
      (command : commandOf message = some .produce)
      (admitted : Admits platform env m message .produce)
      (named : (message.get "queue" .null).truthy = true)
      (hashed : (message.get "queue" .null).scalar? = some queue)
      (persisted : Persist m.crashIn
        { m.core with
          queueManager := m.broker.queueManager.enqueue env.uuid.text env.time queue
            (message.get "task" .null) }
        ((platform.taskRow (env.task queue (message.get "task" .null)) env.time).map
          fun row db => db.saveTask row)
        (.answered (.produced env.uuid.text)) r c) :
      Effect platform env m (.command message) r c
  | consumeEmpty {message : Message} {queue : Scalar} {qm : QueueManager}
      (command : commandOf message = some .consume)
      (hashed : (message.get "queue" .null).scalar? = some queue)
      (taken : m.broker.queueManager.dequeue queue (message.get "worker_id" .null) = (none, qm)) :
      Effect platform env m (.command message) (.ok (.answered .empty))
        { m.core with queueManager := qm }
  | consumeUnhashable {message : Message} {queue : Scalar} {task : Task} {qm : QueueManager}
      (command : commandOf message = some .consume)
      (admitted : Admits platform env m message .consume)
      (hashed : (message.get "queue" .null).scalar? = some queue)
      (taken : m.broker.queueManager.dequeue queue (message.get "worker_id" .null) =
        (some task, qm))
      (unhashable : (message.get "worker_id" .null).scalar? = none) :
      Effect platform env m (.command message) (.error (.raised .typeError))
        { m.core with queueManager := qm }
  | consume {message : Message} {queue worker : Scalar} {task : Task} {qm : QueueManager}
      {r : Except Stop Outcome} {c : Core}
      (command : commandOf message = some .consume)
      (admitted : Admits platform env m message .consume)
      (hashed : (message.get "queue" .null).scalar? = some queue)
      (taken : m.broker.queueManager.dequeue queue (message.get "worker_id" .null) =
        (some task, qm))
      (consumer : (message.get "worker_id" .null).scalar? = some worker)
      (persisted : Persist m.crashIn
        { m.core with
          queueManager := qm
          workerRegistry :=
            m.broker.workerRegistry.assignTask worker.key task.taskId env.monotonic }
        ((platform.optionalTextOf (message.get "worker_id" .null)).map fun text db =>
          db.updateTaskStatus task.taskId .inFlight (some task.attempts) text env.time)
        (.answered (.consumed
          { taskId := task.taskId
            queueName := task.queueName
            payload := task.payload
            attempts := task.attempts })) r c) :
      Effect platform env m (.command message) r c
  | register {message : Message} {worker : Scalar} {isNew : Bool} {text : String}
      (command : commandOf message = some .register)
      (hashed : (message.get "worker_id" .null).scalar? = some worker)
      (known : isNew = (m.broker.workerRegistry.workers.find? worker.key).isNone) :
      Effect platform env m (.command message) (.ok (.answered (.registered isNew text)))
        { m.core with
          workerRegistry := (m.broker.workerRegistry.register worker
            (message.get "queues" (.arr [])) env.time).2 }
  | heartbeat {message : Message} {worker : Scalar}
      (command : commandOf message = some .heartbeat)
      (hashed : (message.get "worker_id" .null).scalar? = some worker) :
      Effect platform env m (.command message) (.ok (.answered .heartbeat))
        { m.core with
          workerRegistry := (m.broker.workerRegistry.recordHeartbeat worker.key env.time).2 }
  | ackAborted {message : Message} {id : String} {task : Task} {e : Error}
      (command : commandOf message = some .ack)
      (admitted : Admits platform env m message .ack)
      (named : message.get "task_id" .null = .str id)
      (found : m.broker.queueManager.inFlight.find? id = some task)
      (fails : ackChecks env m.broker.workerRegistry message id = .error e) :
      Effect platform env m (.command message) (.error (.raised e))
        { m.core with
          queueManager := (m.broker.queueManager.acknowledge id).2
          workerRegistry := (completion env m.broker.workerRegistry message id).2 }
  | ack {message : Message} {id text : String} {task : Task} {r : Except Stop Outcome} {c : Core}
      (command : commandOf message = some .ack)
      (admitted : Admits platform env m message .ack)
      (named : message.get "task_id" .null = .str id)
      (found : m.broker.queueManager.inFlight.find? id = some task)
      (passes : ackChecks env m.broker.workerRegistry message id = .ok ())
      (persisted : Persist m.crashIn
        { m.core with
          queueManager := (m.broker.queueManager.acknowledge id).2
          workerRegistry := (completion env m.broker.workerRegistry message id).2 }
        (.ok fun db => db.updateTaskStatus id .done none none env.time)
        (.answered (.acknowledged text)) r c) :
      Effect platform env m (.command message) r c
  | nackAborted {message : Message} {id : String} {action : NackAction} {task : Task}
      {qm : QueueManager} {e : Error}
      (command : commandOf message = some .nack)
      (admitted : Admits platform env m message .nack)
      (named : message.get "task_id" .null = .str id)
      (nacked : m.broker.queueManager.negativeAcknowledge env.time id = (some (action, task), qm))
      (fails : (completion env m.broker.workerRegistry message id).1 = .error e) :
      Effect platform env m (.command message) (.error (.raised e))
        { m.core with
          queueManager := qm
          workerRegistry := (completion env m.broker.workerRegistry message id).2 }
  | nack {message : Message} {id : String} {action : NackAction} {task : Task}
      {qm : QueueManager} {r : Except Stop Outcome} {c : Core}
      (command : commandOf message = some .nack)
      (admitted : Admits platform env m message .nack)
      (named : message.get "task_id" .null = .str id)
      (nacked : m.broker.queueManager.negativeAcknowledge env.time id = (some (action, task), qm))
      (passes : (completion env m.broker.workerRegistry message id).1 = .ok ())
      (persisted : Persist m.crashIn
        { m.core with
          queueManager := qm
          workerRegistry := (completion env m.broker.workerRegistry message id).2 }
        (nackStatements platform env m.broker.walStore qm.deadLetterQueue action task)
        (.answered (.negativeAcknowledged action task.attempts
          (nackMessage platform message action))) r c) :
      Effect platform env m (.command message) r c
  | replayDied {message : Message} {row : DlqRow}
      (command : commandOf message = some .dlqReplay)
      (opened : m.broker.walStore.isSome = true)
      (found : platform.namedRow m.disk (message.get "task_id" .null) = some row)
      (spent : m.crashIn = some 0) :
      Effect platform env m (.command message) (.error .crashed) m.core
  | replayDropped {message : Message} {row : DlqRow} {e : Error}
      (command : commandOf message = some .dlqReplay)
      (opened : m.broker.walStore.isSome = true)
      (found : platform.namedRow m.disk (message.get "task_id" .null) = some row)
      (fails : (message.get "task_id" .null).sliceable = false ∨
        platform.loads row.payload = none) :
      Effect platform env m (.command message) (.error (.raised e))
        { m.core with walStore := some {}, disk := m.disk.deleteDlq row.taskId }
  | replayCut {message : Message} {row : DlqRow} {payload : Json} {r : Except Stop Outcome}
      {connection : Connection}
      (command : commandOf message = some .dlqReplay)
      (opened : m.broker.walStore.isSome = true)
      (found : platform.namedRow m.disk (message.get "task_id" .null) = some row)
      (decodes : platform.loads row.payload = some payload)
      (unsaved : Unsaved m.crashIn
        (platform.taskRow (env.task (.str row.queueName) payload) env.time) r) :
      Effect platform env m (.command message) r
        { m.core with
          queueManager := m.broker.queueManager.enqueue env.uuid.text env.time
            (.str row.queueName) payload
          walStore := some connection
          disk := m.disk.deleteDlq row.taskId }
  | replay {message : Message} {row : DlqRow} {payload : Json} {saved : TaskRow}
      (command : commandOf message = some .dlqReplay)
      (opened : m.broker.walStore.isSome = true)
      (found : platform.namedRow m.disk (message.get "task_id" .null) = some row)
      (decodes : platform.loads row.payload = some payload)
      (binds : platform.taskRow (env.task (.str row.queueName) payload) env.time = .ok saved)
      (alive : m.crashIn ≠ some 0 ∧ m.crashIn ≠ some 1) :
      Effect platform env m (.command message)
        (.ok (.answered (.replayed row.taskId env.uuid.text)))
        { m.core with
          queueManager := m.broker.queueManager.enqueue env.uuid.text env.time
            (.str row.queueName) payload
          walStore := some {}
          disk := (m.disk.deleteDlq row.taskId).saveTask saved }
  | retry {message : Message} {id : String} {task : Task}
      (command : commandOf message = some .dlqReplay)
      (closed : m.broker.walStore = none)
      (named : message.get "task_id" .null = .str id)
      (found : m.broker.queueManager.deadLetterQueue.tasks.find? id = some task) :
      Effect platform env m (.command message) (.ok (.answered (.replayed id id)))
        { m.core with queueManager := (m.broker.queueManager.retry id).2 }
  | purge {message : Message} {count : Nat} {r : Except Stop Outcome} {c : Core}
      (command : commandOf message = some .dlqPurge)
      (opened : m.broker.walStore.isSome = true)
      (counted : ∀ name, platform.queueFilter (message.get "queue" .null) = .ok name →
        count = m.disk.purgeCount name)
      (persisted : Persist m.crashIn m.core
        ((platform.queueFilter (message.get "queue" .null)).map fun name db => db.purgeDlq name)
        (.answered (.purged count)) r c) :
      Effect platform env m (.command message) r c
  | purgeMemory {message : Message} {count : Nat} {dlq : DeadLetterQueue}
      (command : commandOf message = some .dlqPurge)
      (closed : m.broker.walStore = none)
      (purged : (count, dlq) =
        if (message.get "queue" .null).truthy then
          purgeQueue m.broker.queueManager.deadLetterQueue (message.get "queue" .null)
        else m.broker.queueManager.deadLetterQueue.purge) :
      Effect platform env m (.command message) (.ok (.answered (.purged count)))
        { m.core with queueManager := { m.broker.queueManager with deadLetterQueue := dlq } }
  | evict {order : SetOrder} {result : Except Error Unit} {registry : WorkerRegistry}
      {qm : QueueManager} {r : Except Stop Outcome}
      (ran : evictDeadWorkers order env.time m.broker.workerRegistry m.broker.queueManager =
        (result, registry, qm))
      (ending : r = passResult result) :
      Effect platform env m (.evict order) r
        { m.core with queueManager := qm, workerRegistry := registry }
  | reset {r : Except Stop Outcome} {c : Core}
      (persisted : Persist m.crashIn
        { m.core with queueManager := m.broker.queueManager.reset } (.ok Database.clearAllData)
        .completed r c) :
      Effect platform env m .reset r c
  | replayAll {ids : List String} {qm : QueueManager}
      (ran : retryEach ((m.broker.queueManager.deadLetterQueue.peek 1000).map Task.taskId)
        m.broker.queueManager = (ids, qm)) :
      Effect platform env m .replayAll (.ok (.replayedAll ids)) { m.core with queueManager := qm }
  | crashNobody {pick : Nat} :
      Effect platform env m (.crashWorker pick) (.ok .completed) m.core
  | crashWorker {pick : Nat} {info : WorkerInfo} (active : info ∈ m.broker.workerRegistry.workers) :
      Effect platform env m (.crashWorker pick) (.ok .completed)
        { m.core with
          workerRegistry :=
            { m.broker.workerRegistry with
              workers := m.broker.workerRegistry.workers.put
                { info with lastHeartbeat := env.time - 10 } } }
  | crash : Effect platform env m .crash (.error .crashed) m.core
  | start : Effect platform env m .start (.ok .ignored) m.core

/-! ## What a command does

The effects of a message with a given command: its own, once it got past its checks. -/

section Commands

variable {platform : Platform} {env : Env} {m : Machine} {message : Message}
  {r : Except Stop Outcome} {c : Core}

/-- An admitted PRODUCE enqueues its task, and its store call ends it. -/
theorem Effect.of_produce (effect : Effect platform env m (.command message) r c)
    (command : commandOf message = some .produce)
    (admits : Admits platform env m message .produce) :
    ∃ queue, (message.get "queue" .null).scalar? = some queue ∧
      Persist m.crashIn
        { m.core with
          queueManager := m.broker.queueManager.enqueue env.uuid.text env.time queue
            (message.get "task" .null) }
        ((platform.taskRow (env.task queue (message.get "task" .null)) env.time).map
          fun row db => db.saveTask row)
        (.answered (.produced env.uuid.text)) r c := by
  cases effect with
  | quiet idle silent => exact absurd admits (idle _ command)
  | produce _ admitted named hashed persisted => exact ⟨_, hashed, persisted⟩
  | _ => simp_all only [Option.some.injEq, reduceCtorEq]

/-- How a CONSUME goes on with what `dequeue` has returned: there is nothing to return, or the
task was taken for a worker that is no key, or it is assigned and the store call ends the
command. -/
inductive Consumes (platform : Platform) (env : Env) (m : Machine) (message : Message) :
    Option Task × QueueManager → Except Stop Outcome → Core → Prop where
  | empty {qm : QueueManager} :
      Consumes platform env m message (none, qm) (.ok (.answered .empty))
        { m.core with queueManager := qm }
  | unhashable {task : Task} {qm : QueueManager}
      (unhashable : (message.get "worker_id" .null).scalar? = none) :
      Consumes platform env m message (some task, qm) (.error (.raised .typeError))
        { m.core with queueManager := qm }
  | assigned {task : Task} {qm : QueueManager} {worker : Scalar} {r : Except Stop Outcome}
      {c : Core} (consumer : (message.get "worker_id" .null).scalar? = some worker)
      (persisted : Persist m.crashIn
        { m.core with
          queueManager := qm
          workerRegistry :=
            m.broker.workerRegistry.assignTask worker.key task.taskId env.monotonic }
        ((platform.optionalTextOf (message.get "worker_id" .null)).map fun text db =>
          db.updateTaskStatus task.taskId .inFlight (some task.attempts) text env.time)
        (.answered (.consumed
          { taskId := task.taskId
            queueName := task.queueName
            payload := task.payload
            attempts := task.attempts })) r c) :
      Consumes platform env m message (some task, qm) r c

/-- An admitted CONSUME asks the queue manager for a task. -/
theorem Effect.of_consume (effect : Effect platform env m (.command message) r c)
    (command : commandOf message = some .consume)
    (admits : Admits platform env m message .consume) :
    ∃ queue, (message.get "queue" .null).scalar? = some queue ∧
      Consumes platform env m message
        (m.broker.queueManager.dequeue queue (message.get "worker_id" .null)) r c := by
  cases effect with
  | quiet idle silent => exact absurd admits (idle _ command)
  | consumeEmpty _ hashed taken => exact ⟨_, hashed, taken ▸ .empty⟩
  | consumeUnhashable _ admitted hashed taken unhashable =>
    exact ⟨_, hashed, taken ▸ .unhashable unhashable⟩
  | consume _ admitted hashed taken consumer persisted =>
    exact ⟨_, hashed, taken ▸ .assigned consumer persisted⟩
  | _ => simp_all only [Option.some.injEq, reduceCtorEq]

/-- An admitted ACK takes the task out of flight and is checked further, and its store call
ends it. -/
theorem Effect.of_ack (effect : Effect platform env m (.command message) r c)
    (command : commandOf message = some .ack) (admits : Admits platform env m message .ack) :
    ∃ id task, message.get "task_id" .null = .str id ∧
      m.broker.queueManager.inFlight.find? id = some task ∧
      c.queueManager = (m.broker.queueManager.acknowledge id).2 ∧
      ((∃ e, ackChecks env m.broker.workerRegistry message id = .error e ∧
          r = .error (.raised e)) ∨
        ackChecks env m.broker.workerRegistry message id = .ok () ∧ ∃ text, Persist m.crashIn
          { m.core with
            queueManager := (m.broker.queueManager.acknowledge id).2
            workerRegistry := (completion env m.broker.workerRegistry message id).2 }
          (.ok fun db => db.updateTaskStatus id .done none none env.time)
          (.answered (.acknowledged text)) r c) := by
  cases effect with
  | quiet idle silent => exact absurd admits (idle _ command)
  | ackAborted _ admitted named found fails =>
    exact ⟨_, _, named, found, rfl, Or.inl ⟨_, fails, rfl⟩⟩
  | ack _ admitted named found passes persisted =>
    exact ⟨_, _, named, found, persisted.memory.1, Or.inr ⟨passes, _, persisted⟩⟩
  | _ => simp_all only [Option.some.injEq, reduceCtorEq]

/-- An admitted NACK decides over the task, completes it for its worker, and its store call
ends it. -/
theorem Effect.of_nack (effect : Effect platform env m (.command message) r c)
    (command : commandOf message = some .nack) (admits : Admits platform env m message .nack) :
    ∃ id action task qm, message.get "task_id" .null = .str id ∧
      m.broker.queueManager.negativeAcknowledge env.time id = (some (action, task), qm) ∧
      c.queueManager = qm ∧
      ((∃ e, (completion env m.broker.workerRegistry message id).1 = .error e ∧
          r = .error (.raised e)) ∨
        (completion env m.broker.workerRegistry message id).1 = .ok () ∧ Persist m.crashIn
          { m.core with
            queueManager := qm
            workerRegistry := (completion env m.broker.workerRegistry message id).2 }
          (nackStatements platform env m.broker.walStore qm.deadLetterQueue action task)
          (.answered (.negativeAcknowledged action task.attempts
            (nackMessage platform message action))) r c) := by
  cases effect with
  | quiet idle silent => exact absurd admits (idle _ command)
  | nackAborted _ admitted named nacked fails =>
    exact ⟨_, _, _, _, named, nacked, rfl, Or.inl ⟨_, fails, rfl⟩⟩
  | nack _ admitted named nacked passes persisted =>
    exact ⟨_, _, _, _, named, nacked, persisted.memory.1, Or.inr ⟨passes, persisted⟩⟩
  | _ => simp_all only [Option.some.injEq, reduceCtorEq]

/-- A DLQ_PURGE of a broker without a store removes the dead letters of the queue that it names,
or all of them, and answers how many. -/
theorem Effect.of_purge (effect : Effect platform env m (.command message) r c)
    (command : commandOf message = some .dlqPurge) (closed : m.broker.walStore = none) :
    ∃ count dlq, r = .ok (.answered (.purged count)) ∧
      (count, dlq) =
        if (message.get "queue" .null).truthy then
          purgeQueue m.broker.queueManager.deadLetterQueue (message.get "queue" .null)
        else m.broker.queueManager.deadLetterQueue.purge := by
  cases effect with
  | quiet idle silent => exact absurd trivial (idle _ command)
  | purge _ opened counted persisted =>
    rw [closed] at opened
    cases opened
  | purgeMemory _ shut purged => exact ⟨_, _, rfl, purged⟩
  | _ => simp_all only [Option.some.injEq, reduceCtorEq]

/-- The commands other than PRODUCE, CONSUME, NACK and DLQ_REPLAY leave the queues as they
are. -/
theorem Effect.queues_of_other (effect : Effect platform env m (.command message) r c)
    (other : commandOf message ≠ some .produce ∧ commandOf message ≠ some .consume ∧
      commandOf message ≠ some .nack ∧ commandOf message ≠ some .dlqReplay) :
    c.queueManager.queues = m.broker.queueManager.queues := by
  have acknowledged (id : String) :
      (m.broker.queueManager.acknowledge id).2.queues = m.broker.queueManager.queues := by
    unfold QueueManager.acknowledge
    split <;> rfl
  cases effect with
  | quiet idle silent => rfl
  | register _ hashed known => rfl
  | heartbeat _ hashed => rfl
  | ackAborted _ admitted named found fails => exact acknowledged _
  | ack _ admitted named found passes persisted =>
    rw [persisted.memory.1]
    exact acknowledged _
  | purge _ opened counted persisted => rw [persisted.memory.1]; rfl
  | purgeMemory _ closed purged => rfl
  | _ => simp_all only [ne_eq, not_true_eq_false, false_and, and_false]

end Commands

/-! ## What a response tells

A response that reports a change determines the effect that led to it. -/

section Responses

variable {platform : Platform} {env : Env} {m : Machine} {message : Message} {c : Core}

/-- A call that returned was not cut and not refused. -/
theorem Persist.of_ok {crashIn : Option Nat} {c c' : Core}
    {bound : Except Error (Database → Database)} {success outcome : Outcome}
    (persisted : Persist crashIn c bound success (.ok outcome) c') :
    outcome = success ∧
      (c.walStore = none ∧ c' = c ∨
        c.walStore.isSome = true ∧ ∃ statements, bound = .ok statements ∧
          c' = { c with walStore := some {}, disk := statements c.disk }) := by
  cases persisted with
  | off absent => exact ⟨rfl, Or.inl ⟨absent, rfl⟩⟩
  | committed present binds alive => exact ⟨rfl, Or.inr ⟨present, _, binds, rfl⟩⟩

/-- Only commands are answered. -/
theorem Effect.command_of_answered {action : Action} {response : Response}
    (effect : Effect platform env m action (.ok (.answered response)) c) :
    ∃ message, action = .command message := by
  cases effect with
  | @evict order result registry qm r ran ending =>
    cases result <;> cases ending
  | reset persisted => cases persisted.of_ok.1
  | _ => exact ⟨_, rfl⟩

/-- A process that dies says nothing. -/
theorem Effect.not_crashed {action : Action}
    (effect : Effect platform env m action (.ok .crashed) c) : False := by
  cases effect with
  | quiet idle silent => exact silent.elim
  | @evict order result registry qm r ran ending =>
    cases result <;> cases ending
  | replayCut command opened found decodes unsaved => cases unsaved
  | _ => rename_i persisted; cases persisted.of_ok.1

/-- Only a DLQ_PURGE answers how many dead letters it removed. -/
theorem Effect.of_purged {count : Nat}
    (effect : Effect platform env m (.command message) (.ok (.answered (.purged count))) c) :
    commandOf message = some .dlqPurge := by
  cases effect with
  | quiet idle silent => exact silent.elim
  | purge command opened counted persisted => exact command
  | purgeMemory command closed purged => exact command
  | replayCut command opened found decodes unsaved => cases unsaved
  | _ => rename_i persisted; cases persisted.of_ok.1

theorem Effect.of_acknowledged {text : String}
    (effect : Effect platform env m (.command message) (.ok (.answered (.acknowledged text))) c) :
    ∃ id task, message.get "task_id" .null = .str id ∧
      m.broker.queueManager.inFlight.find? id = some task ∧
      c.queueManager = (m.broker.queueManager.acknowledge id).2 ∧
      (m.broker.walStore.isSome = true →
        c.disk = m.disk.updateTaskStatus id .done none none env.time) := by
  cases effect with
  | quiet idle silent => exact silent.elim
  | ack command admitted named found passes persisted =>
    obtain ⟨-, ⟨closed, rfl⟩ | ⟨-, statements, binds, rfl⟩⟩ := persisted.of_ok
    · refine ⟨_, _, named, found, rfl, fun opened => ?_⟩
      change m.broker.walStore = none at closed
      rw [closed] at opened
      cases opened
    · cases binds
      exact ⟨_, _, named, found, rfl, fun _ => rfl⟩
  | replayCut command opened found decodes unsaved => cases unsaved
  | _ => rename_i persisted; cases persisted.of_ok.1

/-- **A produced task is in its queue, and in the table if there is one.** -/
theorem Effect.of_produced {taskId : String}
    (effect : Effect platform env m (.command message) (.ok (.answered (.produced taskId))) c) :
    taskId = env.uuid.text ∧ ∃ queue,
      (message.get "queue" .null).scalar? = some queue ∧
      c.queueManager = m.broker.queueManager.enqueue env.uuid.text env.time queue
        (message.get "task" .null) ∧
      (m.broker.walStore.isSome = true → ∃ row,
        platform.taskRow (env.task queue (message.get "task" .null)) env.time = .ok row ∧
          c.disk = m.disk.saveTask row) := by
  cases effect with
  | quiet idle silent => exact silent.elim
  | produce command admitted named hashed persisted =>
    obtain ⟨same, ⟨closed, rfl⟩ | ⟨-, statements, binds, rfl⟩⟩ := persisted.of_ok
    · cases same
      refine ⟨rfl, _, hashed, rfl, fun opened => ?_⟩
      change m.broker.walStore = none at closed
      rw [closed] at opened
      cases opened
    · cases same
      obtain ⟨row, bound, rfl⟩ := of_map_eq_ok binds
      exact ⟨rfl, _, hashed, rfl, fun _ => ⟨row, bound, rfl⟩⟩
  | replayCut command opened found decodes unsaved => cases unsaved
  | _ => rename_i persisted; cases persisted.of_ok.1

/-- The task that is handed out was the head of a queue. -/
theorem Effect.of_consumed {delivery : Delivery}
    (effect : Effect platform env m (.command message) (.ok (.answered (.consumed delivery))) c) :
    ∃ queue worker task, commandOf message = some .consume ∧
      m.broker.queueManager.dequeue queue (message.get "worker_id" .null) =
        (some task, c.queueManager) ∧
      (message.get "worker_id" .null).scalar? = some worker ∧
      c.workerRegistry =
        m.broker.workerRegistry.assignTask worker.key task.taskId env.monotonic ∧
      delivery.taskId = task.taskId ∧ delivery.attempts = task.attempts ∧
      delivery.payload = task.payload := by
  cases effect with
  | quiet idle silent => exact silent.elim
  | consume command admitted hashed taken consumer persisted =>
    obtain ⟨same, ⟨-, rfl⟩ | ⟨-, statements, -, rfl⟩⟩ := persisted.of_ok
    · cases same
      exact ⟨_, _, _, command, taken, consumer, rfl, rfl, rfl, rfl⟩
    · cases same
      exact ⟨_, _, _, command, taken, consumer, rfl, rfl, rfl, rfl⟩
  | replayCut command opened found decodes unsaved => cases unsaved
  | _ => rename_i persisted; cases persisted.of_ok.1

/-- The answer to a NACK tells where the task went. -/
theorem Effect.of_negativeAcknowledged {action : NackAction} {attempts : Nat} {text : String}
    (effect : Effect platform env m (.command message)
      (.ok (.answered (.negativeAcknowledged action attempts text))) c) :
    ∃ id task, message.get "task_id" .null = .str id ∧
      m.broker.queueManager.negativeAcknowledge env.time id =
        (some (action, task), c.queueManager) ∧
      attempts = task.attempts ∧
      (m.broker.walStore.isSome = true → ∃ statements,
        nackStatements platform env m.broker.walStore c.queueManager.deadLetterQueue action task =
          .ok statements ∧ c.disk = statements m.disk) := by
  cases effect with
  | quiet idle silent => exact silent.elim
  | nack command admitted named nacked passes persisted =>
    obtain ⟨same, ⟨closed, rfl⟩ | ⟨-, statements, binds, rfl⟩⟩ := persisted.of_ok
    · cases same
      refine ⟨_, _, named, nacked, rfl, fun opened => ?_⟩
      change m.broker.walStore = none at closed
      rw [closed] at opened
      cases opened
    · cases same
      exact ⟨_, _, named, nacked, rfl, fun _ => ⟨statements, binds, rfl⟩⟩
  | replayCut command opened found decodes unsaved => cases unsaved
  | _ => rename_i persisted; cases persisted.of_ok.1

/-- With a store a replay enqueues a copy of the row under a new id. -/
theorem Effect.of_replayed {original replayed : String}
    (effect : Effect platform env m (.command message)
      (.ok (.answered (.replayed original replayed))) c)
    (opened : m.broker.walStore.isSome = true) :
    replayed = env.uuid.text ∧ ∃ row payload,
      platform.namedRow m.disk (message.get "task_id" .null) = some row ∧
      row.taskId = original ∧ platform.loads row.payload = some payload ∧
      c.queueManager =
        m.broker.queueManager.enqueue env.uuid.text env.time (.str row.queueName) payload := by
  cases effect with
  | quiet idle silent => exact silent.elim
  | replay command opened found decodes binds alive =>
    exact ⟨rfl, _, _, found, rfl, decodes, rfl⟩
  | retry command closed named found =>
    rw [closed] at opened
    cases opened
  | replayCut command opened found decodes unsaved => cases unsaved
  | _ => rename_i persisted; cases persisted.of_ok.1

end Responses

end DistroSync
