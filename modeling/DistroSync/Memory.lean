import DistroSync.Transition

/-!
# What an event does to the memory

`Effect` leaves out the load shedder and the metrics, which no store depends on.  Here
they are back, and the database is out: what the commands of producers and workers do
to the memory of the process is a function of the memory and the message
(`Memory.produce`, `Memory.consume` and so on), however their store calls end.
`step_remembers` carries what the programs leave in memory to the steps of a run.
-/

namespace DistroSync

open Keyed Py Exec

/-- What a process has in memory. -/
structure Memory where
  queueManager : QueueManager
  workerRegistry : WorkerRegistry
  loadShedder : LoadShedder
  metrics : MetricsCollector

/-- The memory of the broker process: all of it but the connection to the database. -/
def Broker.memory (broker : Broker) : Memory where
  queueManager := broker.queueManager
  workerRegistry := broker.workerRegistry
  loadShedder := broker.loadShedder
  metrics := broker.metrics

/-! ## The tasks in flight -/

namespace QueueManager

variable {qm qm' : QueueManager}

@[simp] theorem append_inFlight (qm : QueueManager) (task : Task) :
    (qm.append task).inFlight = qm.inFlight := ensureQueue_inFlight qm _

@[simp] theorem appendLeft_inFlight (qm : QueueManager) (task : Task) :
    (qm.appendLeft task).inFlight = qm.inFlight := ensureQueue_inFlight qm _

theorem dequeue_none_inFlight {queueName : Scalar} {workerId : Json}
    (taken : qm.dequeue queueName workerId = (none, qm')) : qm'.inFlight = qm.inFlight := by
  rcases dequeue_none taken with rfl | ⟨created, rfl⟩
  · rfl
  · exact ensureQueue_inFlight qm created

theorem dequeue_some_inFlight {queueName : Scalar} {workerId : Json} {task : Task}
    (taken : qm.dequeue queueName workerId = (some task, qm')) :
    qm'.inFlight = qm.inFlight.put task := by
  obtain ⟨origin, name, created, popped⟩ := dequeue_some taken
  have same : origin.inFlight = qm.inFlight := by
    rcases created with rfl | ⟨created, rfl⟩
    · rfl
    · exact ensureQueue_inFlight qm created
  obtain ⟨head, rest, -, -, rfl⟩ := popLeft_some popped
  exact congrArg (·.put task) same

theorem acknowledge_inFlight {id : String} {task : Task}
    (found : qm.inFlight.find? id = some task) :
    (qm.acknowledge id).2.inFlight = qm.inFlight.erase id := by
  unfold acknowledge
  rw [found]

theorem Nacked.inFlight_eq {now : Rat} {task task' : Task} {action : NackAction}
    (nacked : Nacked qm now task action task' qm') :
    qm'.inFlight = qm.inFlight.erase task.taskId := by
  cases nacked with
  | buried exhausted => rfl
  | requeued left => exact appendLeft_inFlight _ _

@[simp] theorem retry_inFlight (qm : QueueManager) (id : String) :
    (qm.retry id).2.inFlight = qm.inFlight := by
  unfold retry retryBegin
  cases qm.deadLetterQueue.tasks.find? id with
  | none => rfl
  | some task => exact append_inFlight _ _

theorem retryEach_inFlight (ids : List String) (qm : QueueManager) :
    (retryEach ids qm).2.inFlight = qm.inFlight := by
  induction ids generalizing qm with
  | nil => rfl
  | cons id rest ih => exact (ih _).trans (retry_inFlight qm id)

end QueueManager

/-! ## The commands of producers and workers -/

namespace Memory

variable (env : Env) (message : Message) (memory : Memory)

/-- The verdict of the load shedder on a PRODUCE to `queue`. -/
def verdict (queue : Key) : (Bool × Rat) × LoadShedder :=
  memory.loadShedder.checkAndConsume queue (memory.queueManager.queueDepth queue)
    (memory.workerRegistry.averageLatencyMs queue) env.monotonic

/-- An allowed PRODUCE. -/
def admitted (queue : Scalar) : Memory where
  queueManager :=
    memory.queueManager.enqueue env.uuid.text env.time queue (message.get "task" .null)
  workerRegistry := memory.workerRegistry
  loadShedder := (memory.verdict env queue.key).2
  metrics := memory.metrics.recordProduce queue.key env.monotonic

/-- PRODUCE. -/
def produce : Memory :=
  if (message.get "queue" .null).truthy ∧ (message.get "task" .null).isNone = false then
    match (message.get "queue" .null).scalar? with
    | none => memory
    | some queue =>
      if (memory.verdict env queue.key).1.1 then memory.admitted env message queue
      else { memory with loadShedder := (memory.verdict env queue.key).2 }
  else memory

/-- A delivery by CONSUME. -/
def deliver (queue worker : Scalar) (taskId : String) (qm : QueueManager) : Memory where
  queueManager := qm
  workerRegistry := memory.workerRegistry.assignTask worker.key taskId env.monotonic
  loadShedder := memory.loadShedder
  metrics := memory.metrics.recordConsume queue.key taskId env.monotonic

/-- CONSUME. -/
def consume : Memory :=
  if (message.get "queue" .null).truthy ∧ (message.get "worker_id" .null).truthy then
    match (message.get "queue" .null).scalar? with
    | none => memory
    | some queue =>
      match memory.queueManager.dequeue queue (message.get "worker_id" .null) with
      | (none, qm) => { memory with queueManager := qm }
      | (some task, qm) =>
        match (message.get "worker_id" .null).scalar? with
        | none => { memory with queueManager := qm }
        | some worker => memory.deliver env queue worker task.taskId qm
  else memory

/-- REGISTER. -/
def register : Memory :=
  if (message.get "worker_id" .null).truthy then
    match (message.get "worker_id" .null).scalar? with
    | none => memory
    | some worker =>
      { memory with
        workerRegistry := (memory.workerRegistry.register worker
          (message.get "queues" (.arr [])) env.time).2 }
  else memory

/-- HEARTBEAT. -/
def heartbeat : Memory :=
  if (message.get "worker_id" .null).truthy then
    match (message.get "worker_id" .null).scalar? with
    | none => memory
    | some worker =>
      { memory with
        workerRegistry := (memory.workerRegistry.recordHeartbeat worker.key env.time).2 }
  else memory

/-- The id of a task in flight that an ACK or NACK names. -/
def named : Option String :=
  match message.get "task_id" .null with
  | .str id =>
    if id ≠ "" ∧ (memory.queueManager.inFlight.find? id).isSome then some id else none
  | _ => none

/-- The timestamps after an ACK, which are kept if it raises before it gets to them. -/
def acknowledgedMetrics (id : String) : MetricsCollector :=
  match ackChecks env memory.workerRegistry message id,
      (message.get "queue" (.str "unknown")).scalar? with
  | .ok (), some queue => memory.metrics.recordAck queue.key id env.monotonic
  | _, _ => memory.metrics

/-- ACK. -/
def ack : Memory :=
  match memory.named message with
  | none => memory
  | some id =>
    { memory with
      queueManager := (memory.queueManager.acknowledge id).2
      workerRegistry := (completion env memory.workerRegistry message id).2
      metrics := memory.acknowledgedMetrics env message id }

/-- NACK. -/
def nack : Memory :=
  match memory.named message with
  | none => memory
  | some id =>
    match memory.queueManager.negativeAcknowledge env.time id with
    | (none, qm) => { memory with queueManager := qm }
    | (some (action, task), qm) =>
      { memory with
        queueManager := qm
        workerRegistry := (completion env memory.workerRegistry message id).2
        metrics :=
          match (completion env memory.workerRegistry message id).1 with
          | .ok () =>
            memory.metrics.recordNack task.queueName.key id (action = .deadLettered)
          | .error _ => memory.metrics }

end Memory

/-! ## The handlers -/

section Handlers

variable {platform : Platform} {env : Env} {m : Machine} {message : Message}

/-- A program ends with this memory, whether it returns or raises. -/
def Leaves {α : Type} (program : BrokerM α) (m : Machine) (P : Memory → Prop) : Prop :=
  wp program (fun _ m' => P m'.broker.memory) (fun _ m' => P m'.broker.memory) m

/-- What holds of the memory left behind may be weakened. -/
theorem Leaves.mono {α : Type} {program : BrokerM α} {P Q : Memory → Prop}
    (leaves : Leaves program m P) (imp : ∀ memory, P memory → Q memory) : Leaves program m Q :=
  wp_mono (fun _ m' => imp m'.broker.memory) (fun _ m' => imp m'.broker.memory) leaves

theorem dispatch_eq_handle {command : Command} (named : commandOf message = some command) :
    dispatch platform env message = handle platform env message command := by
  obtain ⟨name, isText, nonempty⟩ := commandOf_some named
  unfold dispatch
  simp [isText, Json.truthy, nonempty, hashable, Json.scalar?, named]

/-- The rule for `_dispatch`: a message that names no command changes nothing. -/
theorem wp_dispatch {Q : Response → Machine → Prop} {E : Stop → Machine → Prop}
    (unknown : commandOf message = none → (∀ reason, Q (.error reason) m) ∧
      ∀ e, E (.raised e) m)
    (handled : ∀ command, commandOf message = some command →
      wp (handle platform env message command) Q E m) :
    wp (dispatch platform env message) Q E m := by
  cases named : commandOf message with
  | none =>
    obtain ⟨answered, raised⟩ := unknown named
    unfold dispatch
    simp only [named, wp_ite, wp_bind, wp_hashable, wp_pure]
    exact ⟨fun _ => answered _, fun _ => ⟨fun _ _ => answered _, fun _ => raised _⟩⟩
  | some command =>
    rw [dispatch_eq_handle named]
    exact handled command named

/-- The rule for a store call: it does not touch the memory. -/
theorem wp_calls {body : BrokerM Unit} {bound : Except Error (Database → Database)}
    {Q : Unit → Machine → Prop} {E : Stop → Machine → Prop} (call : Calls body m bound)
    (holds : ∀ m', m'.broker.memory = m.broker.memory → Q () m' ∧ ∀ stop, E stop m') :
    wp body Q E m := by
  cases binds : bound with
  | error e =>
    obtain ⟨connection, raised⟩ := call.raises e binds
    refine wp_of_raises raised ?_
    exact (holds { m with broker := { m.broker with walStore := some connection } } rfl).2 _
  | ok statements =>
    rw [wp_congr (call.commits statements binds), wp_walCommit]
    exact ⟨fun _ => (holds m rfl).2 _, fun _ => (holds (m.committed statements) rfl).1⟩

/-- The same for the store call that ends a handler, if there is a store. -/
theorem wp_stored {body : BrokerM Unit} {bound : Except Error (Database → Database)}
    {Q : Unit → Machine → Prop} {E : Stop → Machine → Prop}
    (call : m.broker.walStore.isSome = true → Calls body m bound)
    (holds : ∀ m', m'.broker.memory = m.broker.memory → Q () m' ∧ ∀ stop, E stop m') :
    wp (whenPersistent body) Q E m := by
  rw [wp_whenPersistent]
  exact ⟨fun opened => wp_calls (call opened) holds, fun _ => (holds m rfl).1⟩

/-- `save_task` and its failures do not touch the memory. -/
theorem handleProduce_leaves :
    Leaves (handleProduce platform env message) m
      (· = m.broker.memory.produce env message) := by
  unfold Leaves handleProduce Memory.produce
  simp only [wp_ite, wp_bind, wp_hashable, wp_pure, wp_onLoadShedder, wp_onQueueManager, wp_get,
    wp_onMetrics]
  refine ⟨fun missing => ?_, fun named => ⟨fun missing => ?_, fun given => ⟨?_, ?_⟩⟩⟩
  · simp_all
  · simp_all
  · intro queue hashed
    have passes : (message.get "queue" .null).truthy = true ∧
        (message.get "task" .null).isNone = false := ⟨by simpa using named, by simpa using given⟩
    rw [if_pos passes, hashed]
    refine ⟨fun shed => ?_, fun allowed => ?_⟩
    · have refused : (m.broker.memory.verdict env queue.key).1.1 = false := by
        simpa [Memory.verdict, Broker.memory] using shed
      simp only [refused]
      rfl
    · have isAllowed : (m.broker.memory.verdict env queue.key).1.1 = true := by
        simpa [Memory.verdict, Broker.memory] using allowed
      simp only [isAllowed, if_true]
      exact wp_stored (fun opened => saveNewest_calls rfl opened)
        fun m' same => ⟨same, fun _ => same⟩
  · intro unhashable
    simp [unhashable]

/-- The task has left its queue even where the handler raises afterwards. -/
theorem handleConsume_leaves :
    Leaves (handleConsume platform env message) m
      (· = m.broker.memory.consume env message) := by
  unfold Leaves handleConsume Memory.consume
  simp only [wp_ite, wp_bind, wp_hashable, wp_pure, wp_onQueueManager]
  refine ⟨fun missing => ?_, fun named => ⟨fun missing => ?_, fun given => ⟨?_, ?_⟩⟩⟩
  · simp_all
  · simp_all
  · intro queue hashed
    have passes : (message.get "queue" .null).truthy = true ∧
        (message.get "worker_id" .null).truthy = true :=
      ⟨by simpa using named, by simpa using given⟩
    rw [if_pos passes, hashed]
    simp only [Broker.memory]
    cases taken : m.broker.queueManager.dequeue queue (message.get "worker_id" .null) with
    | mk result qm =>
      cases result with
      | none => rfl
      | some task =>
        simp only [wp_bind, wp_hashable, wp_onRegistry, wp_onMetrics, wp_pure]
        refine ⟨fun worker consumer => ?_, fun unhashable => ?_⟩
        · simp only [consumer]
          exact wp_stored (fun _ => walWrite_calls _ _) fun m' same => ⟨same, fun _ => same⟩
        · simp only [unhashable]
  · intro unhashable
    simp [unhashable]

theorem handleRegister_leaves :
    Leaves (handleRegister platform env message) m
      (· = m.broker.memory.register env message) := by
  unfold Leaves handleRegister Memory.register
  simp only [wp_ite, wp_bind, wp_hashable, wp_pure, wp_onRegistry]
  refine ⟨fun missing => ?_, fun named => ⟨fun worker hashed => ?_, fun unhashable => ?_⟩⟩
  · simp_all
  · have given : (message.get "worker_id" .null).truthy = true := by simpa using named
    rw [if_pos given, hashed]
    rfl
  · simp [unhashable]

theorem handleHeartbeat_leaves :
    Leaves (handleHeartbeat platform env message) m
      (· = m.broker.memory.heartbeat env message) := by
  unfold Leaves handleHeartbeat Memory.heartbeat
  simp only [wp_ite, wp_bind, wp_hashable, wp_pure, wp_onRegistry]
  refine ⟨fun missing => ?_, fun named => ⟨fun worker hashed => ?_, fun unhashable => ?_⟩⟩
  · simp_all
  · have given : (message.get "worker_id" .null).truthy = true := by simpa using named
    rw [if_pos given, hashed]
    exact ⟨fun _ => rfl, fun _ => rfl⟩
  · simp [unhashable]

theorem Memory.named_eq_some {memory : Memory} {id : String} {task : Task}
    (isText : message.get "task_id" .null = .str id)
    (given : (message.get "task_id" .null).truthy = true)
    (found : memory.queueManager.inFlight.find? id = some task) :
    memory.named message = some id := by
  have nonempty : id ≠ "" := by simpa [isText, Json.truthy] using given
  simp [named, isText, nonempty, found]

theorem Memory.named_eq_none {memory : Memory}
    (absent : ∀ id, message.get "task_id" .null = .str id →
      memory.queueManager.inFlight.find? id = none) :
    memory.named message = none := by
  unfold named
  split
  · rename_i id isText
    simp [absent id isText]
  · rfl

theorem Memory.named_eq_none_of_falsy {memory : Memory}
    (missing : (message.get "task_id" .null).truthy = false) : memory.named message = none := by
  unfold named
  split
  · rename_i id isText
    have isEmpty : id = "" := by simpa [isText, Json.truthy] using missing
    simp [isEmpty]
  · rfl

/-- An ACK or NACK names a task by a string. -/
theorem Memory.named_spec {memory : Memory} {id : String}
    (isNamed : memory.named message = some id) :
    message.get "task_id" .null = .str id ∧
      ∃ task, memory.queueManager.inFlight.find? id = some task := by
  unfold named at isNamed
  split at isNamed
  · rename_i text isText
    split_ifs at isNamed with known
    cases isNamed
    exact ⟨isText, Option.isSome_iff_exists.mp known.2⟩
  · cases isNamed

/-- The memory changes before the store is written. -/
theorem handleAck_leaves :
    Leaves (handleAck platform env message) m (· = m.broker.memory.ack env message) := by
  unfold Leaves handleAck Memory.ack
  simp only [wp_ite, wp_bind, wp_pure]
  refine ⟨fun missing => ?_, fun given => wp_inFlightKey ?_ ?_⟩
  · rw [Memory.named_eq_none_of_falsy (by simpa using missing)]
  · intro id task isText found
    rw [Memory.named_eq_some isText (by simpa using given) found]
    simp only [wp_bind, wp_onQueueManager]
    refine wp_completeTask (fun passes => ?_) fun e fails => ?_
    · have completed : (completion env m.broker.memory.workerRegistry message id).1 = .ok () :=
        passes
      simp only [wp_hashable, wp_onMetrics]
      refine ⟨fun queue hashed => ?_, fun unhashable => ?_⟩
      · simp only [Memory.acknowledgedMetrics, ackChecks, completed, hashed]
        exact wp_stored (fun _ => walWrite_calls _ _) fun m' same => ⟨same, fun _ => same⟩
      · simp only [Memory.acknowledgedMetrics, ackChecks, completed, unhashable]
        rfl
    · have failed : (completion env m.broker.memory.workerRegistry message id).1 = .error e :=
        fails
      simp only [Memory.acknowledgedMetrics, ackChecks, failed]
      rfl
  · intro absent
    rw [Memory.named_eq_none absent]
    exact ⟨rfl, fun e => rfl⟩

theorem handleNack_leaves :
    Leaves (handleNack platform env message) m (· = m.broker.memory.nack env message) := by
  unfold Leaves handleNack Memory.nack
  simp only [wp_ite, wp_bind, wp_pure]
  refine ⟨fun missing => ?_, fun given => wp_inFlightKey ?_ ?_⟩
  · rw [Memory.named_eq_none_of_falsy (by simpa using missing)]
  · intro id task isText found
    rw [Memory.named_eq_some isText (by simpa using given) found]
    simp only [wp_bind, wp_onQueueManager, Broker.memory]
    cases nacked : m.broker.queueManager.negativeAcknowledge env.time id with
    | mk result qm =>
      cases result with
      | none => rfl
      | some pair =>
        obtain ⟨action, nackedTask⟩ := pair
        simp only [wp_bind, wp_onMetrics, wp_pure]
        refine wp_completeTask (fun passes => ?_) fun e fails => ?_
        · have completed : (completion env m.broker.workerRegistry message id).1 = .ok () :=
            passes
          simp only [completed]
          exact wp_stored (fun opened => persistNack_calls _ action nackedTask opened)
            fun m' same => ⟨same, fun _ => same⟩
        · have failed : (completion env m.broker.workerRegistry message id).1 = .error e :=
            fails
          simp only [failed]
  · intro absent
    rw [Memory.named_eq_none absent]
    exact ⟨rfl, fun e => rfl⟩

/-! ### The commands of administrators -/

/-- What inspection and the dead letter commands leave alone: the tasks in flight, the workers,
and the collector apart from its event windows. -/
structure Memory.Administers (memory memory' : Memory) : Prop where
  inFlight : memory'.queueManager.inFlight = memory.queueManager.inFlight
  workerRegistry : memory'.workerRegistry = memory.workerRegistry
  metrics : memory.metrics.Prunes memory'.metrics

theorem Memory.Administers.refl (memory : Memory) : memory.Administers memory :=
  ⟨rfl, rfl, _, _, rfl⟩

theorem Memory.Administers.trans {memory memory' memory'' : Memory}
    (first : memory.Administers memory') (second : memory'.Administers memory'') :
    memory.Administers memory'' where
  inFlight := second.inFlight.trans first.inFlight
  workerRegistry := second.workerRegistry.trans first.workerRegistry
  metrics := first.metrics.trans second.metrics

/-- A queue manager with the same tasks in flight. -/
theorem Memory.Administers.ofQueueManager {memory : Memory} {qm : QueueManager}
    (same : qm.inFlight = memory.queueManager.inFlight) :
    memory.Administers { memory with queueManager := qm } :=
  ⟨same, rfl, _, _, rfl⟩

/-- DLQ_LIST changes nothing in memory. -/
theorem handleDlqList_keeps :
    Leaves (handleDlqList platform message) m (· = m.broker.memory) := by
  unfold Leaves handleDlqList
  simp only [wp_bind, wp_get, wp_ite]
  refine ⟨fun opened => ?_, fun closed => ?_⟩
  · cases platform.queueFilter (message.get "queue" .null) with
    | error e => exact rfl
    | ok name => cases platform.limitOf (message.get "limit" (.int 50)) <;> exact rfl
  · cases peekLimit m.broker.queueManager.deadLetterQueue (message.get "limit" (.int 50)) <;>
      exact rfl

theorem handleDlqList_leaves :
    Leaves (handleDlqList platform message) m (m.broker.memory.Administers ·) :=
  handleDlqList_keeps.mono fun _ same => same ▸ .refl _

/-- What a DLQ_REPLAY can do to the memory: nothing, or it enqueues a copy of a row of the
table, or it retries a dead letter in memory. -/
inductive Replaying (platform : Platform) (env : Env) (m : Machine) (message : Message) :
    Memory → Prop where
  | nothing : Replaying platform env m message m.broker.memory
  | copied {row : DlqRow} {payload : Json} (opened : m.broker.walStore.isSome = true)
      (found : platform.namedRow m.disk (message.get "task_id" .null) = some row) :
      Replaying platform env m message
        { m.broker.memory with
          queueManager := m.broker.queueManager.enqueue env.uuid.text env.time
            (.str row.queueName) payload }
  | retried {id : String} {task : Task} (closed : m.broker.walStore.isSome = false)
      (named : message.get "task_id" .null = .str id)
      (found : m.broker.queueManager.deadLetterQueue.tasks.find? id = some task) :
      Replaying platform env m message
        { m.broker.memory with queueManager := (m.broker.queueManager.retry id).2 }

/-- With a store a replay reads the table, without one the memory. -/
theorem handleDlqReplay_replays :
    Leaves (handleDlqReplay platform env message) m (Replaying platform env m message) := by
  unfold Leaves handleDlqReplay
  simp only [wp_ite, wp_bind, wp_pure, wp_get]
  refine ⟨fun missing => .nothing, fun given => ⟨fun opened => ?_, fun closed => ?_⟩⟩
  · refine wp_replayDlqTask ?_ ?_ ?_
    · exact fun absent => ⟨.nothing, fun e => .nothing⟩
    · exact fun row found spent => .nothing
    · intro row found alive
      refine ⟨fun sliceable => ?_, fun rigid => .nothing⟩
      cases decodes : platform.loads row.payload with
      | none =>
        simp only [decodes, wp_raise]
        exact .nothing
      | some payload =>
        simp only [decodes, wp_bind, wp_onQueueManager, wp_pure]
        refine wp_calls (saveNewest_calls rfl rfl) fun m' unchanged => ?_
        rw [unchanged]
        exact ⟨.copied opened found, fun _ => .copied opened found⟩
  · refine wp_deadLetterKey ?_ ?_
    · intro id task named found
      simp only [wp_bind, wp_onQueueManager, wp_pure]
      exact .retried (by simpa using closed) named found
    · exact fun absent => ⟨.nothing, .nothing⟩

theorem handleDlqReplay_leaves :
    Leaves (handleDlqReplay platform env message) m (m.broker.memory.Administers ·) := by
  refine handleDlqReplay_replays.mono fun memory replays => ?_
  cases replays with
  | nothing => exact .refl _
  | @copied row payload opened found =>
    exact .ofQueueManager (QueueManager.append_inFlight m.broker.queueManager
      (env.task (.str row.queueName) payload))
  | retried closed named found => exact .ofQueueManager (QueueManager.retry_inFlight _ _)

/-- DLQ_PURGE changes the dead letters, and nothing else in memory: the table is purged instead
where there is a store. -/
theorem handleDlqPurge_keeps :
    Leaves (handleDlqPurge platform message) m (fun memory => ∃ deadLetterQueue, memory =
      { m.broker.memory with queueManager := { m.broker.queueManager with deadLetterQueue } }) := by
  unfold Leaves handleDlqPurge
  simp only [wp_ite, wp_bind, wp_pure, wp_get]
  refine ⟨fun opened => ?_, fun closed => ?_⟩
  · cases platform.queueFilter (message.get "queue" .null) with
    | error e => exact ⟨_, rfl⟩
    | ok name =>
      simp only [wp_bind, wp_walCommit, wp_pure]
      exact ⟨fun _ => ⟨_, rfl⟩, fun _ => ⟨_, rfl⟩⟩
  · simp only [wp_onQueueManager]
    exact ⟨_, rfl⟩

theorem handleDlqPurge_leaves :
    Leaves (handleDlqPurge platform message) m (m.broker.memory.Administers ·) := by
  refine handleDlqPurge_keeps.mono ?_
  rintro _ ⟨deadLetterQueue, rfl⟩
  exact .ofQueueManager rfl

theorem handleMetrics_leaves :
    Leaves (handleMetrics env) m (m.broker.memory.Administers ·) := by
  unfold Leaves handleMetrics shedderStats
  simp only [wp_bind, wp_get, wp_onMetrics, wp_onLoadShedder, wp_pure]
  exact ⟨rfl, rfl, MetricsCollector.snapshotQueues_prunes _ _ _⟩

/-- A start hands the queue manager its tasks, and touches nothing else. -/
theorem recover_leaves : Leaves (recover platform env) m (m.broker.memory.Administers ·) := by
  have loop (rows : List TaskRow) (m : Machine) :
      Leaves (recoverEach platform env rows) m (m.broker.memory.Administers ·) := by
    induction rows generalizing m with
    | nil => exact .refl _
    | cons row rest ih =>
      unfold Leaves recoverEach
      cases platform.loads row.payload with
      | none => exact .refl _
      | some payload =>
        have handed : m.broker.memory.Administers { m.broker.memory with
            queueManager := m.broker.queueManager.enqueueRecovered (.str row.queueName)
              row.taskId env.time payload row.attempts } :=
          .ofQueueManager (QueueManager.append_inFlight _ _)
        simp only [wp_bind, wp_onQueueManager, updateTaskStatus, Platform.optionalTextOf_null,
          Except.map, walWrite, wp_walCommit]
        exact ⟨fun _ => handed, fun _ => (ih _).mono fun _ => handed.trans⟩
  unfold Leaves recover
  simp only [wp_bind, wp_get, wp_whenPersistent]
  exact ⟨fun _ => loop _ m, fun _ => .refl _⟩

end Handlers

/-! ## Steps -/

/-- What holds of the memory, if there is a process. -/
def System.Remembers (I : Memory → Prop) : System → Prop
  | .running broker _ => I broker.memory
  | .stopped _ => True

/-- What an event's program leaves, and what a start's recovery leaves, holds after the step. -/
theorem step_remembers {config : Config} {platform : Platform} {system : System} {event : Event}
    {I : Memory → Prop}
    (performs : ∀ broker disk, system = .running broker disk →
      Leaves (perform platform event.env event.action)
        { broker, disk, crashIn := event.crashIn } I)
    (starts : ∀ disk, system = .stopped disk → event.action = .start →
      Leaves (recover platform event.env)
        { broker := Broker.new config event.env, disk, crashIn := event.crashIn } I) :
    (step config platform system event).2.Remembers I := by
  cases system with
  | running broker disk =>
    have leaves := performs broker disk rfl
    unfold step
    simp only
    cases ran : perform platform event.env event.action
        { broker, disk, crashIn := event.crashIn } with
    | ok outcome m =>
      have holds := wp_of_ok ran leaves
      simp only [conclude]
      split_ifs
      · exact holds
      · trivial
    | error stop m =>
      have holds := wp_of_error ran leaves
      cases stop with
      | crashed => trivial
      | raised e =>
        simp only [conclude]
        split_ifs
        · exact holds
        · trivial
  | stopped disk =>
    unfold step
    simp only
    split
    · rename_i isStart
      have leaves := starts disk rfl isStart
      cases ran : recover platform event.env
          { broker := Broker.new config event.env, disk, crashIn := event.crashIn } with
      | ok value m =>
        have holds := wp_of_ok ran leaves
        simp only [concludeStart]
        split_ifs
        · exact holds
        · trivial
      | error stop m => cases stop <;> trivial
    · trivial

end DistroSync
