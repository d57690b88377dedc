import DistroSync.QueueView
import DistroSync.Scenario

/-!
# Isolation of the queues in load shedding

Two runs of one broker process that differ only in commands about tasks of other queues.
The commands that the runs have in common keep the brokers alike to the queue `b`, the
others leave each of them alike to itself, and the verdict on a PRODUCE to `b` is the same
for brokers that are alike to it.

The condition is `Unmixed`: the latency of a task goes to every queue that its worker
declares, so a worker registered for several queues carries the slowness of one to the
others.  Dead letters may be replayed in either run, as long as they are not those of `b`.
-/

namespace DistroSync

open Keyed Py Exec

/-! ## What concerns a queue -/

/-- A PRODUCE to the queue `b`. -/
def Event.producesTo (b : Key) (event : Event) : Bool :=
  match event.action with
  | .command message =>
    commandOf message = some .produce && (message.get "queue" .null).key? = some b
  | _ => false

/-- The ids that the PRODUCE commands to `b` draw. -/
def idsOf (b : Key) (events : List Event) : List String :=
  (events.filter (Event.producesTo b)).map Event.id

/-- The `task_id` of an ACK or NACK is one of these. -/
def Message.names (message : Message) (ids : List String) : Bool :=
  match message.get "task_id" .null with
  | .str id => id ∈ ids
  | _ => false

/-- The event replays dead letters. -/
def Event.replays (event : Event) : Bool :=
  match event.action with
  | .command message => commandOf message = some .dlqReplay
  | .replayAll => true
  | _ => false

/-- A command about tasks of other queues: PRODUCE and CONSUME by the queue that they name,
ACK and NACK by the task id, given the ids of the tasks of `b`, and every replay, which may not
be of a task of `b`. -/
def Event.elsewhere (b : Key) (ids : List String) (event : Event) : Bool :=
  match event.action with
  | .command message =>
    match commandOf message with
    | some .produce => (message.get "queue" .null).key? ≠ some b
    | some .consume => (message.get "queue" .null).key? ≠ some b
    | some .ack => !Message.names message ids
    | some .nack => !Message.names message ids
    | some .dlqReplay => true
    | _ => false
  | .replayAll => true
  | _ => false

/-- An event of the runs that are compared: the process lives on, workers consume by queue
name, and an eviction takes the tasks of `b` in an order of their own. -/
def Event.Ordinary (ids : List String) (event : Event) : Prop :=
  event.crashIn = none ∧
    match event.action with
    | .command message =>
      commandOf message = some .consume →
        (message.get "queue" .null).scalar? ≠ some (.str "*")
    | .evict order => order.Consistent ids
    | .crash => False
    | _ => True

/-- The completion of a task of another queue does not touch the window of `b`. -/
def Memory.Unmixed (memory : Memory) (b : Key) (ids : List String) (message : Message) : Prop :=
  ∀ id ∈ memory.named message, id ∉ ids →
    ∀ worker ∈ (message.get "worker_id" (.str "")).scalar?,
      memory.workerRegistry.charges b worker.key id = false

/-- The dead letter that a DLQ_REPLAY names, in the table or in memory, is none of `b`. -/
def ReplaysElsewhere (platform : Platform) (b : Key) (ids : List String) (broker : Broker)
    (disk : Database) (message : Message) : Prop :=
  if broker.walStore.isSome then
    ∀ row ∈ platform.namedRow disk (message.get "task_id" .null),
      (Scalar.str row.queueName).key ≠ b
  else
    ∀ task ∈ broker.queueManager.deadLetterQueue.tasks.rows,
      (message.get "task_id" .null).scalar? = some (.str task.taskId) → task.Foreign b ids

/-- The step condition: an ACK or NACK of a task of another queue does not name a worker
that declares `b`, and no dead letter of `b` is replayed. -/
def Unmixed (platform : Platform) (b : Key) (ids : List String) : System → Event → Prop
  | .running broker disk, { action := .command message, .. } =>
    (commandOf message = some .ack ∨ commandOf message = some .nack →
      broker.memory.Unmixed b ids message) ∧
    (commandOf message = some .dlqReplay →
      ReplaysElsewhere platform b ids broker disk message)
  | .running broker _, { action := .replayAll, .. } =>
    ∀ task ∈ broker.queueManager.deadLetterQueue.peek 1000, task.Foreign b ids
  | _, _ => True

instance (memory : Memory) (b : Key) (ids : List String) (message : Message) :
    Decidable (memory.Unmixed b ids message) :=
  inferInstanceAs (Decidable (∀ id ∈ memory.named message, id ∉ ids →
    ∀ worker ∈ (message.get "worker_id" (.str "")).scalar?,
      memory.workerRegistry.charges b worker.key id = false))

instance (platform : Platform) (b : Key) (ids : List String) (broker : Broker) (disk : Database)
    (message : Message) : Decidable (ReplaysElsewhere platform b ids broker disk message) :=
  inferInstanceAs (Decidable (if broker.walStore.isSome then _ else _))

instance (platform : Platform) (b : Key) (ids : List String) (system : System) (event : Event) :
    Decidable (Unmixed platform b ids system event) :=
  match system, event with
  | .running _ _, { action := .command _, .. } => inferInstanceAs (Decidable (_ ∧ _))
  | .running broker _, { action := .replayAll, .. } =>
    inferInstanceAs (Decidable (∀ task ∈ broker.queueManager.deadLetterQueue.peek 1000,
      task.Foreign b ids))
  | .running _ _, { action := .evict _, .. } => inferInstanceAs (Decidable True)
  | .running _ _, { action := .reset, .. } => inferInstanceAs (Decidable True)
  | .running _ _, { action := .crashWorker _, .. } => inferInstanceAs (Decidable True)
  | .running _ _, { action := .crash, .. } => inferInstanceAs (Decidable True)
  | .running _ _, { action := .start, .. } => inferInstanceAs (Decidable True)
  | .stopped _, _ => inferInstanceAs (Decidable True)

/-! ## The memory after an event -/

namespace Memory

variable (env : Env) (memory : Memory)

/-- STATS and METRICS refill every bucket. -/
def refilled : Memory :=
  { memory with
    loadShedder := memory.loadShedder.refillAll memory.queueManager.queueDepth
      memory.workerRegistry.averageLatencyMs fun _ => env.monotonic }

/-- A pass of the eviction loop. -/
def evicted (order : SetOrder) : Memory :=
  let rest := (evictDeadWorkers order env.time memory.workerRegistry memory.queueManager).2
  { memory with workerRegistry := rest.1, queueManager := rest.2 }

/-- POST /admin/crash-worker. -/
def crashedWorker (pick : Nat) : Memory :=
  match memory.workerRegistry.getActiveWorkers[pick]? with
  | none => memory
  | some info =>
    { memory with
      workerRegistry :=
        { memory.workerRegistry with
          workers := memory.workerRegistry.workers.put
            { info with lastHeartbeat := env.time - 10 } } }

/-- The memory after a command, up to the metrics and the dead letters. -/
def handled (message : Message) : Command → Memory
  | .produce => memory.produce env message
  | .consume => memory.consume env message
  | .register => memory.register env message
  | .heartbeat => memory.heartbeat env message
  | .ack => memory.ack env message
  | .nack => memory.nack env message
  | .stats => memory.refilled env
  | .metrics => memory.refilled env
  | _ => memory

/-- The memory after an ordinary event that replays nothing, up to the metrics and the dead
letters. -/
def next : Action → Memory
  | .command message =>
    match commandOf message with
    | none => memory
    | some command => memory.handled env message command
  | .evict order => memory.evicted env order
  | .reset => { memory with queueManager := memory.queueManager.reset }
  | .crashWorker pick => memory.crashedWorker env pick
  | _ => memory

/-- Nothing but the metrics and the dead letters differs. -/
structure Same (memory other : Memory) : Prop where
  queues : memory.queueManager.queues = other.queueManager.queues
  inFlight : memory.queueManager.inFlight = other.queueManager.inFlight
  maxRetries : memory.queueManager.maxRetries = other.queueManager.maxRetries
  workerRegistry : memory.workerRegistry = other.workerRegistry
  loadShedder : memory.loadShedder = other.loadShedder

theorem Same.refl (memory : Memory) : memory.Same memory := ⟨rfl, rfl, rfl, rfl, rfl⟩

end Memory

section Perform

variable {platform : Platform} {env : Env} {m : Machine} {message : Message}

/-- **The memory after an event is a function of the memory before it**, up to metrics and dead
letters, which no verdict reads. -/
theorem perform_next {event : Event} {ids : List String} (ordinary : event.Ordinary ids)
    (keeps : event.replays = false) :
    Leaves (perform platform event.env event.action) m
      (·.Same (m.broker.memory.next event.env event.action)) := by
  have exactly {α : Type} {program : BrokerM α} {memory : Memory}
      (leaves : Leaves program m (· = memory)) : Leaves program m (·.Same memory) :=
    leaves.mono fun _ same => same ▸ .refl _
  obtain ⟨action, env, crashIn⟩ := event
  obtain ⟨-, allowed⟩ := ordinary
  cases action with
  | command message =>
    unfold Leaves perform Memory.next
    simp only [wp_bind, wp_pure]
    refine wp_dispatch (fun unknown => ?_) fun command named => ?_
    · simp only [unknown]
      exact ⟨fun _ => .refl _, fun _ => .refl _⟩
    · simp only [named]
      cases command with
      | produce => exact exactly handleProduce_leaves
      | consume => exact exactly handleConsume_leaves
      | register => exact exactly handleRegister_leaves
      | heartbeat => exact exactly handleHeartbeat_leaves
      | ack => exact exactly handleAck_leaves
      | nack => exact exactly handleNack_leaves
      | dlqList => exact exactly handleDlqList_keeps
      | dlqReplay => simp [Event.replays, named] at keeps
      | dlqPurge =>
        have purged : Leaves (handleDlqPurge platform message) m (·.Same m.broker.memory) := by
          refine handleDlqPurge_keeps.mono ?_
          rintro _ ⟨deadLetterQueue, rfl⟩
          exact ⟨rfl, rfl, rfl, rfl, rfl⟩
        exact purged
      | stats =>
        unfold handle handleStats shedderStats
        simp only [wp_bind, wp_get, wp_onLoadShedder, wp_pure]
        exact .refl _
      | metrics =>
        unfold handle handleMetrics shedderStats
        simp only [wp_bind, wp_get, wp_onMetrics, wp_onLoadShedder, wp_pure]
        exact ⟨rfl, rfl, rfl, rfl, rfl⟩
  | evict order =>
    unfold Leaves perform evictionPass Memory.next Memory.evicted
    simp only [wp_bind, wp_get, wp_set, wp_pure, Broker.memory]
    cases evictDeadWorkers order env.time m.broker.workerRegistry m.broker.queueManager with
    | mk result rest => cases result <;> exact .refl _
  | reset =>
    unfold Leaves perform resetHandler Memory.next
    simp only [wp_bind, wp_onQueueManager, wp_onMetrics, wp_pure, wp_whenPersistent,
      wp_walCommit]
    exact ⟨fun _ => ⟨fun _ => ⟨rfl, rfl, rfl, rfl, rfl⟩, fun _ => ⟨rfl, rfl, rfl, rfl, rfl⟩⟩,
      fun _ => ⟨rfl, rfl, rfl, rfl, rfl⟩⟩
  | replayAll => cases keeps
  | crashWorker pick =>
    unfold Leaves perform crashWorkerHandler Memory.next Memory.crashedWorker
    simp only [wp_bind, wp_onRegistry, wp_pure, Broker.memory]
    cases m.broker.workerRegistry.getActiveWorkers[pick]? <;> exact .refl _
  | crash => exact allowed.elim
  | start => exact .refl _

end Perform

/-! ## Memories that are alike to a queue -/

namespace Memory

variable {b : Key} {ids : List String} {memory other : Memory} {env : Env} {message : Message}

/-- Two memories agree on what concerns `b`. -/
structure Alike (b : Key) (ids : List String) (memory other : Memory) : Prop where
  queueManager : memory.queueManager.Alike b ids other.queueManager
  workerRegistry : memory.workerRegistry.Alike b ids other.workerRegistry
  loadShedder : memory.loadShedder.Alike b other.loadShedder

theorem Alike.refl (memory : Memory) : Alike b ids memory memory :=
  ⟨.refl _, .refl _, .refl _⟩

theorem Alike.symm (alike : Alike b ids memory other) : Alike b ids other memory :=
  ⟨alike.queueManager.symm, alike.workerRegistry.symm, alike.loadShedder.symm⟩

theorem Alike.trans {third : Memory} (alike : Alike b ids memory other)
    (further : Alike b ids other third) : Alike b ids memory third :=
  ⟨alike.queueManager.trans further.queueManager, alike.workerRegistry.trans further.workerRegistry,
    alike.loadShedder.trans further.loadShedder⟩

theorem Same.alike (same : memory.Same other) : Alike b ids memory other := by
  refine ⟨⟨?_, fun id _ => by rw [same.inFlight], same.maxRetries⟩, ?_, ?_⟩
  · unfold QueueManager.deque
    rw [same.queues]
  · rw [same.workerRegistry]
    exact .refl _
  · rw [same.loadShedder]
    exact .refl _

theorem Same.apart (same : memory.Same other) (apart : other.queueManager.Apart b ids) :
    memory.queueManager.Apart b ids := by
  refine ⟨fun name task inside => ?_, fun task flying => ?_⟩
  · unfold QueueManager.deque at inside
    rw [same.queues] at inside
    exact apart.pending name task inside
  · rw [same.inFlight] at flying
    exact apart.inFlight task flying

/-! ### PRODUCE -/

/-- The verdict reads the bucket, the depth and the latencies of `b`. -/
theorem Alike.verdict (alike : Alike b ids memory other) (env : Env) :
    (memory.verdict env b).1 = (other.verdict env b).1 ∧
      (memory.verdict env b).2.Alike b (other.verdict env b).2 := by
  unfold Memory.verdict QueueManager.queueDepth
  rw [alike.queueManager.deque, alike.workerRegistry.averageLatencyMs]
  exact alike.loadShedder.checkAndConsume _ _ _

theorem Alike.produce (alike : Alike b ids memory other)
    (own : (message.get "queue" .null).key? = some b) :
    Alike b ids (memory.produce env message) (other.produce env message) := by
  unfold Memory.produce
  split_ifs
  · cases hashed : (message.get "queue" .null).scalar? with
    | none => exact alike
    | some queue =>
      have isQueue : queue.key = b := by simpa [Json.key?, hashed] using own
      subst isQueue
      obtain ⟨verdict, shedders⟩ := alike.verdict env
      simp only [verdict]
      split_ifs
      · exact ⟨alike.queueManager.enqueue _ _ _ _, alike.workerRegistry, shedders⟩
      · exact ⟨alike.queueManager, alike.workerRegistry, shedders⟩
  · exact alike

/-- A PRODUCE to another queue takes a token of that queue. -/
theorem produce_alike (memory : Memory) (away : (message.get "queue" .null).key? ≠ some b) :
    Alike b ids (memory.produce env message) memory := by
  unfold Memory.produce
  split_ifs
  · cases hashed : (message.get "queue" .null).scalar? with
    | none => exact .refl memory
    | some queue =>
      have elsewhere : queue.key ≠ b := by simpa [Json.key?, hashed] using away
      have shedders := memory.loadShedder.checkAndConsume_alike elsewhere
        (memory.queueManager.queueDepth queue.key)
        (memory.workerRegistry.averageLatencyMs queue.key) env.monotonic
      simp only
      split_ifs
      · exact ⟨QueueManager.enqueue_alike _ elsewhere _ _ _, .refl _, shedders⟩
      · exact ⟨.refl _, .refl _, shedders⟩
  · exact .refl memory

theorem produce_apart (apart : memory.queueManager.Apart b ids)
    (own : env.uuid.text ∈ ids ↔ (message.get "queue" .null).key? = some b) :
    (memory.produce env message).queueManager.Apart b ids := by
  unfold Memory.produce
  split_ifs
  · cases hashed : (message.get "queue" .null).scalar? with
    | none => exact apart
    | some queue =>
      have fits : env.uuid.text ∈ ids ↔ queue.key = b := by
        simpa [Json.key?, hashed] using own
      simp only
      split_ifs
      · exact apart.enqueue fits _ _
      · exact apart
  · exact apart

/-! ### CONSUME -/

section Consume

variable (byName : (message.get "queue" .null).scalar? ≠ some (.str "*"))

include byName

/-- An own CONSUME gets the same task on both sides. -/
theorem Alike.consume (alike : Alike b ids memory other)
    (own : (message.get "queue" .null).key? = some b) :
    Alike b ids (memory.consume env message) (other.consume env message) := by
  unfold Memory.consume
  split_ifs
  · cases hashed : (message.get "queue" .null).scalar? with
    | none => exact alike
    | some queue =>
      have isQueue : queue.key = b := by simpa [Json.key?, hashed] using own
      have named : queue ≠ .str "*" := fun wild => byName (wild ▸ hashed)
      subst isQueue
      have created := (QueueManager.ensureQueue_alike memory.queueManager queue.key).trans
        (alike.queueManager.trans
          (QueueManager.ensureQueue_alike other.queueManager queue.key).symm)
      obtain ⟨task, tasks⟩ := created.popLeft (message.get "worker_id" .null)
      simp only [QueueManager.dequeue, if_neg named]
      generalize (memory.queueManager.ensureQueue queue.key).popLeft queue.key
        (message.get "worker_id" .null) = left at task tasks
      generalize (other.queueManager.ensureQueue queue.key).popLeft queue.key
        (message.get "worker_id" .null) = right at task tasks
      obtain ⟨taken, qm⟩ := left
      obtain ⟨taken', qm'⟩ := right
      cases task
      cases taken with
      | none => exact ⟨tasks, alike.workerRegistry, alike.loadShedder⟩
      | some task =>
        cases (message.get "worker_id" .null).scalar? with
        | none => exact ⟨tasks, alike.workerRegistry, alike.loadShedder⟩
        | some worker =>
          exact ⟨tasks, alike.workerRegistry.assignTask _ _ _, alike.loadShedder⟩
  · exact alike

/-- A CONSUME of another queue takes none of the tasks of `b`. -/
theorem consume_alike (apart : memory.queueManager.Apart b ids)
    (away : (message.get "queue" .null).key? ≠ some b) :
    Alike b ids (memory.consume env message) memory := by
  unfold Memory.consume
  split_ifs
  · cases hashed : (message.get "queue" .null).scalar? with
    | none => exact .refl memory
    | some queue =>
      have elsewhere : queue.key ≠ b := by simpa [Json.key?, hashed] using away
      have named : queue ≠ .str "*" := fun wild => byName (wild ▸ hashed)
      obtain ⟨tasks, foreign⟩ := (apart.ensureQueue queue.key).popLeft_alike elsewhere
        (message.get "worker_id" .null)
      replace tasks := tasks.trans (QueueManager.ensureQueue_alike memory.queueManager queue.key)
      simp only [QueueManager.dequeue, if_neg named]
      generalize (memory.queueManager.ensureQueue queue.key).popLeft queue.key
        (message.get "worker_id" .null) = popped at tasks foreign
      obtain ⟨taken, qm⟩ := popped
      cases taken with
      | none => exact ⟨tasks, .refl _, .refl _⟩
      | some task =>
        cases (message.get "worker_id" .null).scalar? with
        | none => exact ⟨tasks, .refl _, .refl _⟩
        | some worker =>
          exact ⟨tasks,
            WorkerRegistry.assignTask_alike _ _ (foreign task rfl) _, .refl _⟩
  · exact .refl memory

theorem consume_apart (apart : memory.queueManager.Apart b ids) :
    (memory.consume env message).queueManager.Apart b ids := by
  unfold Memory.consume
  split_ifs
  · cases hashed : (message.get "queue" .null).scalar? with
    | none => exact apart
    | some queue =>
      have named : queue ≠ .str "*" := fun wild => byName (wild ▸ hashed)
      have popped := (apart.ensureQueue queue.key).popLeft queue.key
        (message.get "worker_id" .null)
      simp only [QueueManager.dequeue, if_neg named]
      generalize (memory.queueManager.ensureQueue queue.key).popLeft queue.key
        (message.get "worker_id" .null) = result at popped
      obtain ⟨taken, qm⟩ := result
      cases taken with
      | none => exact popped
      | some task => cases (message.get "worker_id" .null).scalar? <;> exact popped
  · exact apart

end Consume

/-! ### ACK and NACK -/

theorem Alike.named (alike : Alike b ids memory other) (own : Message.names message ids = true) :
    memory.named message = other.named message ∧ ∀ id ∈ memory.named message, id ∈ ids := by
  unfold Message.names at own
  unfold Memory.named
  cases given : message.get "task_id" .null with
  | str id =>
    rw [given] at own
    have isOwn : id ∈ ids := of_decide_eq_true own
    simp only [alike.queueManager.inFlight id isOwn, true_and]
    intro other isNamed
    split_ifs at isNamed
    · cases isNamed
      exact isOwn
    · cases isNamed
  | _ =>
    rw [given] at own
    cases own

theorem named_foreign {id : String} (away : Message.names message ids = false)
    (isNamed : memory.named message = some id) : id ∉ ids := by
  have isText := (named_spec isNamed).1
  simpa [Message.names, isText] using away

theorem Alike.completion {id : String} (alike : Alike b ids memory other) (own : id ∈ ids) :
    (completion env memory.workerRegistry message id).2.Alike b ids
      (completion env other.workerRegistry message id).2 := by
  unfold DistroSync.completion
  cases (message.get "worker_id" (.str "")).scalar? with
  | none => exact alike.workerRegistry
  | some worker => exact alike.workerRegistry.completeTask _ own _

/-- The latency of another queue's task does not reach the window of `b`. -/
theorem Unmixed.completion {id : String} (unmixed : memory.Unmixed b ids message)
    (isNamed : memory.named message = some id) (foreign : id ∉ ids) :
    (completion env memory.workerRegistry message id).2.Alike b ids memory.workerRegistry := by
  unfold DistroSync.completion
  cases hashed : (message.get "worker_id" (.str "")).scalar? with
  | none => exact .refl _
  | some worker =>
    exact WorkerRegistry.completeTask_alike _ foreign
      (unmixed id isNamed foreign worker hashed)

theorem Alike.ack (alike : Alike b ids memory other) (own : Message.names message ids = true) :
    Alike b ids (memory.ack env message) (other.ack env message) := by
  obtain ⟨same, mine⟩ := alike.named own
  unfold Memory.ack
  rw [← same]
  cases isNamed : memory.named message with
  | none => exact alike
  | some id =>
    have isOwn := mine id isNamed
    exact ⟨alike.queueManager.acknowledge isOwn, alike.completion isOwn, alike.loadShedder⟩

theorem Unmixed.ack_alike (unmixed : memory.Unmixed b ids message)
    (away : Message.names message ids = false) : Alike b ids (memory.ack env message) memory := by
  unfold Memory.ack
  cases isNamed : memory.named message with
  | none => exact .refl memory
  | some id =>
    have foreign := named_foreign away isNamed
    exact ⟨QueueManager.acknowledge_alike _ foreign, unmixed.completion isNamed foreign, .refl _⟩

theorem ack_apart (apart : memory.queueManager.Apart b ids) :
    (memory.ack env message).queueManager.Apart b ids := by
  unfold Memory.ack
  cases memory.named message with
  | none => exact apart
  | some id => exact apart.acknowledge id

theorem Alike.nack (alike : Alike b ids memory other) (own : Message.names message ids = true) :
    Alike b ids (memory.nack env message) (other.nack env message) := by
  obtain ⟨same, mine⟩ := alike.named own
  unfold Memory.nack
  rw [← same]
  cases isNamed : memory.named message with
  | none => exact alike
  | some id =>
    have isOwn := mine id isNamed
    obtain ⟨result, tasks⟩ := alike.queueManager.negativeAcknowledge isOwn env.time
    simp only
    generalize memory.queueManager.negativeAcknowledge env.time id = left at result tasks
    generalize other.queueManager.negativeAcknowledge env.time id = right at result tasks
    obtain ⟨result, qm⟩ := left
    obtain ⟨result', qm'⟩ := right
    cases result
    cases result with
    | none => exact ⟨tasks, alike.workerRegistry, alike.loadShedder⟩
    | some pair => exact ⟨tasks, alike.completion isOwn, alike.loadShedder⟩

theorem Unmixed.nack_alike (unmixed : memory.Unmixed b ids message)
    (apart : memory.queueManager.Apart b ids) (away : Message.names message ids = false) :
    Alike b ids (memory.nack env message) memory := by
  unfold Memory.nack
  cases isNamed : memory.named message with
  | none => exact .refl memory
  | some id =>
    have foreign := named_foreign away isNamed
    have tasks := apart.negativeAcknowledge_alike foreign env.time
    simp only
    generalize memory.queueManager.negativeAcknowledge env.time id = nacked at tasks
    obtain ⟨result, qm⟩ := nacked
    cases result with
    | none => exact ⟨tasks, .refl _, .refl _⟩
    | some pair => exact ⟨tasks, unmixed.completion isNamed foreign, .refl _⟩

theorem nack_apart (apart : memory.queueManager.Apart b ids) :
    (memory.nack env message).queueManager.Apart b ids := by
  unfold Memory.nack
  cases memory.named message with
  | none => exact apart
  | some id =>
    have nacked := apart.negativeAcknowledge env.time id
    simp only
    generalize memory.queueManager.negativeAcknowledge env.time id = result at nacked
    obtain ⟨result, qm⟩ := result
    cases result <;> exact nacked

/-! ### The other events -/

theorem Alike.register (alike : Alike b ids memory other) :
    Alike b ids (memory.register env message) (other.register env message) := by
  unfold Memory.register
  split_ifs
  · cases (message.get "worker_id" .null).scalar? with
    | none => exact alike
    | some worker =>
      exact ⟨alike.queueManager, alike.workerRegistry.register _ _ _, alike.loadShedder⟩
  · exact alike

theorem Alike.heartbeat (alike : Alike b ids memory other) :
    Alike b ids (memory.heartbeat env message) (other.heartbeat env message) := by
  unfold Memory.heartbeat
  split_ifs
  · cases (message.get "worker_id" .null).scalar? with
    | none => exact alike
    | some worker =>
      exact ⟨alike.queueManager, alike.workerRegistry.recordHeartbeat _ _, alike.loadShedder⟩
  · exact alike

theorem Alike.refilled (alike : Alike b ids memory other) (env : Env) :
    Alike b ids (memory.refilled env) (other.refilled env) := by
  have deep : memory.queueManager.queueDepth b = other.queueManager.queueDepth b :=
    congrArg List.length alike.queueManager.deque
  have slow := alike.workerRegistry.averageLatencyMs
  have shedders := @LoadShedder.Alike.refillAll b _ _ memory.queueManager.queueDepth
    other.queueManager.queueDepth memory.workerRegistry.averageLatencyMs
    other.workerRegistry.averageLatencyMs (fun _ => env.monotonic) alike.loadShedder deep slow
  exact ⟨alike.queueManager, alike.workerRegistry, shedders⟩

/-- An eviction puts the tasks of `b` back in the same order. -/
theorem Alike.evicted {order : SetOrder} (consistent : order.Consistent ids)
    (alike : Alike b ids memory other) (left : memory.queueManager.Apart b ids)
    (right : other.queueManager.Apart b ids) (env : Env) :
    Alike b ids (memory.evicted env order) (other.evicted env order) ∧
      (memory.evicted env order).queueManager.Apart b ids := by
  have passes := evictEach_alike consistent
    (alike.workerRegistry.deadWorkers env.time) (alike.workerRegistry.dropDead env.time)
    alike.queueManager left right
  unfold Memory.evicted evictDeadWorkers
  exact ⟨⟨passes.2.1, passes.1, alike.loadShedder⟩, passes.2.2.1⟩

theorem Alike.crashedWorker (alike : Alike b ids memory other) (env : Env) (pick : Nat) :
    Alike b ids (memory.crashedWorker env pick) (other.crashedWorker env pick) := by
  unfold Memory.crashedWorker
  have picked := alike.workerRegistry.getActiveWorkers pick
  generalize memory.workerRegistry.getActiveWorkers[pick]? = left,
    other.workerRegistry.getActiveWorkers[pick]? = right at picked
  cases picked with
  | none => exact alike
  | some same =>
    refine ⟨alike.queueManager, alike.workerRegistry.put ?_, alike.loadShedder⟩
    exact ⟨same.workerId, same.queues, rfl, same.status, same.startTimes, same.tracked⟩

theorem crashedWorker_queueManager (memory : Memory) (env : Env) (pick : Nat) :
    (memory.crashedWorker env pick).queueManager = memory.queueManager := by
  unfold Memory.crashedWorker
  cases memory.workerRegistry.getActiveWorkers[pick]? <;> rfl

theorem register_queueManager (memory : Memory) :
    (memory.register env message).queueManager = memory.queueManager := by
  unfold Memory.register
  split_ifs
  · cases (message.get "worker_id" .null).scalar? <;> rfl
  · rfl

theorem heartbeat_queueManager (memory : Memory) :
    (memory.heartbeat env message).queueManager = memory.queueManager := by
  unfold Memory.heartbeat
  split_ifs
  · cases (message.get "worker_id" .null).scalar? <;> rfl
  · rfl

/-! ### Events -/

section Events

variable {event : Event} (ordinary : event.Ordinary ids)

include ordinary

/-- An event that concerns `b` keeps two memories alike to it. -/
theorem Alike.next (alike : Alike b ids memory other) (left : memory.queueManager.Apart b ids)
    (right : other.queueManager.Apart b ids) (concerns : event.elsewhere b ids = false) :
    Alike b ids (memory.next event.env event.action) (other.next event.env event.action) := by
  obtain ⟨action, env, crashIn⟩ := event
  obtain ⟨-, allowed⟩ := ordinary
  cases action with
  | command message =>
    simp only [Event.elsewhere] at concerns
    cases named : commandOf message with
    | none =>
      simp only [Memory.next, named]
      exact alike
    | some command =>
      simp only [named] at concerns
      simp only [Memory.next, named]
      cases command with
      | produce => exact alike.produce (by simpa using concerns)
      | consume => exact alike.consume (allowed named) (by simpa using concerns)
      | register => exact alike.register
      | heartbeat => exact alike.heartbeat
      | ack => exact alike.ack (by simpa using concerns)
      | nack => exact alike.nack (by simpa using concerns)
      | stats => exact alike.refilled env
      | metrics => exact alike.refilled env
      | dlqList => exact alike
      | dlqReplay => cases concerns
      | dlqPurge => exact alike
  | evict order => exact (alike.evicted allowed left right env).1
  | reset =>
    exact ⟨⟨rfl, fun _ _ => rfl, alike.queueManager.maxRetries⟩, alike.workerRegistry,
      alike.loadShedder⟩
  | crashWorker pick => exact alike.crashedWorker env pick
  | replayAll => cases concerns
  | crash => exact alike
  | start => exact alike

/-- An event elsewhere leaves a memory alike to itself, unless a worker that declares `b`
completes a task of another queue. -/
theorem next_alike (keeps : event.replays = false) (apart : memory.queueManager.Apart b ids)
    (unmixed : ∀ message, event.action = .command message →
      commandOf message = some .ack ∨ commandOf message = some .nack →
      memory.Unmixed b ids message)
    (away : event.elsewhere b ids = true) :
    Alike b ids (memory.next event.env event.action) memory := by
  obtain ⟨action, env, crashIn⟩ := event
  obtain ⟨-, allowed⟩ := ordinary
  cases action with
  | command message =>
    simp only [Event.elsewhere] at away
    cases named : commandOf message with
    | none =>
      simp only [Memory.next, named]
      exact .refl memory
    | some command =>
      simp only [named] at away
      simp only [Memory.next, named]
      cases command with
      | produce => exact produce_alike memory (by simpa using away)
      | consume => exact consume_alike (allowed named) apart (by simpa using away)
      | ack => exact (unmixed message rfl (.inl named)).ack_alike (by simpa using away)
      | nack => exact (unmixed message rfl (.inr named)).nack_alike apart (by simpa using away)
      | dlqReplay => simp [Event.replays, named] at keeps
      | _ => cases away
  | replayAll => cases keeps
  | _ => cases away

/-- The tasks of `b` stay those with its ids. -/
theorem next_apart (apart : memory.queueManager.Apart b ids)
    (own : event.id ∈ ids ↔ event.producesTo b = true) :
    (memory.next event.env event.action).queueManager.Apart b ids := by
  obtain ⟨action, env, crashIn⟩ := event
  obtain ⟨-, allowed⟩ := ordinary
  cases action with
  | command message =>
    cases named : commandOf message with
    | none =>
      simp only [Memory.next, named]
      exact apart
    | some command =>
      simp only [Memory.next, named]
      cases command with
      | produce =>
        exact produce_apart apart (by simpa [Event.producesTo, Event.id, named] using own)
      | consume => exact consume_apart (allowed named) apart
      | register => exact (register_queueManager memory).symm ▸ apart
      | heartbeat => exact (heartbeat_queueManager memory).symm ▸ apart
      | ack => exact ack_apart apart
      | nack => exact nack_apart apart
      | stats => exact apart
      | metrics => exact apart
      | dlqList => exact apart
      | dlqReplay => exact apart
      | dlqPurge => exact apart
  | evict order => exact ((Alike.refl memory).evicted allowed apart apart env).2
  | reset =>
    refine ⟨fun _ _ inside => absurd inside List.not_mem_nil, fun _ inside => ?_⟩
    cases inside
  | crashWorker pick => exact (crashedWorker_queueManager memory env pick).symm ▸ apart
  | replayAll => exact apart
  | crash => exact apart
  | start => exact apart

end Events

end Memory

/-! ## Verdicts -/

/-- The retry hint of a PRODUCE that was rejected; none if it was not. -/
def Outcome.retryAfter? : Outcome → Option Rat
  | .answered (.rateLimited retryAfterSeconds _) => some retryAfterSeconds
  | _ => none

/-- The retry hint that a PRODUCE gets in this state. -/
def Memory.retryAfter? (env : Env) (message : Message) (memory : Memory) : Option Rat :=
  if (message.get "queue" .null).truthy ∧ (message.get "task" .null).isNone = false then
    match (message.get "queue" .null).scalar? with
    | none => none
    | some queue =>
      if (memory.verdict env queue.key).1.1 then none
      else some (memory.verdict env queue.key).1.2
  else none

theorem Memory.Alike.retryAfter? {b : Key} {ids : List String} {memory other : Memory}
    {message : Message} (alike : memory.Alike b ids other) (env : Env)
    (own : (message.get "queue" .null).key? = some b) :
    memory.retryAfter? env message = other.retryAfter? env message := by
  unfold Memory.retryAfter?
  cases hashed : (message.get "queue" .null).scalar? with
  | none => rfl
  | some queue =>
    have isQueue : queue.key = b := by simpa [Json.key?, hashed] using own
    subst isQueue
    simp only [(alike.verdict env).1]

/-- What a PRODUCE is told depends on the memory alone, not on the disk. -/
theorem handleProduce_retryAfter {platform : Platform} {env : Env} {m : Machine}
    {message : Message} :
    wp (handleProduce platform env message)
      (fun response _ => (Outcome.answered response).retryAfter? =
        m.broker.memory.retryAfter? env message)
      (fun _ _ => m.broker.memory.retryAfter? env message = none) m := by
  unfold handleProduce Memory.retryAfter?
  simp only [wp_ite, wp_bind, wp_hashable, wp_pure, wp_onLoadShedder, wp_onQueueManager, wp_get,
    wp_onMetrics]
  refine ⟨fun missing => ?_, fun named => ⟨fun missing => ?_, fun given => ⟨?_, ?_⟩⟩⟩
  · simp_all [Outcome.retryAfter?]
  · simp_all [Outcome.retryAfter?]
  · intro queue hashed
    have passes : (message.get "queue" .null).truthy = true ∧
        (message.get "task" .null).isNone = false := ⟨by simpa using named, by simpa using given⟩
    rw [if_pos passes, hashed]
    refine ⟨fun shed => ?_, fun allowed => ?_⟩
    · have refused : (m.broker.memory.verdict env queue.key).1.1 = false := by
        simpa [Memory.verdict, Broker.memory] using shed
      simp only [refused]
      rfl
    · have isAllowed : (m.broker.memory.verdict env queue.key).1.1 = true := by
        simpa [Memory.verdict, Broker.memory] using allowed
      simp only [isAllowed, if_true]
      exact wp_stored (fun opened => saveNewest_calls rfl opened) fun _ _ => ⟨rfl, fun _ => trivial⟩
  · intro unhashable
    simp [unhashable]

/-! ## Steps -/

section Step

variable {config : Config} {platform : Platform} {b : Key} {ids : List String}

theorem Event.Ordinary.ne_crash {event : Event} (ordinary : event.Ordinary ids) :
    event.action ≠ .crash := by
  intro isCrash
  have allowed := ordinary.2
  rw [isCrash] at allowed
  exact allowed

theorem step_next {broker : Broker} {disk : Database} {event : Event}
    (ordinary : event.Ordinary ids) (keeps : event.replays = false) :
    ∃ broker' disk', (step config platform (.running broker disk) event).2 =
        .running broker' disk' ∧
      broker'.memory.Same (broker.memory.next event.env event.action) := by
  obtain ⟨broker', disk', running⟩ := @step_running config platform broker disk event ordinary.1
    ordinary.ne_crash
  refine ⟨broker', disk', running, ?_⟩
  have remembers := @step_remembers config platform (.running broker disk) event
    (·.Same (broker.memory.next event.env event.action))
    (by rintro _ _ ⟨⟩; exact perform_next ordinary keeps) nofun
  rw [running] at remembers
  exact remembers

/-- A replay of dead letters of other queues. -/
theorem perform_replays {m : Machine} {event : Event} (replays : event.replays = true)
    (apart : m.broker.queueManager.Apart b ids) (fresh : event.id ∉ ids)
    (unmixed : Unmixed platform b ids (.running m.broker m.disk) event) :
    Leaves (perform platform event.env event.action) m fun memory =>
      memory.Alike b ids m.broker.memory ∧ memory.queueManager.Apart b ids := by
  have nothing : m.broker.memory.Alike b ids m.broker.memory ∧
      m.broker.memory.queueManager.Apart b ids := ⟨.refl _, apart⟩
  obtain ⟨action, env, crashIn⟩ := event
  cases action with
  | command message =>
    have command : commandOf message = some .dlqReplay := by simpa [Event.replays] using replays
    have elsewhere := unmixed.2 command
    suffices leaves : Leaves (handleDlqReplay platform env message) m fun memory =>
        memory.Alike b ids m.broker.memory ∧ memory.queueManager.Apart b ids by
      unfold Leaves perform
      simp only [wp_bind, wp_pure, dispatch_eq_handle command]
      exact leaves
    refine handleDlqReplay_replays.mono fun memory replayed => ?_
    cases replayed with
    | nothing => exact nothing
    | copied opened found =>
      rw [ReplaysElsewhere, if_pos opened] at elsewhere
      have away := elsewhere _ found
      exact ⟨⟨QueueManager.enqueue_alike _ away _ _ _, .refl _, .refl _⟩,
        apart.enqueue ⟨fun own => absurd own fresh, fun same => absurd same away⟩ _ _⟩
    | @retried id task closed named found =>
      rw [ReplaysElsewhere, if_neg (by simp [closed])] at elsewhere
      have foreign : ∀ task, m.broker.queueManager.deadLetterQueue.tasks.find? id =
          some task → task.Foreign b ids := fun task found =>
        elsewhere task (Table.mem_of_find? found) (by
          rw [named, Table.key_of_find? found]
          rfl)
      exact ⟨⟨QueueManager.retry_alike _ foreign, .refl _, .refl _⟩, apart.retry foreign⟩
  | replayAll =>
    unfold Leaves perform replayDlqHandler
    simp only [wp_bind, wp_onQueueManager, wp_pure]
    have foreign : ∀ task ∈ m.broker.queueManager.deadLetterQueue.tasks,
        task.taskId ∈ (m.broker.queueManager.deadLetterQueue.peek 1000).map Task.taskId →
          task.Foreign b ids := by
      intro task inside listed
      obtain ⟨other, isListed, same⟩ := List.mem_map.mp listed
      have member := (sliceTo_sublist _ _).subset isListed
      obtain rfl := Table.eq_of_key_eq _ inside member same.symm
      exact unmixed task isListed
    obtain ⟨alike, stillApart⟩ := apart.retryEach foreign
    exact ⟨⟨alike, .refl _, .refl _⟩, stillApart⟩
  | _ => cases replays

/-- A replay of other dead letters is not seen by `b`. -/
theorem step_replays {broker : Broker} {disk : Database} {event : Event}
    (ordinary : event.Ordinary ids) (replays : event.replays = true)
    (apart : broker.queueManager.Apart b ids) (fresh : event.id ∉ ids)
    (unmixed : Unmixed platform b ids (.running broker disk) event) :
    ∃ broker' disk', (step config platform (.running broker disk) event).2 =
        .running broker' disk' ∧
      broker'.memory.Alike b ids broker.memory ∧ broker'.queueManager.Apart b ids := by
  obtain ⟨broker', disk', running⟩ := @step_running config platform broker disk event ordinary.1
    ordinary.ne_crash
  refine ⟨broker', disk', running, ?_⟩
  have remembers := @step_remembers config platform (.running broker disk) event
    (fun memory => memory.Alike b ids broker.memory ∧ memory.queueManager.Apart b ids)
    (by
      rintro _ _ ⟨⟩
      exact perform_replays (m := { broker, disk, crashIn := event.crashIn }) replays apart fresh
        unmixed) nofun
  rw [running] at remembers
  exact remembers

/-- The hint that a client gets is the one of the memory before. -/
theorem step_retryAfter {broker : Broker} {disk : Database} {event : Event} {message : Message}
    (ordinary : event.Ordinary ids) (received : event.action = .command message)
    (command : commandOf message = some .produce) :
    (step config platform (.running broker disk) event).1.retryAfter? =
      broker.memory.retryAfter? event.env message := by
  obtain ⟨broker', disk', running⟩ := @step_running config platform broker disk event ordinary.1
    ordinary.ne_crash
  have performs : wp (perform platform event.env event.action)
      (fun outcome _ => outcome.retryAfter? = broker.memory.retryAfter? event.env message)
      (fun _ _ => broker.memory.retryAfter? event.env message = none)
      { broker, disk, crashIn := event.crashIn } := by
    rw [received]
    unfold perform
    simp only [wp_bind, wp_pure]
    refine wp_dispatch (fun unknown => ?_) fun other named => ?_
    · rw [command] at unknown
      cases unknown
    · rw [command] at named
      cases named
      exact handleProduce_retryAfter (m := { broker, disk, crashIn := event.crashIn })
  unfold step at running ⊢
  simp only at running ⊢
  cases ran : perform platform event.env event.action
      { broker, disk, crashIn := event.crashIn } with
  | ok outcome m =>
    rw [ran] at running
    have answers := wp_of_ok ran performs
    simp only [conclude] at running ⊢
    split_ifs at running ⊢
    exact answers
  | error stop m =>
    rw [ran] at running
    have undecided := wp_of_error ran performs
    rw [undecided]
    cases stop with
    | crashed => cases running
    | raised e =>
      simp only [conclude]
      split_ifs <;> rfl

/-- Two brokers that are alike to `b`, or that were not started yet. -/
def System.Alike (b : Key) (ids : List String) : System → System → Prop
  | .running broker _, .running broker' _ =>
    broker.memory.Alike b ids broker'.memory ∧ broker.queueManager.Apart b ids ∧
      broker'.queueManager.Apart b ids
  | .stopped disk, .stopped disk' => disk = {} ∧ disk' = {}
  | _, _ => False

/-- What the steps of the runs satisfy. -/
structure Fits (platform : Platform) (b : Key) (ids : List String) (system : System)
    (event : Event) : Prop where
  ordinary : event.Ordinary ids
  own : event.id ∈ ids ↔ event.producesTo b = true
  unmixed : DistroSync.Unmixed platform b ids system event

theorem Fits.not_own {system : System} {event : Event} (fits : Fits platform b ids system event)
    (replays : event.replays = true) : event.id ∉ ids := by
  intro own
  have produces := fits.own.mp own
  unfold Event.replays at replays
  unfold Event.producesTo at produces
  split at produces
  · rename_i message received
    simp only [received, decide_eq_true_eq] at replays
    simp [replays] at produces
  · cases produces

/-- What an event that concerns `b` in both runs is not. -/
theorem Event.replays_of_near {event : Event} (near : event.elsewhere b ids = false) :
    event.replays = false := by
  unfold Event.elsewhere at near
  unfold Event.replays
  split at near
  · rename_i message received
    split at near
    all_goals simp_all
  · cases near
  · rfl

theorem recover_empty {env : Env} {m : Machine} (empty : m.disk = {}) :
    recover platform env m = .ok () m := by
  obtain ⟨⟨queueManager, workerRegistry, loadShedder, metrics, walStore⟩, disk, crashIn⟩ := m
  subst empty
  cases walStore <;> rfl

theorem step_first_start {event : Event} (starts : event.action = .start)
    (whole : event.crashIn = none) :
    (step config platform (.stopped {}) event).2 =
      .running (Broker.new config event.env) {} := by
  unfold step
  simp only [starts]
  rw [recover_empty rfl]
  simp only [concludeStart, whole, if_true]

theorem step_unstarted {disk : Database} {event : Event} (other : event.action ≠ .start) :
    (step config platform (.stopped disk) event).2 = .stopped disk := by
  unfold step
  cases action : event.action with
  | start => exact absurd action other
  | _ => rfl

theorem new_apart (env : Env) : (Broker.new config env).queueManager.Apart b ids :=
  ⟨fun _ _ inside => absurd inside List.not_mem_nil, fun _ => nofun⟩

/-- **One step.**  Commands about other queues are not seen by `b`, and the rest is seen in
the same way by both. -/
theorem step_unwinds (b : Key) (ids : List String) :
    Trace.Unwinds (step config platform) (System.Alike b ids) (Fits platform b ids)
      (fun event => !event.elsewhere b ids) where
  symm := by
    intro left right alike
    cases left <;> cases right
    · exact ⟨alike.1.symm, alike.2.2, alike.2.1⟩
    · exact alike
    · exact alike
    · exact ⟨alike.2, alike.1⟩
  quiet := by
    intro left right event alike fits concerns
    have away : event.elsewhere b ids = true := by simpa using concerns
    cases left with
    | running broker disk =>
      cases right with
      | stopped disk' => exact alike.elim
      | running broker' disk' =>
        obtain ⟨alike, apart, apart'⟩ := alike
        -- a replay reads the row of its task, so the memory alone does not determine it
        cases replays : event.replays with
        | true =>
          obtain ⟨after, disk'', running, kept, stillApart⟩ := @step_replays config platform
            b ids broker disk event fits.ordinary replays apart (fits.not_own replays)
            fits.unmixed
          rw [running]
          exact ⟨kept.trans alike, stillApart, apart'⟩
        | false =>
          obtain ⟨after, disk'', running, same⟩ :=
            @step_next config platform ids broker disk event fits.ordinary replays
          rw [running]
          have kept := Memory.next_alike fits.ordinary replays apart
            (fun message received isEnd => by
              have unmixed := fits.unmixed
              obtain ⟨action, env, crashIn⟩ := event
              cases received
              exact unmixed.1 isEnd) away
          exact ⟨(same.alike.trans kept).trans alike,
            same.apart (Memory.next_apart fits.ordinary apart fits.own), apart'⟩
    | stopped disk =>
      cases right with
      | running broker' disk' => exact alike.elim
      | stopped disk' =>
        have notStart : event.action ≠ .start := by
          intro starts
          simp [Event.elsewhere, starts] at away
        rw [step_unstarted notStart]
        exact alike
  both := by
    intro left right event alike fits fits' concerns
    have near : event.elsewhere b ids = false := by simpa using concerns
    cases left with
    | running broker disk =>
      cases right with
      | stopped disk' => exact alike.elim
      | running broker' disk' =>
        obtain ⟨alike, apart, apart'⟩ := alike
        have keeps := Event.replays_of_near near
        obtain ⟨after, _, running, same⟩ :=
          @step_next config platform ids broker disk event fits.ordinary keeps
        obtain ⟨after', _, running', same'⟩ :=
          @step_next config platform ids broker' disk' event fits'.ordinary keeps
        rw [running, running']
        have kept := alike.next fits.ordinary apart apart' near
        exact ⟨(same.alike.trans kept).trans same'.alike.symm,
          same.apart (Memory.next_apart fits.ordinary apart fits.own),
          same'.apart (Memory.next_apart fits.ordinary apart' fits.own)⟩
    | stopped disk =>
      cases right with
      | running broker' disk' => exact alike.elim
      | stopped disk' =>
        obtain ⟨rfl, rfl⟩ := alike
        by_cases starts : event.action = .start
        · rw [step_first_start starts fits.ordinary.1]
          exact ⟨.refl _, new_apart _, new_apart _⟩
        · rw [step_unstarted starts]
          exact ⟨rfl, rfl⟩

/-- Brokers that are alike to `b` give the same verdict on a PRODUCE to it. -/
theorem System.Alike.retryAfter? {left right : System} {event : Event}
    (alike : left.Alike b ids right) (ordinary : event.Ordinary ids)
    (own : event.producesTo b = true) :
    (step config platform left event).1.retryAfter? =
      (step config platform right event).1.retryAfter? := by
  obtain ⟨message, received, command, queue⟩ : ∃ message, event.action = .command message ∧
      commandOf message = some .produce ∧ (message.get "queue" .null).key? = some b := by
    unfold Event.producesTo at own
    split at own
    · rename_i message received
      obtain ⟨command, queue⟩ := Bool.and_eq_true_iff.mp own
      exact ⟨message, received, of_decide_eq_true command, of_decide_eq_true queue⟩
    · cases own
  cases left with
  | running broker disk =>
    cases right with
    | stopped disk' => exact alike.elim
    | running broker' disk' =>
      rw [step_retryAfter ordinary received command, step_retryAfter ordinary received command]
      exact alike.1.retryAfter? event.env queue
  | stopped disk =>
    cases right with
    | running broker' disk' => exact alike.elim
    | stopped disk' =>
      unfold step
      simp only [received]

end Step

/-! ## Whole runs -/

section Run

variable {config : Config} {platform : Platform} {b : Key}

theorem producesTo_shared {ids : List String} {event : Event} (own : event.producesTo b = true) :
    (!event.elsewhere b ids) = true := by
  unfold Event.producesTo at own
  split at own
  · rename_i message received
    obtain ⟨command, queue⟩ := Bool.and_eq_true_iff.mp own
    simp [Event.elsewhere, received, of_decide_eq_true command, of_decide_eq_true queue]
  · cases own

/-- An id belongs to `b` exactly if its own event produces to `b`. -/
theorem FreshIds.mem_idsOf {events : List Event} (fresh : FreshIds events) {event : Event}
    (inside : event ∈ events) : event.id ∈ idsOf b events ↔ event.producesTo b = true := by
  unfold idsOf
  simp only [List.mem_map, List.mem_filter]
  constructor
  · rintro ⟨producer, ⟨there, own⟩, same⟩
    rwa [← List.inj_on_of_nodup_map fresh there inside same]
  · exact fun own => ⟨event, ⟨inside, own⟩, rfl⟩

/-- Runs that share the events of `b` give its tasks the same ids. -/
theorem idsOf_eq {events others : List Event} {shared : Event → Bool}
    (isShared : ∀ event, event.producesTo b = true → shared event = true)
    (same : events.filter shared = others.filter shared) : idsOf b events = idsOf b others := by
  have own (events : List Event) :
      events.filter (Event.producesTo b) = (events.filter shared).filter (Event.producesTo b) := by
    rw [List.filter_filter]
    refine List.filter_congr fun event _ => ?_
    cases produces : event.producesTo b with
    | false => rfl
    | true => simp [isShared event produces]
  unfold idsOf
  rw [own events, own others, same]

/-- **Load shedding isolates the queues.**  Two runs that differ only in commands about tasks
of other queues, replays of their dead letters included, and in which no worker that declares
`b` completes such a task, give the same verdict and the same retry hint to every PRODUCE to
`b`. -/
theorem verdicts_isolated {events others : List Event}
    (fresh : FreshIds events) (freshOthers : FreshIds others)
    (ordinary : ∀ event ∈ events, event.Ordinary (idsOf b events))
    (ordinaryOthers : ∀ event ∈ others, event.Ordinary (idsOf b events))
    (same : events.filter (fun event => !event.elsewhere b (idsOf b events)) =
      others.filter fun event => !event.elsewhere b (idsOf b events))
    (unmixed : Trace.EachStep (step config platform) System.initial
      (fun _ system event => Unmixed platform b (idsOf b events) system event) events)
    (unmixedOthers : Trace.EachStep (step config platform) System.initial
      (fun _ system event => Unmixed platform b (idsOf b events) system event) others) :
    Trace.views (Event.producesTo b) Outcome.retryAfter? (history config platform events) =
      Trace.views (Event.producesTo b) Outcome.retryAfter? (history config platform others) := by
  have sameIds : idsOf b events = idsOf b others :=
    idsOf_eq (fun event own => producesTo_shared own) same
  have fits : Trace.EachStep (step config platform) System.initial
      (fun _ system event => Fits platform b (idsOf b events) system event) events := by
    rintro front event back rfl
    have inside : event ∈ front ++ event :: back := by simp
    exact ⟨ordinary event inside, fresh.mem_idsOf inside, unmixed front event back rfl⟩
  have fitsOthers : Trace.EachStep (step config platform) System.initial
      (fun _ system event => Fits platform b (idsOf b events) system event) others := by
    intro front event back split
    have inside : event ∈ others := by simp [split]
    exact ⟨ordinaryOthers event inside, sameIds ▸ freshOthers.mem_idsOf inside,
      unmixedOthers front event back split⟩
  refine ((step_unwinds b (idsOf b events)).run (fun event own => producesTo_shared own) ?_
    (show System.Alike b _ System.initial System.initial from ⟨rfl, rfl⟩) fits fitsOthers same).2
  exact fun alike fit _ own => alike.retryAfter? fit.ordinary own

/-! ### Runs with and without a slow neighbour -/

/-- The broker is started, and a worker registers for these queues. -/
def registered (queues : List Json) : List Event :=
  [.at 0 .start, .at 1 (.send "REGISTER" [("worker_id", .str "w"), ("queues", .arr queues)])]

/-- The worker takes ten seconds for a task of the queue `a`. -/
def slowTask : List Event :=
  [.at 2 (.produce "a" "p"), .at 3 (.consume "a" "w"),
    .at 13 (.send "ACK"
      [("task_id", .str (idAt 2)), ("queue", .str "a"), ("worker_id", .str "w")])]

/-- A PRODUCE to the queue `b`, with id number `n`. -/
def produceAt (n : Nat) (now : Rat) : Event where
  action := .produce "b" "p"
  env := { time := now, monotonic := now, uuid := .numbered n }

/-- Two hundred tasks for the queue `b` empty its bucket. -/
def burst : List Event := (List.range 200).map fun k => produceAt (20 + k) 20

/-- A tenth of a second later, one more. -/
def lateProduce : Event := produceAt 300 (201 / 10)

/-- The worker declares these queues, and the queue `b` gets a burst after the slow task. -/
def slowRun (queues : List Json) : List Event :=
  registered queues ++ slowTask ++ burst ++ [lateProduce]

/-- The same without the slow task. -/
def calmRun (queues : List Json) : List Event := registered queues ++ burst ++ [lateProduce]

variable (queues : List Json)

theorem slowRun_fresh : FreshIds (slowRun queues) := by
  have numbered : (slowRun queues).map Event.id =
      ([0, 1, 2, 3, 13] ++ (List.range 200).map (20 + ·) ++ [300]).map idAt := by
    simp only [slowRun, burst, List.map_append, List.map_map]
    rfl
  unfold FreshIds
  rw [numbered]
  refine List.Nodup.map_on (fun n there k there' same => ?_) (by decide +kernel)
  have small : ∀ n ∈ [0, 1, 2, 3, 13] ++ (List.range 200).map (20 + ·) ++ [300], n < 2 ^ 36 := by
    decide +kernel
  exact idAt_injOn (small n there) (small k there') same

theorem slowRun_ordinary (ids : List String) :
    ∀ event ∈ slowRun queues, event.Ordinary ids := by
  have produces (n : Nat) (now : Rat) : (produceAt n now).Ordinary ids := ⟨rfl, nofun⟩
  intro event inside
  simp only [slowRun, registered, slowTask, burst, lateProduce, List.mem_append, List.mem_cons,
    List.not_mem_nil, or_false, List.mem_map] at inside
  rcases inside with (((rfl | rfl) | (rfl | rfl | rfl)) | ⟨k, -, rfl⟩) | rfl
  · exact ⟨rfl, trivial⟩
  · exact ⟨rfl, nofun⟩
  · exact ⟨rfl, nofun⟩
  · exact ⟨rfl, fun _ => (by decide : (Json.str "a").scalar? ≠ some (.str "*"))⟩
  · exact ⟨rfl, nofun⟩
  · exact produces _ _
  · exact produces _ _

theorem calmRun_sublist : (calmRun queues).Sublist (slowRun queues) := by
  unfold calmRun slowRun
  exact ((List.sublist_append_left _ slowTask).append_right burst).append_right _

/-- The slow task is nothing that concerns `b`. -/
theorem slowRun_filter :
    (slowRun queues).filter (fun event =>
        !event.elsewhere (.str "b") (idsOf (.str "b") (slowRun queues))) =
      (calmRun queues).filter (fun event =>
        !event.elsewhere (.str "b") (idsOf (.str "b") (slowRun queues))) := by
  have foreign : idAt 2 ∉ idsOf (.str "b") (slowRun queues) := by
    have known := @FreshIds.mem_idsOf (.str "b") _ (slowRun_fresh queues)
      (.at 2 (.produce "a" "p")) (by simp [slowRun, slowTask])
    exact fun own => absurd (known.mp own) (by decide)
  generalize idsOf (.str "b") (slowRun queues) = ids at foreign
  have unseen : slowTask.filter (fun event => !event.elsewhere (.str "b") ids) = [] := by
    refine List.filter_eq_nil_iff.mpr fun event inside => ?_
    simp only [slowTask, List.mem_cons, List.not_mem_nil, or_false] at inside
    rcases inside with rfl | rfl | rfl
    · exact ne_true_of_eq_false rfl
    · exact ne_true_of_eq_false rfl
    · have away : Message.names [("command", .str "ACK"), ("task_id", .str (idAt 2)),
          ("queue", .str "a"), ("worker_id", .str "w")] ids = false := decide_eq_false foreign
      have isAway : (Event.at 13 (.send "ACK" [("task_id", .str (idAt 2)), ("queue", .str "a"),
          ("worker_id", .str "w")])).elsewhere (.str "b") ids = true :=
        (congrArg (!·) away : (!_) = true)
      simp [isAway]
  simp only [slowRun, calmRun, List.filter_append, unseen, List.append_nil]

theorem burst_unmixed {ids : List String} {event : Event} (inside : event ∈ burst ++ [lateProduce])
    (system : System) : Unmixed .plain (.str "b") ids system event := by
  obtain ⟨n, now, rfl⟩ : ∃ n now, event = produceAt n now := by
    simp only [burst, lateProduce, List.mem_append, List.mem_map, List.mem_singleton] at inside
    rcases inside with ⟨k, -, rfl⟩ | rfl
    · exact ⟨_, _, rfl⟩
    · exact ⟨_, _, rfl⟩
  cases system with
  | stopped disk => trivial
  | running broker disk =>
    have other : ¬(some Command.produce = some Command.ack ∨
        some Command.produce = some Command.nack) := by decide
    exact ⟨fun ends => absurd ends other, nofun⟩

/-- **A slow neighbour throttles the queue.**  The two runs differ in a task of `a` only.  With
it the last PRODUCE to `b` is rejected, without it the same PRODUCE is allowed. -/
theorem slow_neighbour_throttles :
    FreshIds (slowRun [.str "a", .str "b"]) ∧ FreshIds (calmRun [.str "a", .str "b"]) ∧
      (∀ event ∈ slowRun [.str "a", .str "b"],
        event.Ordinary (idsOf (.str "b") (slowRun [.str "a", .str "b"]))) ∧
      (∀ event ∈ calmRun [.str "a", .str "b"],
        event.Ordinary (idsOf (.str "b") (slowRun [.str "a", .str "b"]))) ∧
      (slowRun [.str "a", .str "b"]).filter (fun event =>
          !event.elsewhere (.str "b") (idsOf (.str "b") (slowRun [.str "a", .str "b"]))) =
        (calmRun [.str "a", .str "b"]).filter (fun event =>
          !event.elsewhere (.str "b") (idsOf (.str "b") (slowRun [.str "a", .str "b"]))) ∧
      lateProduce.producesTo (.str "b") = true ∧
      (step { persistent := false } .plain
        (reach { persistent := false } .plain
          (registered [.str "a", .str "b"] ++ slowTask ++ burst))
        lateProduce).1.retryAfter? = some (1 / 7) ∧
      (step { persistent := false } .plain
        (reach { persistent := false } .plain (registered [.str "a", .str "b"] ++ burst))
        lateProduce).1.isProduced lateProduce.id = true :=
  ⟨slowRun_fresh _, (slowRun_fresh _).sublist ((calmRun_sublist _).map Event.id),
    slowRun_ordinary _ _,
    fun event inside => slowRun_ordinary _ _ event ((calmRun_sublist _).subset inside),
    slowRun_filter _, by decide, by decide +kernel, by decide +kernel⟩

/-- With a worker that declares `a` only, the slow task makes no difference to `b`. -/
theorem verdicts_isolated_declared :
    Trace.views (Event.producesTo (.str "b")) Outcome.retryAfter?
        (history { persistent := false } .plain (slowRun [.str "a"])) =
      Trace.views (Event.producesTo (.str "b")) Outcome.retryAfter?
        (history { persistent := false } .plain (calmRun [.str "a"])) := by
  refine verdicts_isolated (slowRun_fresh _)
    ((slowRun_fresh _).sublist ((calmRun_sublist _).map Event.id)) (slowRun_ordinary _ _)
    (fun event inside => slowRun_ordinary _ _ event ((calmRun_sublist _).subset inside))
    (slowRun_filter _) ?_ ?_
  · unfold slowRun
    rw [List.append_assoc]
    exact (Trace.eachStep_of_all (by decide +kernel)).append
      (Trace.EachStep.of_mem fun event inside => burst_unmixed inside)
  · unfold calmRun
    rw [List.append_assoc]
    exact (Trace.eachStep_of_all (by decide +kernel)).append
      (Trace.EachStep.of_mem fun event inside => burst_unmixed inside)

end Run

end DistroSync
