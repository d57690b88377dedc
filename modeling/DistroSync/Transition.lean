import DistroSync.Effect

/-!
# Every step is one of the effects

The handlers are run symbolically, with the rules of `Exec.wp`: `perform_effect` says
that whatever an action does to a machine is an `Effect`, `recover_recovers` that
whatever a start does is a `Recovery`.  `Transition` puts the two together and
`step_transition` says that every step of a run is one; from here on no proof unfolds
a handler.
-/

namespace DistroSync

open Keyed Py Exec

/-! ## Every command has one of the effects -/

section Handlers

variable {platform : Platform} {env : Env} {m : Machine} {message : Message}

/-- The machine `m'` is an effect of the message on `m`, and the crash point is used up in
neither or in both of them. -/
def Does (platform : Platform) (env : Env) (m : Machine) (message : Message)
    (r : Except Stop Response) (m' : Machine) : Prop :=
  Effect platform env m (.command message) (r.map .answered) m'.core ∧
    (m'.crashIn = none ↔ m.crashIn = none)

/-- Every run of the program from `m` is an effect of the message. -/
def Achieves (platform : Platform) (env : Env) (m : Machine) (message : Message)
    (program : BrokerM Response) : Prop :=
  wp program (fun response => Does platform env m message (.ok response))
    (fun stop => Does platform env m message (.error stop)) m

theorem Does.quiet {r : Except Stop Response} {m' : Machine} {command : Command}
    (named : commandOf message = some command)
    (idle : ¬Admits platform env m message command) (silent : Silent (r.map .answered))
    (same : m'.core = m.core) (crash : m'.crashIn = none ↔ m.crashIn = none) :
    Does platform env m message r m' := by
  refine ⟨same ▸ Effect.quiet ?_ silent, crash⟩
  intro other isOther
  rw [named] at isOther
  cases isOther
  exact idle

/-- `body`, run on `m`, is a store call: it commits the statements if they could be bound,
and raises otherwise, with whatever transaction the connection is left in. -/
structure Calls (body : BrokerM Unit) (m : Machine)
    (bound : Except Error (Database → Database)) : Prop where
  commits : ∀ statements, bound = .ok statements → body m = walCommit statements m
  raises : ∀ e, bound = .error e → ∃ connection : Connection,
    body m = .error (.raised e)
      { m with broker := { m.broker with walStore := some connection } }

/-- The statements are bound before the commit; a value that cannot be bound leaves the
transaction open. -/
theorem walWrite_calls (m : Machine) (bound : Except Error (Database → Database)) :
    Calls (walWrite bound) m bound where
  commits := by
    rintro statements rfl
    rfl
  raises := by
    rintro e rfl
    exact ⟨_, rfl⟩

/-- The rule for the store call that ends a handler. -/
theorem wp_persist {m' : Machine} {body : BrokerM Unit} {response : Response}
    {bound : Except Error (Database → Database)}
    (call : m'.broker.walStore.isSome = true → Calls body m' bound)
    (crash : m'.crashIn = m.crashIn)
    (effect : ∀ r c, Persist m.crashIn m'.core bound (.answered response) r c →
      Effect platform env m (.command message) r c) :
    wp (whenPersistent body) (fun _ => Does platform env m message (.ok response))
      (fun stop => Does platform env m message (.error stop)) m' := by
  rw [wp_whenPersistent]
  constructor
  · intro opened
    cases binds : bound with
    | error e =>
      obtain ⟨connection, raised⟩ := (call opened).raises e binds
      exact wp_of_raises raised ⟨effect _ _ (.refused opened binds), by simp [crash]⟩
    | ok statements =>
      rw [wp_congr ((call opened).commits statements binds), wp_walCommit]
      refine ⟨fun spent => ?_, fun alive => ?_⟩
      · exact ⟨effect _ _ (.died opened binds (crash ▸ spent)), by rw [crash]⟩
      · exact ⟨effect _ _ (.committed opened binds (crash ▸ alive)), by
          rw [committed_crashIn, crash]⟩
  · intro closed
    exact ⟨effect _ _ (.off closed), by rw [crash]⟩

/-- The task that was just enqueued is the newest one in its queue. -/
theorem saveNewest_enqueue {m' : Machine} {qm : QueueManager} {queue : Scalar} {payload : Json}
    (enqueued : m'.broker.queueManager = qm.enqueue env.uuid.text env.time queue payload) :
    saveNewest platform env queue.key env.uuid.text m' =
      saveTask platform env (env.task queue payload) m' := by
  have newest : (m'.broker.queueManager.deque queue.key).reverse.find?
      (fun task => task.taskId = env.uuid.text) = some (env.task queue payload) := by
    have appended := QueueManager.deque_append_self qm (env.task queue payload)
    rw [enqueued]
    change ((qm.append (env.task queue payload)).deque queue.key).reverse.find? _ = _
    rw [show queue.key = (env.task queue payload).queueName.key from rfl, appended,
      List.reverse_append]
    simp [Env.task]
  unfold saveNewest
  simp only [bind, EStateM.bind, get, getThe, MonadStateOf.get, EStateM.get, newest]

/-- `save_task` is a store call.  If the payload cannot be written down, the connection is left
as it was, since no transaction was begun yet. -/
theorem saveTask_calls {m' : Machine} (opened : m'.broker.walStore.isSome = true) (task : Task) :
    Calls (saveTask platform env task) m'
      ((platform.taskRow task env.time).map fun row db => db.saveTask row) := by
  obtain ⟨connection, isOpen⟩ := Option.isSome_iff_exists.mp opened
  have unchanged : ({ m' with broker := { m'.broker with walStore := some connection } } : Machine)
      = m' := by
    rw [← isOpen]
  cases written : platform.dumps platform.storeDepth task.payload with
  | error e =>
    have fails : platform.taskRow task env.time = .error e := by
      simp only [Platform.taskRow, written]
      rfl
    have raised : saveTask platform env task m' = .error (.raised e) m' := by
      simp only [saveTask, written]
      rfl
    rw [fails]
    constructor
    · intro statements binds
      cases binds
    · intro e' isError
      cases isError
      exact ⟨connection, by rw [raised, unchanged]⟩
  | ok text =>
    have call : saveTask platform env task =
        walWrite ((platform.taskRow task env.time).map fun row db => db.saveTask row) := by
      simp only [saveTask, written]
    rw [call]
    exact walWrite_calls m' _

/-- The task that `save_task` gets is the one that was just appended. -/
theorem saveNewest_calls {m' : Machine} {qm : QueueManager} {queue : Scalar} {payload : Json}
    (enqueued : m'.broker.queueManager = qm.enqueue env.uuid.text env.time queue payload)
    (opened : m'.broker.walStore.isSome = true) :
    Calls (saveNewest platform env queue.key env.uuid.text) m'
      ((platform.taskRow (env.task queue payload) env.time).map fun row db => db.saveTask row) := by
  have call := @saveNewest_enqueue platform env m' qm queue payload enqueued
  have saves := @saveTask_calls platform env m' opened (env.task queue payload)
  constructor
  · intro statements binds
    rw [call]
    exact saves.commits statements binds
  · intro e fails
    rw [call]
    exact saves.raises e fails

theorem handleProduce_achieves (command : commandOf message = some .produce) :
    Achieves platform env m message (handleProduce platform env message) := by
  unfold Achieves handleProduce
  simp only [wp_ite, wp_bind, wp_hashable, wp_pure, wp_onLoadShedder, wp_onQueueManager, wp_get,
    wp_onMetrics]
  refine ⟨fun missing => ?_, fun named => ⟨fun missing => ?_, fun given => ⟨?_, ?_⟩⟩⟩
  · exact .quiet command (by simp_all [Admits]) trivial rfl Iff.rfl
  · exact .quiet command (by simp_all [Admits]) trivial rfl Iff.rfl
  · intro queue hashed
    refine ⟨fun shed => ?_, fun allowed => ?_⟩
    · refine .quiet command ?_ trivial rfl Iff.rfl
      rintro ⟨-, -, other, isOther, allowed⟩
      rw [hashed] at isOther
      cases isOther
      simp [Machine.allows] at allowed
      simp [allowed] at shed
    · refine wp_persist (fun opened => saveNewest_calls rfl opened) rfl fun r c persisted => ?_
      have isNamed : (message.get "queue" .null).truthy = true := by simpa using named
      have admitted : Admits platform env m message .produce :=
        ⟨isNamed, by simpa using given, queue, hashed, by simpa [Machine.allows] using allowed⟩
      exact .produce command admitted isNamed hashed persisted
  · intro unhashable
    exact .quiet command (by simp_all [Admits]) trivial rfl Iff.rfl

/-- The delivery comes first, the registry next, and the store last. -/
theorem handleConsume_achieves (command : commandOf message = some .consume) :
    Achieves platform env m message (handleConsume platform env message) := by
  unfold Achieves handleConsume
  simp only [wp_ite, wp_bind, wp_hashable, wp_pure, wp_onQueueManager]
  refine ⟨fun missing => ?_, fun named => ⟨fun missing => ?_, fun given => ⟨?_, ?_⟩⟩⟩
  · exact .quiet command (by simp_all [Admits]) trivial rfl Iff.rfl
  · exact .quiet command (by simp_all [Admits]) trivial rfl Iff.rfl
  · intro queue hashed
    have admitted : Admits platform env m message .consume :=
      ⟨by simpa using named, by simpa using given, queue, hashed⟩
    cases taken : m.broker.queueManager.dequeue queue (message.get "worker_id" .null) with
    | mk result qm =>
      cases result with
      | none => exact ⟨.consumeEmpty command hashed taken, Iff.rfl⟩
      | some task =>
        simp only [wp_bind, wp_hashable, wp_onRegistry, wp_onMetrics, wp_pure]
        refine ⟨fun worker consumer => ?_, fun unhashable => ?_⟩
        · refine wp_persist (fun _ => walWrite_calls _ _) rfl fun r c persisted => ?_
          exact .consume command admitted hashed taken consumer persisted
        · exact ⟨.consumeUnhashable command admitted hashed taken unhashable, Iff.rfl⟩
  · intro unhashable
    exact .quiet command (by simp_all [Admits]) trivial rfl Iff.rfl

theorem handleRegister_achieves (command : commandOf message = some .register) :
    Achieves platform env m message (handleRegister platform env message) := by
  unfold Achieves handleRegister
  simp only [wp_ite, wp_bind, wp_hashable, wp_pure, wp_onRegistry]
  refine ⟨fun missing => ?_, fun named => ⟨?_, ?_⟩⟩
  · exact .quiet command (by simp_all [Admits]) trivial rfl Iff.rfl
  · intro worker hashed
    exact ⟨.register command hashed rfl, Iff.rfl⟩
  · intro unhashable
    exact .quiet command (by simp_all [Admits]) trivial rfl Iff.rfl

theorem handleHeartbeat_achieves (command : commandOf message = some .heartbeat) :
    Achieves platform env m message (handleHeartbeat platform env message) := by
  unfold Achieves handleHeartbeat
  simp only [wp_ite, wp_bind, wp_hashable, wp_pure, wp_onRegistry]
  refine ⟨fun missing => ?_, fun named => ⟨?_, ?_⟩⟩
  · exact .quiet command (by simp_all [Admits]) trivial rfl Iff.rfl
  · intro worker hashed
    refine ⟨fun found => ⟨.heartbeat command hashed, Iff.rfl⟩, fun unknown => ?_⟩
    cases present : m.broker.workerRegistry.workers.find? worker.key with
    | none =>
      refine .quiet command ?_ trivial ?_ Iff.rfl
      · simp_all [Admits]
      · simp [WorkerRegistry.recordHeartbeat, present, Machine.core, Broker.core]
    | some info => simp [WorkerRegistry.recordHeartbeat, present] at unknown
  · intro unhashable
    exact .quiet command (by simp_all [Admits]) trivial rfl Iff.rfl

/-- The rule for finding the task of an ACK or NACK. -/
theorem wp_inFlightKey {m' : Machine} {taskId : Json} {Q : Option String → Machine → Prop}
    {E : Stop → Machine → Prop}
    (known : ∀ id task, taskId = .str id →
      m'.broker.queueManager.inFlight.find? id = some task → Q (some id) m')
    (unknown : (∀ id, taskId = .str id → m'.broker.queueManager.inFlight.find? id = none) →
      Q none m' ∧ ∀ e, E (.raised e) m') :
    wp (inFlightKey platform taskId) Q E m' := by
  have missing : (∀ id, taskId = .str id → m'.broker.queueManager.inFlight.find? id = none) →
      wp (if !taskId.sliceable then raise .typeError
        else if platform.strDepth < taskId.depth then raise .recursionError
        else pure none) Q E m' := by
    intro absent
    simp only [wp_ite, wp_raise, wp_pure]
    exact ⟨fun _ => (unknown absent).2 _, fun _ =>
      ⟨fun _ => (unknown absent).2 _, fun _ => (unknown absent).1⟩⟩
  unfold inFlightKey
  simp only [wp_bind, wp_get]
  rw [wp_ite]
  refine ⟨fun noRows => missing fun id _ => ?_, fun _ => ?_⟩
  · have none : m'.broker.queueManager.inFlight = Table.empty :=
      Table.ext (List.isEmpty_iff.mp noRows)
    rw [none, Table.find?_empty]
  · rw [wp_bind, wp_hashable]
    refine ⟨fun scalar hashed => ?_, fun unhashable => ?_⟩
    · cases scalar with
      | str id =>
        have isText := Json.eq_str_of_scalar? hashed
        rw [wp_ite]
        refine ⟨fun found => ?_, fun absent => missing fun other isOther => ?_⟩
        · obtain ⟨task, present⟩ := Option.isSome_iff_exists.mp found
          exact known id task isText present
        · rw [isText] at isOther
          cases isOther
          simpa using absent
      | _ =>
        refine missing fun other isOther => ?_
        rw [isOther] at hashed
        cases hashed
    · refine (unknown fun id isText => ?_).2 _
      rw [isText] at unhashable
      cases unhashable

/-- The rule for `complete_task` in the handlers of ACK and NACK. -/
theorem wp_completeTask {m' : Machine} {id : String} {Q : Unit → Machine → Prop}
    {E : Stop → Machine → Prop}
    (returns : (completion env m'.broker.workerRegistry message id).1 = .ok () →
      Q () { m' with broker := { m'.broker with
        workerRegistry := (completion env m'.broker.workerRegistry message id).2 } })
    (raises : ∀ e, (completion env m'.broker.workerRegistry message id).1 = .error e →
      E (.raised e) { m' with broker := { m'.broker with
        workerRegistry := (completion env m'.broker.workerRegistry message id).2 } }) :
    wp (completeTask env message id) Q E m' := by
  unfold completeTask
  simp only [wp_bind, wp_hashable, wp_onRegistry]
  constructor
  · intro worker hashed
    simp only [completion, hashed] at returns raises
    cases ended : (m'.broker.workerRegistry.completeTask worker.key id env.monotonic).1 with
    | ok value => exact returns ended
    | error e => exact raises e ended
  · intro unhashable
    simp only [completion, unhashable] at raises
    exact raises _ rfl

/-- The registry is asked after the task has left its table. -/
theorem handleAck_achieves (command : commandOf message = some .ack) :
    Achieves platform env m message (handleAck platform env message) := by
  unfold Achieves handleAck
  simp only [wp_ite, wp_bind, wp_pure]
  refine ⟨fun missing => ?_, fun given => wp_inFlightKey ?_ ?_⟩
  · refine .quiet command ?_ trivial rfl Iff.rfl
    rintro ⟨id, task, named, nonempty, -⟩
    simp [named, Json.truthy, nonempty] at missing
  · intro id task named found
    have admitted : Admits platform env m message .ack :=
      ⟨id, task, named, by simpa [named, Json.truthy] using given, found⟩
    simp only [wp_bind, wp_onQueueManager]
    refine wp_completeTask (fun passes => ?_) fun e fails => ?_
    · simp only [wp_hashable, wp_onMetrics]
      refine ⟨fun queue hashed => ?_, fun unhashable => ?_⟩
      · refine wp_persist (fun _ => walWrite_calls _ _) rfl fun r c persisted => ?_
        exact .ack command admitted named found (by simp_all [ackChecks]) persisted
      · exact ⟨.ackAborted command admitted named found (by simp_all [ackChecks]), Iff.rfl⟩
    · exact ⟨.ackAborted command admitted named found (by simp_all [ackChecks]), Iff.rfl⟩
  · intro absent
    have idle : ¬Admits platform env m message .ack := by
      rintro ⟨id, task, named, -, found⟩
      rw [absent id named] at found
      cases found
    exact ⟨.quiet command idle trivial rfl Iff.rfl,
      fun e => .quiet command idle trivial rfl Iff.rfl⟩

/-- The store call of `_handle_nack` runs `nackStatements`. -/
theorem persistNack_calls (m' : Machine) (action : NackAction) (task : Task)
    (opened : m'.broker.walStore.isSome = true) :
    Calls (persistNack platform env action task) m'
      (nackStatements platform env m'.broker.walStore m'.broker.queueManager.deadLetterQueue
        action task) := by
  obtain ⟨connection, isOpen⟩ := Option.isSome_iff_exists.mp opened
  -- a failing `add_to_dlq` leaves the connection as it was
  have unchanged : ({ m' with broker := { m'.broker with walStore := some connection } } : Machine)
      = m' := by
    rw [← isOpen]
  cases action with
  | requeued =>
    exact walWrite_calls m' (.ok fun db =>
      db.updateTaskStatus task.taskId .pending (some task.attempts) none env.time)
  | deadLettered =>
    have run : persistNack platform env .deadLettered task m' =
        addToDlq platform env
          (nackStub env m'.broker.queueManager.deadLetterQueue task) "max retries exceeded" m' :=
      rfl
    by_cases pending : m'.broker.walStore = some { inTransaction := true }
    · have raised : addToDlq platform env
          (nackStub env m'.broker.queueManager.deadLetterQueue task) "max retries exceeded" m' =
          .error (.raised .operationalError) m' := by
        simp [addToDlq, bind, EStateM.bind, get, getThe, MonadStateOf.get, EStateM.get, pending,
          raise, throw, throwThe, MonadExceptOf.throw, EStateM.throw]
      constructor
      · intro statements binds
        simp [nackStatements, pending] at binds
      · intro e fails
        simp only [nackStatements, pending, if_true, Except.error.injEq] at fails
        subst fails
        exact ⟨connection, by rw [run, raised, unchanged]⟩
    · cases bound : platform.dlqRow (nackStub env m'.broker.queueManager.deadLetterQueue task)
          "max retries exceeded" env.time with
      | error e =>
        have call : addToDlq platform env
            (nackStub env m'.broker.queueManager.deadLetterQueue task)
            "max retries exceeded" m' = .error (.raised e) m' := by
          simp [addToDlq, bind, EStateM.bind, get, getThe, MonadStateOf.get, EStateM.get,
            pending, bound, raise, throw, throwThe, MonadExceptOf.throw, EStateM.throw]
        simp only [nackStatements, pending, if_false, bound, Except.map]
        constructor
        · intro statements binds
          cases binds
        · intro e' fails
          cases fails
          exact ⟨connection, by rw [run, call, unchanged]⟩
      | ok row =>
        have call : addToDlq platform env
            (nackStub env m'.broker.queueManager.deadLetterQueue task)
            "max retries exceeded" m' = walCommit (fun db => db.addToDlq row) m' := by
          simp [addToDlq, bind, EStateM.bind, get, getThe, MonadStateOf.get, EStateM.get,
            pending, bound]
        simp only [nackStatements, pending, if_false, bound, Except.map]
        constructor
        · intro statements binds
          cases binds
          rw [run, call]
        · intro e fails
          cases fails

/-- Likewise, and the row follows the task. -/
theorem handleNack_achieves (command : commandOf message = some .nack) :
    Achieves platform env m message (handleNack platform env message) := by
  unfold Achieves handleNack
  simp only [wp_ite, wp_bind, wp_pure]
  refine ⟨fun missing => ?_, fun given => wp_inFlightKey ?_ ?_⟩
  · refine .quiet command ?_ trivial rfl Iff.rfl
    rintro ⟨id, task, named, nonempty, -⟩
    simp [named, Json.truthy, nonempty] at missing
  · intro id task named found
    have admitted : Admits platform env m message .nack :=
      ⟨id, task, named, by simpa [named, Json.truthy] using given, found⟩
    simp only [wp_bind, wp_onQueueManager]
    cases nacked : m.broker.queueManager.negativeAcknowledge env.time id with
    | mk result qm =>
      cases result with
      | none =>
        rcases QueueManager.negativeAcknowledge_cases nacked with
          ⟨absent, -, -⟩ | ⟨_, _, _, -, absurd, -⟩
        · rw [found] at absent
          cases absent
        · cases absurd
      | some pair =>
        obtain ⟨action, nackedTask⟩ := pair
        simp only [wp_bind, wp_onMetrics, wp_pure]
        refine wp_completeTask (fun passes => ?_) fun e fails => ?_
        · refine wp_persist (fun opened => persistNack_calls _ action nackedTask opened) rfl
            fun r c persisted => ?_
          exact .nack command admitted named nacked passes persisted
        · exact ⟨.nackAborted command admitted named nacked fails, Iff.rfl⟩
  · intro absent
    have idle : ¬Admits platform env m message .nack := by
      rintro ⟨id, task, named, -, found⟩
      rw [absent id named] at found
      cases found
    exact ⟨.quiet command idle trivial rfl Iff.rfl,
      fun e => .quiet command idle trivial rfl Iff.rfl⟩

theorem handleDlqList_achieves (command : commandOf message = some .dlqList) :
    Achieves platform env m message (handleDlqList platform message) := by
  have idle : ¬Admits platform env m message .dlqList := id
  unfold Achieves handleDlqList
  simp only [wp_bind, wp_get, wp_ite]
  refine ⟨fun opened => ?_, fun closed => ?_⟩
  · cases platform.queueFilter (message.get "queue" .null) with
    | error e => exact .quiet command idle trivial rfl Iff.rfl
    | ok name =>
      cases platform.limitOf (message.get "limit" (.int 50)) with
      | error e => exact .quiet command idle trivial rfl Iff.rfl
      | ok n => exact .quiet command idle trivial rfl Iff.rfl
  · cases peekLimit m.broker.queueManager.deadLetterQueue (message.get "limit" (.int 50)) with
    | error e => exact .quiet command idle trivial rfl Iff.rfl
    | ok tasks => exact .quiet command idle trivial rfl Iff.rfl

/-- The rule for finding and deleting the row of a DLQ_REPLAY. -/
theorem wp_replayDlqTask {taskId : Json} {Q : Option DlqRow → Machine → Prop}
    {E : Stop → Machine → Prop}
    (unknown : platform.namedRow m.disk taskId = none → Q none m ∧ ∀ e, E (.raised e) m)
    (died : ∀ row, platform.namedRow m.disk taskId = some row → m.crashIn = some 0 → E .crashed m)
    (deleted : ∀ row, platform.namedRow m.disk taskId = some row → m.crashIn ≠ some 0 →
      (taskId.sliceable = true → Q (some row) (m.committed fun db => db.deleteDlq row.taskId)) ∧
        (taskId.sliceable = false →
          E (.raised .typeError) (m.committed fun db => db.deleteDlq row.taskId))) :
    wp (replayDlqTask platform taskId) Q E m := by
  unfold replayDlqTask
  cases bound : platform.textOf taskId with
  | error e =>
    have absent : platform.namedRow m.disk taskId = none := by
      simp [Platform.namedRow, bound]
    exact (unknown absent).2 e
  | ok text =>
    simp only [wp_bind, wp_get]
    have named : platform.namedRow m.disk taskId =
        text.bind m.disk.deadLetterQueue.find? := by
      cases text with
      | none => simp [Platform.namedRow, bound]
      | some text => simp [Platform.namedRow, bound]
    rw [← named]
    cases found : platform.namedRow m.disk taskId with
    | none =>
      simp only [wp_ite, wp_pure, wp_raise]
      exact ⟨fun _ => (unknown found).1, fun _ => (unknown found).2 _⟩
    | some row =>
      simp only [wp_bind, wp_walCommit, wp_ite, wp_pure, wp_raise]
      refine ⟨died row found, fun alive => ⟨(deleted row found alive).1, fun rigid => ?_⟩⟩
      exact (deleted row found alive).2 (by simpa using rigid)

/-- The rule for finding the task of a DLQ_REPLAY without a store. -/
theorem wp_deadLetterKey {taskId : Json} {Q : Option String → Machine → Prop}
    {E : Stop → Machine → Prop}
    (known : ∀ id task, taskId = .str id →
      m.broker.queueManager.deadLetterQueue.tasks.find? id = some task → Q (some id) m)
    (unknown :
      (∀ id, taskId = .str id → m.broker.queueManager.deadLetterQueue.tasks.find? id = none) →
        Q none m ∧ E (.raised .typeError) m) :
    wp (deadLetterKey taskId) Q E m := by
  have missing :
      (∀ id, taskId = .str id → m.broker.queueManager.deadLetterQueue.tasks.find? id = none) →
        wp (if taskId.sliceable then pure none else raise .typeError) Q E m := by
    intro absent
    rw [wp_ite]
    exact ⟨fun _ => (unknown absent).1, fun _ => (unknown absent).2⟩
  unfold deadLetterKey
  simp only [wp_bind, wp_get]
  rw [wp_hashable]
  refine ⟨fun scalar hashed => ?_, fun unhashable => ?_⟩
  · cases scalar with
    | str id =>
      have isText := Json.eq_str_of_scalar? hashed
      rw [wp_ite]
      refine ⟨fun found => ?_, fun absent => missing fun other isOther => ?_⟩
      · obtain ⟨task, present⟩ := Option.isSome_iff_exists.mp found
        exact known id task isText present
      · rw [isText] at isOther
        cases isOther
        simpa using absent
    | _ =>
      refine missing fun other isOther => ?_
      rw [isOther] at hashed
      cases hashed
  · refine (unknown fun id isText => ?_).2
    rw [isText] at unhashable
    cases unhashable

theorem handleDlqReplay_achieves (command : commandOf message = some .dlqReplay) :
    Achieves platform env m message (handleDlqReplay platform env message) := by
  unfold Achieves handleDlqReplay
  simp only [wp_ite, wp_bind, wp_pure, wp_get]
  refine ⟨fun missing => ?_, fun given => ⟨fun opened => ?_, fun closed => ?_⟩⟩
  · exact .quiet command (by simp_all [Admits]) trivial rfl Iff.rfl
  · refine wp_replayDlqTask ?_ ?_ ?_
    · intro absent
      have idle : ¬Admits platform env m message .dlqReplay := by
        simp [Admits, opened, absent]
      exact ⟨.quiet command idle trivial rfl Iff.rfl,
        fun e => .quiet command idle trivial rfl Iff.rfl⟩
    · intro row found spent
      exact ⟨.replayDied command opened found spent, Iff.rfl⟩
    · intro row found alive
      refine ⟨fun sliceable => ?_, fun rigid => ?_⟩
      · cases decodes : platform.loads row.payload with
        | none =>
          simp only [decodes, wp_raise]
          exact ⟨.replayDropped command opened found (Or.inr decodes), committed_crashIn _⟩
        | some payload =>
          simp only [decodes, wp_bind, wp_onQueueManager, wp_pure]
          -- the crash point of the second commit is one later than that of the first
          have second : m.crashIn.map Nat.pred = some 0 ↔ m.crashIn = some 1 := by
            cases point : m.crashIn with
            | none => simp
            | some n =>
              have nonzero : n ≠ 0 := fun zero => alive (by rw [point, zero])
              simp only [Option.map_some, Option.some.injEq, Nat.pred_eq_sub_one]
              omega
          have saves := @saveNewest_calls platform env
            { m.committed fun db => db.deleteDlq row.taskId with
              broker :=
                { m.broker with
                  queueManager := m.broker.queueManager.enqueue env.uuid.text env.time
                    (.str row.queueName) payload
                  walStore := some {} } }
            m.broker.queueManager (.str row.queueName) payload rfl rfl
          cases binds : platform.taskRow (env.task (.str row.queueName) payload) env.time with
          | error e =>
            obtain ⟨connection, raised⟩ := saves.raises e (by rw [binds]; rfl)
            refine wp_of_raises raised ?_
            exact ⟨.replayCut command opened found decodes (.refused binds),
              committed_crashIn fun db : Database => db.deleteDlq row.taskId⟩
          | ok saved =>
            refine (wp_congr (saves.commits _ (by rw [binds]; rfl))).mpr ?_
            rw [wp_walCommit]
            refine ⟨fun spent => ?_, fun later => ?_⟩
            · exact ⟨.replayCut command opened found decodes (.died (second.mp spent)),
                committed_crashIn fun db : Database => db.deleteDlq row.taskId⟩
            · refine ⟨.replay command opened found decodes binds
                ⟨alive, fun spent => later (second.mpr spent)⟩, ?_⟩
              rw [committed_crashIn]
              exact committed_crashIn fun db : Database => db.deleteDlq row.taskId
      · exact ⟨.replayDropped command opened found (Or.inl rigid), committed_crashIn _⟩
  · have isClosed : m.broker.walStore = none := by simpa using closed
    refine wp_deadLetterKey ?_ ?_
    · intro id task named found
      simp only [wp_bind, wp_onQueueManager, wp_pure]
      exact ⟨.retry command isClosed named found, Iff.rfl⟩
    · intro absent
      have idle : ¬Admits platform env m message .dlqReplay := by
        simp only [Admits, isClosed, Option.isSome_none, Bool.false_eq_true, if_false]
        rintro ⟨-, id, task, named, found⟩
        rw [absent id named] at found
        cases found
      exact ⟨.quiet command idle trivial rfl Iff.rfl, .quiet command idle trivial rfl Iff.rfl⟩

/-- The store decides alone, if there is one. -/
theorem handleDlqPurge_achieves (command : commandOf message = some .dlqPurge) :
    Achieves platform env m message (handleDlqPurge platform message) := by
  unfold Achieves handleDlqPurge
  simp only [wp_ite, wp_bind, wp_pure, wp_get]
  refine ⟨fun opened => ?_, fun closed => ?_⟩
  · cases bound : platform.queueFilter (message.get "queue" .null) with
    | error e =>
      simp only [wp_bind, wp_setInTransaction, wp_raise]
      refine ⟨@Effect.purge platform env m message 0 _ _ command opened ?_ (.refused opened ?_),
        Iff.rfl⟩
      · intro name binds
        rw [bound] at binds
        cases binds
      · rw [bound]
        rfl
    | ok name =>
      have counted : ∀ other, platform.queueFilter (message.get "queue" .null) = .ok other →
          m.disk.purgeCount name = m.disk.purgeCount other := by
        intro other isOther
        rw [bound] at isOther
        cases isOther
        rfl
      have binds : ((platform.queueFilter (message.get "queue" .null)).map
          fun name (db : Database) => db.purgeDlq name) = .ok fun db => db.purgeDlq name := by
        rw [bound]
        rfl
      simp only [wp_bind, wp_walCommit, wp_pure]
      refine ⟨fun spent => ?_, fun alive => ?_⟩
      · exact ⟨.purge command opened counted (.died opened binds spent), Iff.rfl⟩
      · exact ⟨.purge command opened counted (.committed opened binds alive),
          committed_crashIn _⟩
  · have isClosed : m.broker.walStore = none := by simpa using closed
    simp only [wp_onQueueManager]
    exact ⟨.purgeMemory command isClosed rfl, Iff.rfl⟩

theorem handleStats_achieves (command : commandOf message = some .stats) :
    Achieves platform env m message (handleStats env) := by
  have idle : ¬Admits platform env m message .stats := id
  unfold Achieves handleStats shedderStats
  simp only [wp_bind, wp_get, wp_onLoadShedder, wp_pure]
  exact .quiet command idle trivial rfl Iff.rfl

theorem handleMetrics_achieves (command : commandOf message = some .metrics) :
    Achieves platform env m message (handleMetrics env) := by
  have idle : ¬Admits platform env m message .metrics := id
  unfold Achieves handleMetrics shedderStats
  simp only [wp_bind, wp_get, wp_onMetrics, wp_onLoadShedder, wp_pure]
  exact .quiet command idle trivial rfl Iff.rfl

/-- A known command is a string. -/
theorem commandOf_some {command : Command} (named : commandOf message = some command) :
    ∃ name, message.get "command" .null = .str name ∧ name ≠ "" := by
  unfold commandOf at named
  split at named
  · rename_i name isText
    refine ⟨name, isText, ?_⟩
    rintro rfl
    simp [Command.ofName?] at named
  · cases named

/-- Every message has one of the effects. -/
theorem dispatch_achieves (platform : Platform) (env : Env) (m : Machine) (message : Message) :
    Achieves platform env m message (dispatch platform env message) := by
  have undispatched (r : Except Stop Response) (silent : Silent (r.map .answered))
      (unknown : commandOf message = none) : Does platform env m message r m := by
    refine ⟨Effect.quiet ?_ silent, Iff.rfl⟩
    intro command named
    rw [unknown] at named
    cases named
  unfold Achieves dispatch
  simp only [wp_ite, wp_bind, wp_hashable, wp_pure]
  refine ⟨fun missing => ?_, fun given => ⟨fun scalar hashed => ?_, fun unhashable => ?_⟩⟩
  · refine undispatched _ trivial ?_
    by_contra known
    obtain ⟨command, named⟩ := Option.ne_none_iff_exists'.mp known
    obtain ⟨name, isText, nonempty⟩ := commandOf_some named
    simp [isText, Json.truthy, nonempty] at missing
  · cases named : commandOf message with
    | none => exact undispatched _ trivial named
    | some command =>
      cases command with
      | produce => exact handleProduce_achieves named
      | consume => exact handleConsume_achieves named
      | register => exact handleRegister_achieves named
      | heartbeat => exact handleHeartbeat_achieves named
      | ack => exact handleAck_achieves named
      | nack => exact handleNack_achieves named
      | dlqList => exact handleDlqList_achieves named
      | dlqReplay => exact handleDlqReplay_achieves named
      | dlqPurge => exact handleDlqPurge_achieves named
      | stats => exact handleStats_achieves named
      | metrics => exact handleMetrics_achieves named
  · refine undispatched _ trivial ?_
    by_contra known
    obtain ⟨command, named⟩ := Option.ne_none_iff_exists'.mp known
    obtain ⟨name, isText, -⟩ := commandOf_some named
    simp [isText] at unhashable

end Handlers

/-! ## Every action has one of the effects -/

/-- **The effects are all that happens.**  Whatever an action does to a machine, and
however it ends, is one of its effects. -/
theorem perform_effect (platform : Platform) (env : Env) (m : Machine) (action : Action) :
    wp (perform platform env action)
      (fun outcome m' => Effect platform env m action (.ok outcome) m'.core ∧
        (m'.crashIn = none ↔ m.crashIn = none))
      (fun stop m' => Effect platform env m action (.error stop) m'.core ∧
        (m'.crashIn = none ↔ m.crashIn = none)) m := by
  cases action with
  | command message =>
    simp only [perform, wp_bind, wp_pure]
    exact dispatch_achieves platform env m message
  | evict order =>
    cases ran : evictDeadWorkers order env.time m.broker.workerRegistry m.broker.queueManager with
    | mk result rest =>
      obtain ⟨registry, qm⟩ := rest
      simp only [perform, evictionPass, wp_bind, wp_get, wp_set, wp_pure, ran]
      cases result with
      | ok value => exact ⟨.evict ran rfl, Iff.rfl⟩
      | error e => exact ⟨.evict ran rfl, Iff.rfl⟩
  | reset =>
    simp only [perform, resetHandler, wp_bind, wp_onQueueManager, wp_onMetrics, wp_pure,
      wp_whenPersistent, wp_walCommit]
    refine ⟨fun opened => ⟨fun spent => ?_, fun alive => ?_⟩, fun closed => ?_⟩
    · exact ⟨.reset (.died opened rfl spent), trivial⟩
    · exact ⟨.reset (.committed opened rfl alive), committed_crashIn _⟩
    · exact ⟨.reset (.off closed), trivial⟩
  | replayAll =>
    simp only [perform, replayDlqHandler, wp_bind, wp_onQueueManager, wp_pure]
    exact ⟨.replayAll rfl, trivial⟩
  | crashWorker pick =>
    simp only [perform, crashWorkerHandler, wp_bind, wp_onRegistry, wp_pure]
    cases picked : (m.broker.workerRegistry.getActiveWorkers)[pick]? with
    | none => exact ⟨.crashNobody, trivial⟩
    | some info =>
      have active := List.mem_of_getElem? picked
      exact ⟨.crashWorker (List.mem_filter.mp active).1, trivial⟩
  | crash => exact ⟨.crash, Iff.rfl⟩
  | start => exact ⟨.start, Iff.rfl⟩

/-! ## Recovery -/

/-- What the recovery loop does with the rows it was given.  Each iteration enqueues the
task and then commits its row as pending; `crashes` says that the process may die. -/
inductive Recovery (platform : Platform) (env : Env) (crashes : Prop) :
    List TaskRow → Core → Except Stop Unit → Core → Prop where
  | done {c : Core} : Recovery platform env crashes [] c (.ok ()) c
  | undecodable {row : TaskRow} {rest : List TaskRow} {c : Core}
      (fails : platform.loads row.payload = none) :
      Recovery platform env crashes (row :: rest) c (.error (.raised .jsonDecodeError)) c
  | died {row : TaskRow} {rest : List TaskRow} {c c' : Core} (may : crashes)
      (same : c'.disk = c.disk) :
      Recovery platform env crashes (row :: rest) c (.error .crashed) c'
  | next {row : TaskRow} {rest : List TaskRow} {payload : Json} {c c' : Core}
      {r : Except Stop Unit} (decodes : platform.loads row.payload = some payload)
      (later : Recovery platform env crashes rest
        { c with
          queueManager := c.queueManager.enqueueRecovered (.str row.queueName) row.taskId env.time
            payload row.attempts
          walStore := some {}
          disk := c.disk.updateTaskStatus row.taskId .pending (some row.attempts) none env.time }
        r c') :
      Recovery platform env crashes (row :: rest) c r c'

/-- Row by row: a row whose payload does not decode stops the start. -/
theorem recoverEach_recovers (platform : Platform) (env : Env) (m : Machine)
    (rows : List TaskRow) :
    wp (recoverEach platform env rows)
      (fun _ m' => Recovery platform env (m.crashIn ≠ none) rows m.core (.ok ()) m'.core ∧
        (m'.crashIn = none ↔ m.crashIn = none))
      (fun stop m' => Recovery platform env (m.crashIn ≠ none) rows m.core (.error stop) m'.core ∧
        (m'.crashIn = none ↔ m.crashIn = none)) m := by
  induction rows generalizing m with
  | nil => exact ⟨.done, Iff.rfl⟩
  | cons row rest ih =>
    unfold recoverEach
    cases decodes : platform.loads row.payload with
    | none => exact ⟨.undecodable decodes, Iff.rfl⟩
    | some payload =>
      simp only [wp_bind, wp_onQueueManager, updateTaskStatus, Platform.optionalTextOf_null,
        Except.map, walWrite, wp_walCommit]
      refine ⟨fun spent => ?_, fun alive => ?_⟩
      · exact ⟨.died (by simp_all) rfl, trivial⟩
      · refine wp_mono ?_ ?_ (ih _)
        · rintro - m' ⟨later, crash⟩
          rw [committed_crashIn] at crash
          refine ⟨.next decodes ?_, crash⟩
          rw [ne_eq, committed_crashIn] at later
          exact later
        · rintro stop m' ⟨later, crash⟩
          rw [committed_crashIn] at crash
          refine ⟨.next decodes ?_, crash⟩
          rw [ne_eq, committed_crashIn] at later
          exact later

theorem recover_recovers (platform : Platform) (env : Env) (m : Machine) :
    wp (recover platform env)
      (fun _ m' => (m.broker.walStore.isSome = true →
          Recovery platform env (m.crashIn ≠ none) m.disk.loadPendingTasks m.core (.ok ())
            m'.core) ∧
        (m.broker.walStore = none → m' = m) ∧ (m'.crashIn = none ↔ m.crashIn = none))
      (fun stop m' => Recovery platform env (m.crashIn ≠ none) m.disk.loadPendingTasks m.core
          (.error stop) m'.core ∧ m.broker.walStore.isSome = true) m := by
  unfold recover
  simp only [wp_bind, wp_get, wp_whenPersistent]
  refine ⟨fun opened => ?_, fun closed => ?_⟩
  · refine wp_mono ?_ ?_ (recoverEach_recovers platform env m m.disk.loadPendingTasks)
    · rintro - m' ⟨recovery, crash⟩
      exact ⟨fun _ => recovery, fun closed => by simp [closed] at opened, crash⟩
    · rintro stop m' ⟨recovery, -⟩
      exact ⟨recovery, opened⟩
  · exact ⟨fun opened => by simp [closed] at opened, fun _ => trivial, trivial⟩

/-! ## Steps -/

/-- How the result of an action shows as the outcome of an event that was not cut short. -/
def outcomeOf : Except Stop Outcome → Outcome
  | .ok outcome => outcome
  | .error (.raised e) => .raised e
  | .error .crashed => .crashed

/-- The stores of a process that was just started, before its recovery phase. -/
def startCore (config : Config) (env : Env) (disk : Database) : Core :=
  (Broker.new config env).core disk

/-- **What a step of a run can be.** -/
inductive Transition (config : Config) (platform : Platform) (event : Event) :
    System → Outcome → System → Prop where
  /-- The event ran to its end, with an answer or an exception. -/
  | ran {broker broker' : Broker} {disk disk' : Database} {r : Except Stop Outcome}
      (effect : Effect platform event.env { broker, disk, crashIn := event.crashIn }
        event.action r (broker'.core disk'))
      (whole : event.crashIn = none) (survived : r ≠ .error .crashed) :
      Transition config platform event (.running broker disk) (outcomeOf r)
        (.running broker' disk')
  /-- The process died during the event, or with it. -/
  | died {broker : Broker} {disk : Database} {r : Except Stop Outcome} {c : Core}
      (effect : Effect platform event.env { broker, disk, crashIn := event.crashIn }
        event.action r c)
      (cut : event.crashIn ≠ none ∨ r = .error .crashed) :
      Transition config platform event (.running broker disk) .crashed (.stopped c.disk)
  /-- Nothing happens to a stopped broker until it is started. -/
  | ignored {disk : Database} (other : event.action ≠ .start) :
      Transition config platform event (.stopped disk) .ignored (.stopped disk)
  /-- A start whose recovery phase completed. -/
  | started {disk disk' : Database} {broker : Broker} (starts : event.action = .start)
      (whole : event.crashIn = none)
      (recovery : config.persistent = true →
        Recovery platform event.env (event.crashIn ≠ none) disk.loadPendingTasks
          (startCore config event.env disk) (.ok ()) (broker.core disk'))
      (fresh : config.persistent = false →
        broker.core disk' = startCore config event.env disk) :
      Transition config platform event (.stopped disk) .completed (.running broker disk')
  /-- A start whose recovery phase was cut short, or whose process died right after it. -/
  | failed {disk : Database} {outcome : Outcome} {r : Except Stop Unit} {c : Core}
      (starts : event.action = .start)
      (recovery : config.persistent = true →
        Recovery platform event.env (event.crashIn ≠ none) disk.loadPendingTasks
          (startCore config event.env disk) r c)
      (fresh : config.persistent = false → c = startCore config event.env disk)
      (why : (∃ e, outcome = .raised e ∧ r = .error (.raised e)) ∨
        outcome = .crashed ∧ event.crashIn ≠ none) :
      Transition config platform event (.stopped disk) outcome (.stopped c.disk)

/-- The recovery phase never raises without a store, and dies only at a crash point. -/
theorem Recovery.crashes_of_crashed {platform : Platform} {env : Env} {crashes : Prop}
    {rows : List TaskRow} {c c' : Core}
    (recovery : Recovery platform env crashes rows c (.error .crashed) c') : crashes := by
  generalize ending : (Except.error Stop.crashed : Except Stop Unit) = r at recovery
  induction recovery with
  | done => cases ending
  | undecodable fails => cases ending
  | died may same => exact may
  | next decodes later ih => exact ih ending

/-- **Every step is one of the transitions.** -/
theorem step_transition (config : Config) (platform : Platform) (system : System)
    (event : Event) :
    Transition config platform event system (step config platform system event).1
      (step config platform system event).2 := by
  cases system with
  | running broker disk =>
    have effect := perform_effect platform event.env
      { broker, disk, crashIn := event.crashIn } event.action
    unfold step
    cases performed : perform platform event.env event.action
        { broker, disk, crashIn := event.crashIn } with
    | ok outcome m =>
      obtain ⟨effect, crash⟩ := wp_of_ok performed effect
      -- a crash that is still due ends the process after the event
      by_cases whole : m.crashIn = none
      · simp only [performed, conclude, whole, if_true]
        exact .ran effect (crash.mp whole) (by simp)
      · simp only [performed, conclude, whole, if_false]
        exact .died effect (Or.inl fun none => whole (crash.mpr none))
    | error stop m =>
      obtain ⟨effect, crash⟩ := wp_of_error performed effect
      cases stop with
      | raised e =>
        by_cases whole : m.crashIn = none
        · simp only [performed, conclude, whole, if_true]
          exact .ran effect (crash.mp whole) (by simp)
        · simp only [performed, conclude, whole, if_false]
          exact .died effect (Or.inl fun none => whole (crash.mpr none))
      | crashed =>
        simp only [performed, conclude]
        exact .died effect (Or.inr rfl)
  | stopped disk =>
    by_cases starts : event.action = .start
    · have recovers := recover_recovers platform event.env
        { broker := Broker.new config event.env, disk, crashIn := event.crashIn }
      have opened : config.persistent = true →
          (Broker.new config event.env).walStore.isSome = true := by
        intro persistent
        simp [Broker.new, persistent]
      have closed :
          config.persistent = false → (Broker.new config event.env).walStore = none := by
        intro volatile
        simp [Broker.new, volatile]
      simp only [step, starts]
      cases ran : recover platform event.env
          { broker := Broker.new config event.env, disk, crashIn := event.crashIn } with
      | ok value m =>
        obtain ⟨recovery, fresh, crash⟩ := wp_of_ok ran recovers
        have isFresh : config.persistent = false →
            m.core = startCore config event.env disk := by
          intro volatile
          rw [fresh (closed volatile)]
          rfl
        by_cases whole : m.crashIn = none
        · simp only [concludeStart, whole, if_true]
          exact .started starts (crash.mp whole)
            (fun persistent => recovery (opened persistent)) isFresh
        · simp only [concludeStart, whole, if_false]
          exact .failed starts (fun persistent => recovery (opened persistent)) isFresh
            (Or.inr ⟨rfl, fun none => whole (crash.mpr none)⟩)
      | error stop m =>
        obtain ⟨recovery, isOpen⟩ := wp_of_error ran recovers
        have isFresh : config.persistent = false →
            m.core = startCore config event.env disk := by
          intro volatile
          rw [closed volatile] at isOpen
          cases isOpen
        cases stop with
        | raised e => exact .failed starts (fun _ => recovery) isFresh (Or.inl ⟨e, rfl, rfl⟩)
        | crashed =>
          exact .failed starts (fun _ => recovery) isFresh
            (Or.inr ⟨rfl, recovery.crashes_of_crashed⟩)
    · have ignores : step config platform (.stopped disk) event = (.ignored, .stopped disk) := by
        unfold step
        cases action : event.action with
        | start => exact absurd action starts
        | _ => simp only
      rw [ignores]
      exact .ignored starts

/-! ## Processes that survive -/

/-- Only a crash kills a process that has no crash point. -/
theorem Effect.survives {platform : Platform} {env : Env} {m : Machine} {action : Action}
    {r : Except Stop Outcome} {c : Core} (whole : m.crashIn = none) (other : action ≠ .crash)
    (effect : Effect platform env m action r c) : r ≠ .error .crashed := by
  rintro rfl
  have spent {k : Nat} (spent : m.crashIn = some k) : False := by
    rw [whole] at spent
    cases spent
  cases effect with
  | quiet idle silent => exact silent
  | produce command admitted named hashed persisted =>
    cases persisted with | died present binds cut => exact spent cut
  | consume command admitted hashed taken consumer persisted =>
    cases persisted with | died present binds cut => exact spent cut
  | ack command admitted named found passes persisted =>
    cases persisted with | died present binds cut => exact spent cut
  | nack command admitted named nacked passes persisted =>
    cases persisted with | died present binds cut => exact spent cut
  | replayDied command opened found cut => exact spent cut
  | replayCut command opened found decodes unsaved =>
    cases unsaved with | died cut => exact spent cut
  | purge command opened counted persisted =>
    cases persisted with | died present binds cut => exact spent cut
  | @evict order result registry qm r ran ending => cases result <;> cases ending
  | reset persisted => cases persisted with | died present binds cut => exact spent cut
  | crash => exact other rfl

/-- A process without a crash point is up after an event that is not a crash. -/
theorem step_running {config : Config} {platform : Platform} {broker : Broker} {disk : Database}
    {event : Event} (whole : event.crashIn = none) (other : event.action ≠ .crash) :
    ∃ broker' disk', (step config platform (.running broker disk) event).2 =
      .running broker' disk' := by
  have transition := step_transition config platform (.running broker disk) event
  generalize step config platform (.running broker disk) event = next at transition ⊢
  obtain ⟨outcome, next⟩ := next
  cases transition with
  | ran effect _ survived => exact ⟨_, _, rfl⟩
  | died effect cut =>
    rcases cut with cut | died
    · exact absurd whole cut
    · exact absurd died (effect.survives whole other)

end DistroSync
