import DistroSync.Scenario

/-!
# Commands that fail

A handler is a chain of updates to several stores with no rollback, so a command that
raises may have moved a task already.  `Interrupted` lists, for each command, when a
handler that got past its checks raises further on; `errorAtomic_iff` says that these
are exactly the commands that fail and leave a trace.

Three things fail late.  `complete_task` looks a worker up by a value that may be no key
and walks through a `queues` field that nobody has checked (`Incompletable`).  The store
binds values that SQLite does not take: a list, an integer of more than 64 bits, a text
with a surrogate, and for a NOT NULL column also a NaN.  And it writes payloads with
`json.dumps`, which runs out of stack on a value that the reader of the request still took.

The commands that change one store only, and the checks at the start of every handler,
fail without a trace.  So does a DLQ_PURGE that cannot be bound, and a DLQ_REPLAY never
raises once it has found its row: every stored payload decodes, and what was stored once
can be stored again.
-/

namespace DistroSync

open Keyed Py

/-- The command raised, or was answered with the status `error`. -/
def Outcome.Failed : Outcome → Prop
  | .raised _ => True
  | .answered (.error _) => True
  | _ => False

/-- The same, as a test. -/
def Outcome.failed : Outcome → Bool
  | .raised _ => true
  | .answered (.error _) => true
  | _ => false

theorem Outcome.failed_of_Failed {outcome : Outcome} (failed : outcome.Failed) :
    outcome.failed = true := by
  unfold Outcome.Failed at failed
  split at failed
  · rfl
  · rfl
  · exact failed.elim

/-- The pending queues, the tasks in flight, completed and dead-lettered, the worker registry
and both tables are the same. -/
structure Core.SameStores (c c' : Core) : Prop where
  queues : c'.queueManager.queues = c.queueManager.queues
  inFlight : c'.queueManager.inFlight = c.queueManager.inFlight
  completed : c'.queueManager.completed = c.queueManager.completed
  deadLetterQueue : c'.queueManager.deadLetterQueue = c.queueManager.deadLetterQueue
  workerRegistry : c'.workerRegistry = c.workerRegistry
  disk : c'.disk = c.disk

theorem Core.SameStores.refl (c : Core) : c.SameStores c := ⟨rfl, rfl, rfl, rfl, rfl, rfl⟩

/-- If the command fails, then without a trace. -/
def ErrorAtomic (config : Config) (platform : Platform) (broker : Broker) (disk : Database)
    (event : Event) : Prop :=
  (step config platform (.running broker disk) event).1.Failed →
    ∃ broker' disk', (step config platform (.running broker disk) event).2 =
        .running broker' disk' ∧
      (broker.core disk).SameStores (broker'.core disk')

/-- `complete_task` raises for the worker that the message names: the name is no key, or the
worker was assigned the task and its `queues` cannot be iterated or hold a name that is no
key. -/
def Incompletable (registry : WorkerRegistry) (message : Message) (id : String) : Prop :=
  (message.get "worker_id" (.str "")).scalar? = none ∨
    ∃ worker info, (message.get "worker_id" (.str "")).scalar? = some worker ∧
      registry.workers.find? worker.key = some info ∧
      (info.taskStartTimes.find? id).isSome = true ∧
      ∀ names, info.queues.items? = some names → ∃ name ∈ names, name.key? = none

/-- The handler of the command raises after its checks. -/
def Interrupted (platform : Platform) (env : Env) (m : Machine) (message : Message) :
    Command → Prop
  -- the queue name or the payload cannot be stored
  | .produce => m.broker.walStore.isSome = true ∧
      ((∃ e, platform.requiredTextOf (message.get "queue" .null) = .error e) ∨
        ¬platform.Writes (message.get "task" .null))
  -- there is a task, and the worker id is no key or cannot be stored
  | .consume => ∃ queue task qm, (message.get "queue" .null).scalar? = some queue ∧
      m.broker.queueManager.dequeue queue (message.get "worker_id" .null) = (some task, qm) ∧
      ((message.get "worker_id" .null).scalar? = none ∨
        m.broker.walStore.isSome = true ∧
          ∃ e, platform.textOf (message.get "worker_id" .null) = .error e)
  -- `complete_task` fails, or the queue name is no key of the metrics
  | .ack => ∃ id, message.get "task_id" .null = .str id ∧
      (Incompletable m.broker.workerRegistry message id ∨
        (message.get "queue" (.str "unknown")).scalar? = none)
  -- `complete_task` fails, or the dead letter cannot be stored
  | .nack => ∃ id action task qm, message.get "task_id" .null = .str id ∧
      m.broker.queueManager.negativeAcknowledge env.time id = (some (action, task), qm) ∧
      (Incompletable m.broker.workerRegistry message id ∨
        m.broker.walStore.isSome = true ∧ action = .deadLettered ∧
          (m.broker.walStore = some { inTransaction := true } ∨
            (∃ e, platform.requiredTextOf task.queueName.toJson = .error e) ∨
            ¬platform.Writes (deadLetterPayload qm.deadLetterQueue task.taskId)))
  | _ => False

/-- A CONSUME by a worker that is named by a text is not interrupted, if SQLite can bind the
text or is not asked to. -/
theorem not_interrupted_of_named {platform : Platform} {env : Env} {m : Machine}
    {message : Message} {worker : String}
    (named : message.get "worker_id" .null = .str worker)
    (binds : m.broker.walStore.isSome = true → platform.Binds worker) :
    ¬Interrupted platform env m message .consume := by
  rintro ⟨queue, task, qm, -, -, fails⟩
  rw [named] at fails
  rcases fails with unhashable | ⟨opened, e, unbound⟩
  · cases unhashable
  · rw [(binds opened).textOf] at unbound
    cases unbound

/-- The message gets past the checks of its handler, which raises further on. -/
def Hazard (platform : Platform) (env : Env) (m : Machine) (message : Message) : Prop :=
  ∃ command, commandOf message = some command ∧ Admits platform env m message command ∧
    Interrupted platform env m message command

section Stores

variable {platform : Platform} {env : Env} {m : Machine} {message : Message} {c c' : Core}

theorem Core.SameStores.pending_eq (same : c.SameStores c') :
    c'.queueManager.ledger.pending = c.queueManager.ledger.pending := by
  simp only [QueueManager.ledger, QueueManager.pending, same.queues]

/-- A task that went into, or came out of, a queue shows. -/
theorem Core.SameStores.not_of_pending (task : Task) (same : c.SameStores c')
    (moved : c'.queueManager.ledger.pending = task ::ₘ c.queueManager.ledger.pending ∨
      c.queueManager.ledger.pending = task ::ₘ c'.queueManager.ledger.pending) : False := by
  rw [same.pending_eq] at moved
  rcases moved with moved | moved <;>
  · have cards := congrArg Multiset.card moved
    simp at cards

/-- A task that is no longer in flight shows. -/
theorem Core.SameStores.not_of_erased {id : String} {task : Task} (same : c.SameStores c')
    (found : c.queueManager.inFlight.find? id = some task)
    (erased : c'.queueManager.ledger.inFlight =
      ((c.queueManager.inFlight.erase id).rows : Multiset Task)) : False := by
  have inside : task ∈ c'.queueManager.ledger.inFlight := by
    simp only [QueueManager.ledger, same.inFlight]
    exact Table.mem_of_find? found
  rw [erased] at inside
  exact (Table.mem_erase.mp inside).2 (Table.key_of_find? found)

/-! ## When `complete_task` raises -/

/-- The loop over the queues of a worker stops at a name that is no key, and only there. -/
theorem WorkerRegistry.recordLatencies_error_iff {latencyMs : Rat} {names : List Json}
    {registry : WorkerRegistry} :
    (∃ e, (recordLatencies latencyMs names registry).1 = .error e) ↔
      ∃ name ∈ names, name.key? = none := by
  induction names generalizing registry with
  | nil => simp [recordLatencies]
  | cons name rest ih =>
    cases isKey : name.key? with
    | none => simp [recordLatencies, isKey]
    | some queue => simp [recordLatencies, isKey, ih]

theorem completion_error_iff {registry : WorkerRegistry} {id : String} :
    (∃ e, (completion env registry message id).1 = .error e) ↔
      Incompletable registry message id := by
  unfold completion Incompletable
  cases named : (message.get "worker_id" (.str "")).scalar? with
  | none => simp
  | some worker =>
    cases known : registry.workers.find? worker.key with
    | none => simp [WorkerRegistry.completeTask, known]
    | some info =>
      cases started : info.taskStartTimes.find? id with
      | none => simp [WorkerRegistry.completeTask, known, started]
      | some start =>
        cases iterated : info.queues.items? with
        | none => simp [WorkerRegistry.completeTask, known, started, iterated]
        | some names =>
          simp [WorkerRegistry.completeTask, known, started, iterated,
            WorkerRegistry.recordLatencies_error_iff]

theorem ackChecks_error_iff {registry : WorkerRegistry} {id : String} :
    (∃ e, ackChecks env registry message id = .error e) ↔
      Incompletable registry message id ∨
        (message.get "queue" (.str "unknown")).scalar? = none := by
  rw [← @completion_error_iff env]
  unfold ackChecks
  cases (completion env registry message id).1 with
  | error e => simp
  | ok done =>
    cases (message.get "queue" (.str "unknown")).scalar? with
    | none => simp
    | some queue => simp

/-! ## When the statements cannot be bound -/

theorem exists_error_iff {α : Type} {x : Except Error α} :
    (∃ e, x = .error e) ↔ ¬∃ a, x = .ok a := by
  cases x <;> simp

theorem map_error_iff {α β : Type} {x : Except Error α} {f : α → β} :
    (∃ e, x.map f = .error e) ↔ ∃ e, x = .error e := by
  cases x <;> simp [Except.map]

/-- `save_task` fails for its queue name or for its payload: a new task has no worker. -/
theorem taskRow_error_iff {queue : Scalar} {payload : Json} {value : Json}
    (hashed : value.scalar? = some queue) :
    (∃ e, platform.taskRow (env.task queue payload) env.time = .error e) ↔
      (∃ e, platform.requiredTextOf value = .error e) ∨ ¬platform.Writes payload := by
  obtain rfl : queue.toJson = value := by
    cases value <;> cases hashed <;> rfl
  rw [exists_error_iff, exists_error_iff, ← not_and_or, not_iff_not]
  constructor
  · rintro ⟨row, stored⟩
    obtain ⟨-, encodes, -, -, -, named⟩ := Platform.taskRow_ok stored
    exact ⟨⟨_, named⟩, encodes.writes⟩
  · rintro ⟨⟨text, named⟩, writes⟩
    exact ⟨_, Platform.taskRow_of_writes writes named rfl⟩

/-- `add_to_dlq` fails for the same two columns. -/
theorem dlqRow_error_iff {task : Task} {error : String} {now : Rat} :
    (∃ e, platform.dlqRow task error now = .error e) ↔
      (∃ e, platform.requiredTextOf task.queueName.toJson = .error e) ∨
        ¬platform.Writes task.payload := by
  rw [exists_error_iff, exists_error_iff, ← not_and_or, not_iff_not]
  constructor
  · rintro ⟨row, stored⟩
    obtain ⟨-, encodes, -, -, -, named⟩ := Platform.dlqRow_ok stored
    exact ⟨⟨_, named⟩, encodes.writes⟩
  · rintro ⟨⟨text, named⟩, writes⟩
    exact ⟨_, Platform.dlqRow_of_writes writes named⟩

theorem nackStatements_error_iff {walStore : Option Connection} {dlq : DeadLetterQueue}
    {action : NackAction} {task : Task} :
    (∃ e, nackStatements platform env walStore dlq action task = .error e) ↔
      action = .deadLettered ∧ (walStore = some { inTransaction := true } ∨
        (∃ e, platform.requiredTextOf task.queueName.toJson = .error e) ∨
        ¬platform.Writes (deadLetterPayload dlq task.taskId)) := by
  cases action with
  | requeued => simp [nackStatements]
  | deadLettered =>
    by_cases pending : walStore = some { inTransaction := true }
    · simp [nackStatements, pending]
    · simp only [nackStatements, pending, if_false, map_error_iff, dlqRow_error_iff, true_and,
        false_or]
      rfl

/-- A worker that an admitted CONSUME names is not `None`, so its column is set. -/
theorem optionalTextOf_error_iff {value : Json} (given : value.truthy = true) :
    (∃ e, platform.optionalTextOf value = .error e) ↔ ∃ e, platform.textOf value = .error e := by
  have present : value.isNone = false := by
    cases value with
    | null => cases given
    | _ => rfl
  simp only [Platform.optionalTextOf, present, Bool.false_eq_true, if_false, map_error_iff]

/-! ## The two directions -/

/-- A store call that ends a handler fails only if its statements cannot be bound. -/
theorem Persist.of_failed {crashIn : Option Nat} {bound : Except Error (Database → Database)}
    {response : Response} {r : Except Stop Outcome}
    (persisted : Persist crashIn c bound (.answered response) r c')
    (succeeds : ¬(Outcome.answered response).Failed) (failed : (outcomeOf r).Failed) :
    c.walStore.isSome = true ∧ ∃ e, bound = .error e := by
  cases persisted with
  | off absent => exact absurd failed succeeds
  | died present binds spent => exact failed.elim
  | refused present fails => exact ⟨present, _, fails⟩
  | committed present binds alive => exact absurd failed succeeds

/-- And then it does fail. -/
theorem Persist.of_unbound {crashIn : Option Nat} {bound : Except Error (Database → Database)}
    {success : Outcome} {r : Except Stop Outcome} {e : Error}
    (persisted : Persist crashIn c bound success r c') (present : c.walStore.isSome = true)
    (fails : bound = .error e) :
    (outcomeOf r).Failed ∧ c'.queueManager = c.queueManager := by
  cases persisted with
  | off absent =>
    rw [absent] at present
    cases present
  | died present' binds spent =>
    rw [fails] at binds
    cases binds
  | refused present' fails' => exact ⟨trivial, rfl⟩
  | committed present' binds alive =>
    rw [fails] at binds
    cases binds

variable {events : List Event} {r : Except Stop Outcome}

/-- A command that fails without being interrupted leaves no trace. -/
theorem Effect.sameStores (sound : m.disk.Sound platform (drawn events))
    (safe : ¬Hazard platform env m message)
    (effect : Effect platform env m (.command message) r c) (failed : (outcomeOf r).Failed) :
    m.core.SameStores c := by
  cases effect with
  | quiet idle silent => exact .refl _
  | produce command admitted named hashed persisted =>
    obtain ⟨opened, unbound⟩ := persisted.of_failed id failed
    -- the task is enqueued already: this is the hazard
    exact absurd ⟨_, command, admitted, opened,
      (taskRow_error_iff hashed).mp (map_error_iff.mp unbound)⟩ safe
  | consumeUnhashable command admitted hashed taken unhashable =>
    exact absurd ⟨_, command, admitted, _, _, _, hashed, taken, Or.inl unhashable⟩ safe
  | consume command admitted hashed taken consumer persisted =>
    obtain ⟨opened, unbound⟩ := persisted.of_failed id failed
    exact absurd ⟨_, command, admitted, _, _, _, hashed, taken, Or.inr
      ⟨opened, (optionalTextOf_error_iff admitted.2.1).mp (map_error_iff.mp unbound)⟩⟩ safe
  | ackAborted command admitted named found fails =>
    exact absurd ⟨_, command, admitted, _, named, ackChecks_error_iff.mp ⟨_, fails⟩⟩ safe
  | ack command admitted named found passes persisted =>
    obtain ⟨-, e, unbound⟩ := persisted.of_failed id failed
    cases unbound
  | nackAborted command admitted named nacked fails =>
    exact absurd ⟨_, command, admitted, _, _, _, _, named, nacked,
      Or.inl (completion_error_iff.mp ⟨_, fails⟩)⟩ safe
  | nack command admitted named nacked passes persisted =>
    obtain ⟨opened, unbound⟩ := persisted.of_failed id failed
    exact absurd ⟨_, command, admitted, _, _, _, _, named, nacked,
      Or.inr ⟨opened, nackStatements_error_iff.mp unbound⟩⟩ safe
  | replayDropped command opened found fails =>
    obtain ⟨-, isText, payload, decodes⟩ := sound.namedRow found
    rcases fails with rigid | undecodable
    · rw [isText] at rigid
      cases rigid
    · rw [decodes] at undecodable
      cases undecodable
  | replayCut command opened found decodes unsaved =>
    obtain ⟨rfl, -⟩ := sound.died_of_unsaved found decodes unsaved
    exact failed.elim
  | purge command opened counted persisted =>
    cases persisted with
    | off absent => exact failed.elim
    | died present binds spent => exact failed.elim
    | refused present fails => exact ⟨rfl, rfl, rfl, rfl, rfl, rfl⟩
    | committed present binds alive => exact failed.elim
  -- the others do not fail
  | _ => exact failed.elim

/-- An interrupted PRODUCE leaves its task in the queue. -/
theorem Effect.of_interrupted_produce (command : commandOf message = some .produce)
    (admits : Admits platform env m message .produce)
    (interrupted : Interrupted platform env m message .produce)
    (effect : Effect platform env m (.command message) r c) :
    (outcomeOf r).Failed ∧ ¬m.core.SameStores c := by
  obtain ⟨opened, unbound⟩ := interrupted
  obtain ⟨queue, hashed, persisted⟩ := effect.of_produce command admits
  let task := env.task queue (message.get "task" .null)
  obtain ⟨e, fails⟩ : ∃ e, platform.taskRow task env.time = .error e :=
    (taskRow_error_iff hashed).mpr unbound
  obtain ⟨failed, memory⟩ := persisted.of_unbound opened (congrArg (Except.map _) fails)
  refine ⟨failed, fun same => same.not_of_pending task (Or.inl ?_)⟩
  rw [memory, QueueManager.ledger_enqueue]
  rfl

/-- An interrupted CONSUME takes its task out of the queue. -/
theorem Effect.of_interrupted_consume (distinct : m.broker.queueManager.Distinct)
    (command : commandOf message = some .consume)
    (admits : Admits platform env m message .consume)
    (interrupted : Interrupted platform env m message .consume)
    (effect : Effect platform env m (.command message) r c) :
    (outcomeOf r).Failed ∧ ¬m.core.SameStores c := by
  obtain ⟨queue, task, qm, hashed, taken, fails⟩ := interrupted
  obtain ⟨head, rest, -, before, after⟩ := QueueManager.ledger_dequeue_some distinct taken
  have shows (memory : c.queueManager = qm) : ¬m.core.SameStores c := by
    refine fun same => same.not_of_pending head (Or.inr ?_)
    rw [memory, after]
    exact before
  obtain ⟨queue', hashed', consumes⟩ := effect.of_consume command admits
  cases hashed.symm.trans hashed'
  rw [taken] at consumes
  cases consumes with
  | unhashable unhashable => exact ⟨trivial, shows rfl⟩
  | assigned consumer persisted =>
    rcases fails with unhashable | ⟨opened, unbound⟩
    · rw [consumer] at unhashable
      cases unhashable
    · obtain ⟨e, unbound⟩ := (optionalTextOf_error_iff admits.2.1).mpr unbound
      obtain ⟨failed, memory⟩ := persisted.of_unbound opened (congrArg (Except.map _) unbound)
      exact ⟨failed, shows memory⟩

/-- An interrupted ACK takes its task out of flight. -/
theorem Effect.of_interrupted_ack (distinct : m.broker.queueManager.Distinct)
    (command : commandOf message = some .ack) (admits : Admits platform env m message .ack)
    (interrupted : Interrupted platform env m message .ack)
    (effect : Effect platform env m (.command message) r c) :
    (outcomeOf r).Failed ∧ ¬m.core.SameStores c := by
  obtain ⟨id, named, fails⟩ := interrupted
  obtain ⟨id', task, named', found, memory, ⟨e, -, rfl⟩ | ⟨passes, -⟩⟩ :=
    effect.of_ack command admits
  · refine ⟨trivial, fun same => same.not_of_erased found ?_⟩
    rw [memory]
    exact congrArg Ledger.inFlight (QueueManager.ledger_acknowledge distinct found)
  · cases named.symm.trans named'
    obtain ⟨e, fails⟩ := ackChecks_error_iff.mpr fails
    rw [passes] at fails
    cases fails

/-- An interrupted NACK takes its task out of flight. -/
theorem Effect.of_interrupted_nack (command : commandOf message = some .nack)
    (admits : Admits platform env m message .nack)
    (interrupted : Interrupted platform env m message .nack)
    (effect : Effect platform env m (.command message) r c) :
    (outcomeOf r).Failed ∧ ¬m.core.SameStores c := by
  obtain ⟨id, action, task, qm, named, nacked, fails⟩ := interrupted
  obtain ⟨origin, found, spec⟩ := QueueManager.negativeAcknowledge_some nacked
  obtain ⟨id', action', task', qm', named', nacked', memory, ending⟩ :=
    effect.of_nack command admits
  cases named.symm.trans named'
  cases nacked.symm.trans nacked'
  have shows : ¬m.core.SameStores c := by
    refine fun same => same.not_of_erased found ?_
    rw [memory]
    exact spec.ledger_inFlight found
  refine ⟨?_, shows⟩
  rcases ending with ⟨e, -, rfl⟩ | ⟨passes, persisted⟩
  · trivial
  · rcases fails with fails | ⟨opened, unbound⟩
    · obtain ⟨e, fails⟩ := completion_error_iff.mpr fails
      rw [passes] at fails
      cases fails
    · obtain ⟨e, unbound⟩ := nackStatements_error_iff.mpr unbound
      exact (persisted.of_unbound opened unbound).1

/-- An interrupted command fails, and leaves a trace. -/
theorem Effect.of_hazard (distinct : m.broker.queueManager.Distinct)
    (hazard : Hazard platform env m message)
    (effect : Effect platform env m (.command message) r c) :
    (outcomeOf r).Failed ∧ ¬m.core.SameStores c := by
  obtain ⟨name, command, admits, interrupted⟩ := hazard
  cases name with
  | produce => exact effect.of_interrupted_produce command admits interrupted
  | consume => exact effect.of_interrupted_consume distinct command admits interrupted
  | ack => exact effect.of_interrupted_ack distinct command admits interrupted
  | nack => exact effect.of_interrupted_nack command admits interrupted
  | _ => exact interrupted.elim

end Stores

section Run

variable {config : Config} {platform : Platform}

/-- A command in a process without a crash point is an effect that shows. -/
theorem step_command {broker : Broker} {disk : Database} {event : Event} {message : Message}
    (received : event.action = .command message) (whole : event.crashIn = none) :
    ∃ r broker' disk',
      Effect platform event.env { broker, disk, crashIn := event.crashIn } (.command message) r
        (broker'.core disk') ∧
      step config platform (.running broker disk) event =
        (outcomeOf r, .running broker' disk') := by
  have transition := step_transition config platform (.running broker disk) event
  generalize result : step config platform (.running broker disk) event = next at transition ⊢
  obtain ⟨outcome, next⟩ := next
  cases transition with
  | ran effect _ survived =>
    rw [received] at effect
    exact ⟨_, _, _, effect, rfl⟩
  | died effect cut =>
    rw [received] at effect
    rcases cut with cut | died
    · exact absurd whole cut
    · exact absurd died (effect.survives whole (by nofun))

/-- **When a failing command is atomic.**  In every reached state, a command that raises or is
answered with an error leaves the queues, the tasks, the registry and both tables as they
were if and only if its handler is not interrupted after its checks. -/
theorem errorAtomic_iff {events : List Event} {broker : Broker} {disk : Database} {event : Event}
    {message : Message} (fresh : FreshIds events)
    (position : reach config platform events = .running broker disk)
    (received : event.action = .command message) (whole : event.crashIn = none) :
    ErrorAtomic config platform broker disk event ↔
      ¬Hazard platform event.env { broker, disk, crashIn := event.crashIn } message := by
  have reached := @reach_sound config platform _ fresh
  rw [position] at reached
  have sound : (broker.core disk).Sound config platform (drawn events) := reached
  have distinct : broker.queueManager.Distinct := sound.distinct
  have stored : disk.Sound platform (drawn events) := sound.disk
  obtain ⟨r, broker', disk', effect, taken⟩ := @step_command config platform broker disk event
    message received whole
  unfold ErrorAtomic
  rw [taken]
  constructor
  · intro atomic hazard
    obtain ⟨failed, shows⟩ := Effect.of_hazard (m := { broker, disk, crashIn := event.crashIn })
      distinct hazard effect
    obtain ⟨_, _, same, stores⟩ := atomic failed
    cases same
    exact shows stores
  · intro safe failed
    exact ⟨broker', disk', rfl, Effect.sameStores (m := { broker, disk, crashIn := event.crashIn })
      stored safe effect failed⟩

/-- A task is produced and consumed. -/
def heldRun : List Event :=
  [.at 0 .start, .at 1 (.produce "q" "p"), .at 2 (.consume "q" "w")]

/-- An ACK whose `worker_id` is a list. -/
def listedAck (taskId : String) : Event :=
  .at 3 (.send "ACK" [("task_id", .str taskId), ("worker_id", .arr [])])

/-- **The ACK that raises and acknowledges.**  The task has left the flight when the lookup of
the worker raises. -/
theorem listed_worker_acknowledges :
    ∃ broker disk broker' disk',
      reach { persistent := true } .plain heldRun = .running broker disk ∧
      step { persistent := true } .plain (.running broker disk) (listedAck (idAt 1)) =
        (.raised .typeError, .running broker' disk') ∧
      ¬(broker.core disk).SameStores (broker'.core disk') := by
  let after (broker : Broker) (disk : Database) : Outcome × System :=
    step { persistent := true } .plain (.running broker disk) (listedAck (idAt 1))
  let test (broker : Broker) (disk : Database) : Bool :=
    (broker.queueManager.inFlight.find? (idAt 1)).isSome &&
      (decide ((after broker disk).1.error? = some .typeError) &&
        (after broker disk).2.passes fun broker' _ =>
          (broker'.queueManager.inFlight.find? (idAt 1)).isNone)
  obtain ⟨broker, disk, position, passed⟩ := @System.of_passes test
    (reach { persistent := true } .plain heldRun) (by decide +kernel)
  obtain ⟨held, passed⟩ := Bool.and_eq_true_iff.mp passed
  obtain ⟨raised, passed⟩ := Bool.and_eq_true_iff.mp passed
  obtain ⟨broker', disk', next, gone⟩ := System.of_passes passed
  refine ⟨broker, disk, broker', disk', position,
    Prod.ext (Outcome.of_error? (of_decide_eq_true raised)) next, fun same => ?_⟩
  have inFlight : broker'.queueManager.inFlight = broker.queueManager.inFlight := same.inFlight
  rw [inFlight, Option.isNone_iff_eq_none] at gone
  rw [gone] at held
  cases held

/-- An ACK of an unknown task fails at its checks, whatever its `worker_id`. -/
theorem errorAtomic_iff_unknown :
    ∃ broker disk, reach { persistent := true } .plain heldRun = .running broker disk ∧
      ErrorAtomic { persistent := true } .plain broker disk (listedAck "t") := by
  obtain ⟨broker, disk, position, absent⟩ := @System.of_passes
    (fun broker _ => (broker.queueManager.inFlight.find? "t").isNone)
    (reach { persistent := true } .plain heldRun) (by decide +kernel)
  refine ⟨broker, disk, position, (errorAtomic_iff (by decide +kernel) position rfl rfl).mpr ?_⟩
  rintro ⟨command, isAck, admits, -⟩
  cases isAck
  obtain ⟨id, task, named, -, found⟩ := admits
  cases named
  rw [Option.isNone_iff_eq_none.mp absent] at found
  cases found

end Run

end DistroSync
