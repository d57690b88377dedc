import DistroSync.Scenario

/-!
# In-flight tasks and the workers that have them

That a task is in flight is recorded twice: the queue manager has the task with its
`assigned_worker`, and the registry has the id among the tasks of that worker.  An
eviction pass goes by the second record, so a task that is missing there stays in
flight for ever when its worker falls silent.

Three things make it missing.  A CONSUME need not name a registered worker, and
`assign_task` then does nothing; a REGISTER under an id that is in use replaces the
worker and forgets its tasks; and an eviction pass that reaches a worker id which is
not a string raises after the dead workers were removed.  In runs without these,
every in-flight task is attended (`inFlight_attended`).

The section on `Tracks` says what each operation of the registry does to the record
and is used for both directions: here, that what is in flight is tracked, and in
`Eviction`, that what is tracked is in flight.
-/

namespace DistroSync

open Keyed Py

/-! ## What the registry tracks -/

namespace WorkerRegistry

/-- The registry has the task among those of the worker. -/
def Tracks (registry : WorkerRegistry) (worker : Key) (taskId : String) : Prop :=
  ∃ info, registry.workers.find? worker = some info ∧ taskId ∈ info.inFlightTasks

/-- The worker is registered. -/
def Registered (registry : WorkerRegistry) (worker : Key) : Prop :=
  (registry.workers.find? worker).isSome = true

instance (registry : WorkerRegistry) (worker : Key) : Decidable (registry.Registered worker) :=
  inferInstanceAs (Decidable (_ = _))

variable {registry registry' : WorkerRegistry} {worker : Key} {taskId : String}

theorem tracks_congr (same : registry'.workers = registry.workers) :
    registry'.Tracks worker taskId ↔ registry.Tracks worker taskId := by
  unfold Tracks
  rw [same]

/-- One worker is replaced. -/
theorem tracks_put {info : WorkerInfo} (workers : registry'.workers = registry.workers.put info) :
    registry'.Tracks worker taskId ↔
      (worker = info.key ∧ taskId ∈ info.inFlightTasks) ∨
        (worker ≠ info.key ∧ registry.Tracks worker taskId) := by
  unfold Tracks
  rw [workers]
  by_cases same : worker = info.key
  · subst same
    simp
  · simp [Table.find?_put_of_ne registry.workers same, same]

/-- One worker is replaced by one that has the same tasks. -/
theorem tracks_put_same {old info : WorkerInfo}
    (workers : registry'.workers = registry.workers.put info) (stored : old ∈ registry.workers)
    (key : info.key = old.key) (tasks : info.inFlightTasks = old.inFlightTasks) :
    registry'.Tracks worker taskId ↔ registry.Tracks worker taskId := by
  have found := Table.find?_of_mem stored
  rw [tracks_put workers, key, tasks]
  constructor
  · rintro (⟨rfl, inside⟩ | ⟨-, tracked⟩)
    · exact ⟨old, found, inside⟩
    · exact tracked
  · intro tracked
    by_cases same : worker = old.key
    · subst same
      obtain ⟨info', found', inside⟩ := tracked
      cases found.symm.trans found'
      exact Or.inl ⟨rfl, inside⟩
    · exact Or.inr ⟨same, tracked⟩

/-- A REGISTER forgets the tasks of the worker. -/
theorem tracks_register (workerId : Scalar) (queues : Json) (now : Rat) :
    (registry.register workerId queues now).2.Tracks worker taskId ↔
      worker ≠ workerId.key ∧ registry.Tracks worker taskId := by
  rw [tracks_put rfl]
  simp [WorkerInfo.key]

theorem tracks_recordHeartbeat (beating : Key) (now : Rat) :
    (registry.recordHeartbeat beating now).2.Tracks worker taskId ↔
      registry.Tracks worker taskId := by
  unfold recordHeartbeat
  cases found : registry.workers.find? beating with
  | none => rfl
  | some info => exact tracks_put_same rfl (Table.mem_of_find? found) rfl rfl

theorem tracks_crashed {info : WorkerInfo} (stored : info ∈ registry.workers) (earlier : Rat) :
    ({ registry with workers := registry.workers.put { info with lastHeartbeat := earlier } } :
      WorkerRegistry).Tracks worker taskId ↔ registry.Tracks worker taskId :=
  tracks_put_same rfl stored rfl rfl

theorem tracks_assignTask (consumer : Key) (assigned : String) (now : Rat) :
    (registry.assignTask consumer assigned now).Tracks worker taskId ↔
      registry.Tracks worker taskId ∨
        (registry.Registered consumer ∧ worker = consumer ∧ taskId = assigned) := by
  unfold assignTask Registered
  cases found : registry.workers.find? consumer with
  | none => simp
  | some info =>
    have isKey : info.key = consumer := Table.key_of_find? found
    simp only
    rw [tracks_put rfl, WorkerInfo.key_track, isKey, WorkerInfo.mem_track]
    constructor
    · rintro (⟨rfl, rfl | old⟩ | ⟨-, tracked⟩)
      · exact Or.inr ⟨rfl, rfl, rfl⟩
      · exact Or.inl ⟨info, found, old⟩
      · exact Or.inl tracked
    · rintro (tracked | ⟨-, rfl, rfl⟩)
      · by_cases same : worker = consumer
        · subst same
          obtain ⟨info', found', inside⟩ := tracked
          cases found.symm.trans found'
          exact Or.inl ⟨rfl, Or.inr inside⟩
        · exact Or.inr ⟨same, tracked⟩
      · exact Or.inl ⟨rfl, Or.inl rfl⟩

/-- However `complete_task` ends, the worker it names no longer has the task. -/
theorem tracks_completeTask (named : Key) (completed : String) (now : Rat) :
    (registry.completeTask named completed now).2.Tracks worker taskId ↔
      registry.Tracks worker taskId ∧ ¬(named = worker ∧ taskId = completed) := by
  have workers := registry.completeTask_workers named completed now
  cases found : registry.workers.find? named with
  | none =>
    simp only [found] at workers
    rw [tracks_congr workers]
    constructor
    · rintro ⟨info, found', inside⟩
      refine ⟨⟨info, found', inside⟩, ?_⟩
      rintro ⟨rfl, -⟩
      cases found.symm.trans found'
    · exact And.left
  | some info =>
    have isKey : info.key = named := Table.key_of_find? found
    simp only [found] at workers
    rw [tracks_put workers, WorkerInfo.key_untrack, isKey, WorkerInfo.mem_untrack]
    constructor
    · rintro (⟨rfl, inside, other⟩ | ⟨apart, tracked⟩)
      · exact ⟨⟨info, found, inside⟩, fun both => other both.2⟩
      · exact ⟨tracked, fun both => apart both.1.symm⟩
    · rintro ⟨tracked, spared⟩
      by_cases same : worker = named
      · subst same
        obtain ⟨info', found', inside⟩ := tracked
        cases found.symm.trans found'
        exact Or.inl ⟨rfl, inside, fun equal => spared ⟨rfl, equal⟩⟩
      · exact Or.inr ⟨same, tracked⟩

/-- The worker that an ACK or NACK message names no longer has the task. -/
theorem tracks_completion (env : Env) (message : Message) (completed : String) :
    (completion env registry message completed).2.Tracks worker taskId ↔
      registry.Tracks worker taskId ∧
        ¬((message.get "worker_id" (.str "")).key? = some worker ∧ taskId = completed) := by
  unfold completion Json.key?
  cases (message.get "worker_id" (.str "")).scalar? with
  | none => simp
  | some named =>
    simp only [Option.map_some, Option.some.injEq]
    exact tracks_completeTask named.key completed env.monotonic

/-- An eviction pass drops the workers that expired. -/
theorem tracks_dropDead (now : Rat)
    (workers : registry'.workers = (registry.dropDead now).workers) :
    registry'.Tracks worker taskId ↔
      registry.Tracks worker taskId ∧ ∀ dead ∈ registry.deadWorkers now, dead.key ≠ worker := by
  unfold Tracks
  rw [workers]
  constructor
  · rintro ⟨info, found, inside⟩
    have isKey : info.key = worker := Table.key_of_find? found
    obtain ⟨stored, alive⟩ := Table.mem_filter.mp (Table.mem_of_find? found)
    subst isKey
    refine ⟨⟨info, Table.find?_of_mem stored, inside⟩, fun dead evicted same => ?_⟩
    obtain ⟨member, expired⟩ := List.mem_filter.mp evicted
    have isInfo : dead = info := registry.workers.eq_of_key_eq member stored same
    rw [isInfo] at expired
    simp [expired] at alive
  · rintro ⟨⟨info, found, inside⟩, spared⟩
    have isKey : info.key = worker := Table.key_of_find? found
    subst isKey
    have stored := Table.mem_of_find? found
    have alive : expired now info = false := by
      cases late : expired now info with
      | false => rfl
      | true => exact absurd rfl (spared info (List.mem_filter.mpr ⟨stored, late⟩))
    have kept : info ∈ (registry.dropDead now).workers :=
      Table.mem_filter.mpr ⟨stored, by simp [alive]⟩
    exact ⟨info, Table.find?_of_mem kept, inside⟩

/-- The worker that the task is assigned to is registered and has it. -/
def Attends (registry : WorkerRegistry) (task : Task) : Prop :=
  ∃ worker, task.assignedWorker.key? = some worker ∧ registry.Tracks worker task.taskId

end WorkerRegistry

/-! ## What is in flight is tracked -/

/-- A CONSUME that gets a task names a registered worker, a REGISTER names no worker that has
a task, and the workers that an eviction pass removes have strings as ids. -/
def Broker.Attentive (broker : Broker) (now : Rat) : Action → Prop
  | .command message =>
    (commandOf message = some .consume →
      (∃ queue ∈ (message.get "queue" .null).scalar?,
        (broker.queueManager.dequeue queue (message.get "worker_id" .null)).1.isSome = true) →
      ∃ worker ∈ (message.get "worker_id" .null).key?,
        broker.workerRegistry.Registered worker) ∧
    (commandOf message = some .register →
      ∀ worker ∈ (message.get "worker_id" .null).key?,
        ∀ task ∈ broker.queueManager.inFlight.rows, task.assignedWorker.key? ≠ some worker)
  | .evict _ => ∀ worker ∈ broker.workerRegistry.deadWorkers now,
      worker.workerId.toJson.sliceable = true
  | _ => True

instance (broker : Broker) (now : Rat) (action : Action) :
    Decidable (broker.Attentive now action) :=
  match action with
  | .command _ => inferInstanceAs (Decidable (_ ∧ _))
  | .evict _ => inferInstanceAs (Decidable (∀ _ ∈ _, _))
  | .reset => .isTrue trivial
  | .replayAll => .isTrue trivial
  | .crashWorker _ => .isTrue trivial
  | .crash => .isTrue trivial
  | .start => .isTrue trivial

/-- Every task in flight is attended. -/
def Core.Attended (c : Core) : Prop :=
  ∀ task ∈ c.queueManager.ledger.inFlight, c.workerRegistry.Attends task

section Step

variable {platform : Platform} {env : Env} {m : Machine} {action : Action}
  {r : Except Stop Outcome} {c c' : Core}

theorem Core.Attended.mono (attended : c.Attended)
    (fewer : ∀ task ∈ c'.queueManager.ledger.inFlight, task ∈ c.queueManager.ledger.inFlight)
    (kept : ∀ task ∈ c'.queueManager.ledger.inFlight, ∀ worker,
      task.assignedWorker.key? = some worker → c.workerRegistry.Tracks worker task.taskId →
      c'.workerRegistry.Tracks worker task.taskId) : c'.Attended := by
  intro task flying
  obtain ⟨worker, isWorker, tracked⟩ := attended task (fewer task flying)
  exact ⟨worker, isWorker, kept task flying worker isWorker tracked⟩

/-- An id that left the flight is forgotten, and only that. -/
theorem Core.Attended.completed (attended : m.core.Attended) {message : Message} {id : String}
    (inFlight : c.queueManager.ledger.inFlight =
      ((m.broker.queueManager.inFlight.erase id).rows : Multiset Task))
    (registry : c.workerRegistry = (completion env m.broker.workerRegistry message id).2) :
    c.Attended := by
  have left {task : Task} (flying : task ∈ c.queueManager.ledger.inFlight) :
      task ∈ m.broker.queueManager.inFlight ∧ task.taskId ≠ id := by
    rw [inFlight] at flying
    exact Table.mem_erase.mp flying
  refine attended.mono (fun task flying => (left flying).1) fun task flying worker _ tracked => ?_
  rw [registry, WorkerRegistry.tracks_completion]
  exact ⟨tracked, fun both => (left flying).2 both.2⟩

/-- A delivered task is attended, if its worker is registered. -/
theorem Core.Attended.delivered (attended : m.core.Attended)
    (distinct : m.broker.queueManager.Distinct) {message : Message} {queue worker : Scalar}
    {task : Task} (registered : m.broker.workerRegistry.Registered worker.key)
    (taken : m.broker.queueManager.dequeue queue (message.get "worker_id" .null) =
      (some task, c.queueManager))
    (consumer : (message.get "worker_id" .null).scalar? = some worker)
    (registry : c.workerRegistry =
      m.broker.workerRegistry.assignTask worker.key task.taskId env.monotonic) : c.Attended := by
  obtain ⟨head, rest, rfl, split, ledger⟩ := QueueManager.ledger_dequeue_some distinct taken
  intro other flying
  unfold WorkerRegistry.Attends
  simp only [registry, WorkerRegistry.tracks_assignTask]
  simp only [ledger, Multiset.mem_cons] at flying
  rcases flying with rfl | old
  · have isWorker : (message.get "worker_id" .null).key? = some worker.key := by
      simp [Json.key?, consumer]
    exact ⟨worker.key, isWorker, Or.inr ⟨registered, rfl, rfl⟩⟩
  · obtain ⟨key, isKey, tracked⟩ := attended other old
    exact ⟨key, isKey, Or.inl tracked⟩

/-- An eviction pass that completes requeues what the dead workers had. -/
theorem Core.Attended.evicted (attended : m.core.Attended) {order : SetOrder}
    {result : Except Error Unit}
    (strings : ∀ worker ∈ m.broker.workerRegistry.deadWorkers env.time,
      worker.workerId.toJson.sliceable = true)
    (ran : evictDeadWorkers order env.time m.broker.workerRegistry m.broker.queueManager =
      (result, c.workerRegistry, c.queueManager)) : c.Attended := by
  obtain ⟨spec, workers, -⟩ := evictDeadWorkers_spec ran
  have all : QueueManager.processed (m.broker.workerRegistry.deadWorkers env.time) =
      m.broker.workerRegistry.deadWorkers env.time :=
    List.takeWhile_eq_self_iff.mpr strings
  rw [all] at spec
  refine attended.mono (fun task flying => ((spec.returns.mem_source task).mp flying).1) ?_
  intro task flying worker _ tracked
  obtain ⟨-, spared⟩ := (spec.returns.mem_source task).mp flying
  rw [WorkerRegistry.tracks_dropDead env.time workers]
  refine ⟨tracked, ?_⟩
  rintro dead evicted rfl
  obtain ⟨info, found, inside⟩ := tracked
  have stored : dead ∈ m.broker.workerRegistry.workers := (List.mem_filter.mp evicted).1
  cases (Table.find?_of_mem stored).symm.trans found
  exact spared ⟨dead, evicted, inside⟩

/-- **One action** keeps every task attended, if the broker is attentive. -/
theorem Core.Attended.effect (attended : m.core.Attended)
    (distinct : m.broker.queueManager.Distinct) (attentive : m.broker.Attentive env.time action)
    (effect : Effect platform env m action r c) : c.Attended := by
  -- the actions that change neither record
  have same (inFlight : c.queueManager.ledger.inFlight = m.broker.queueManager.ledger.inFlight)
      (tracks : ∀ worker id, c.workerRegistry.Tracks worker id ↔
        m.broker.workerRegistry.Tracks worker id) : c.Attended :=
    attended.mono (fun task flying => by rwa [inFlight] at flying)
      fun task _ worker _ tracked => (tracks worker task.taskId).mpr tracked
  cases effect with
  | produce command admitted named hashed persisted =>
    obtain ⟨manager, registry, -⟩ := persisted.memory
    refine same ?_ fun worker id => by rw [registry]; rfl
    rw [manager]
    simp only [QueueManager.ledger_enqueue]
  | consumeEmpty command hashed taken =>
    exact same (by rw [QueueManager.ledger_dequeue_none taken]) fun worker id => Iff.rfl
  | consumeUnhashable command admitted hashed taken unhashable =>
    obtain ⟨worker, isWorker, -⟩ := attentive.1 command ⟨_, hashed, by rw [taken]; rfl⟩
    simp [Json.key?, unhashable] at isWorker
  | @consume message queue worker task qm r c command admitted hashed taken consumer persisted =>
    obtain ⟨manager, registry, -⟩ := persisted.memory
    obtain ⟨key, isKey, registered⟩ := attentive.1 command ⟨_, hashed, by rw [taken]; rfl⟩
    have isWorker : worker.key = key := by simpa [Json.key?, consumer] using isKey
    exact attended.delivered distinct (isWorker ▸ registered)
      (by rw [manager]; exact taken) consumer registry
  | @register message worker isNew text command hashed known =>
    refine attended.mono (fun task flying => flying) fun task flying key isKey tracked => ?_
    rw [WorkerRegistry.tracks_register]
    refine ⟨?_, tracked⟩
    rintro rfl
    have named : (message.get "worker_id" .null).key? = some worker.key := by
      simp [Json.key?, hashed]
    exact attentive.2 command worker.key named task flying isKey
  | heartbeat command hashed =>
    exact same rfl fun worker id => WorkerRegistry.tracks_recordHeartbeat _ _
  | ackAborted command admitted named found fails =>
    exact attended.completed (by rw [QueueManager.ledger_acknowledge distinct found]) rfl
  | ack command admitted named found passes persisted =>
    obtain ⟨manager, registry, -⟩ := persisted.memory
    refine attended.completed ?_ registry
    rw [manager, QueueManager.ledger_acknowledge distinct found]
  | nackAborted command admitted named nacked fails =>
    obtain ⟨task, found, spec⟩ := QueueManager.negativeAcknowledge_some nacked
    exact attended.completed (spec.ledger_inFlight found) rfl
  | nack command admitted named nacked passes persisted =>
    obtain ⟨task, found, spec⟩ := QueueManager.negativeAcknowledge_some nacked
    obtain ⟨manager, registry, -⟩ := persisted.memory
    refine attended.completed ?_ registry
    rw [manager]
    exact spec.ledger_inFlight found
  | replayCut command opened found decodes unsaved =>
    refine same ?_ fun worker id => Iff.rfl
    simp only [QueueManager.ledger_enqueue]
  | replay command opened found decodes binds alive =>
    refine same ?_ fun worker id => Iff.rfl
    simp only [QueueManager.ledger_enqueue]
  | retry command closed named found =>
    exact same (QueueManager.retry_retries _ _).inFlight fun worker id => Iff.rfl
  | purge command opened counted persisted =>
    obtain ⟨manager, registry, -⟩ := persisted.memory
    exact same (by rw [manager]; rfl) fun worker id => by rw [registry]; rfl
  | evict ran ending => exact attended.evicted attentive ran
  | reset persisted =>
    obtain ⟨manager, -, -⟩ := persisted.memory
    intro task flying
    rw [manager] at flying
    exact absurd flying (Multiset.notMem_zero task)
  | replayAll ran =>
    have spec := (QueueManager.retries_of_retryEach ran).1
    exact same spec.inFlight fun worker id => Iff.rfl
  | crashWorker active =>
    exact same rfl fun worker id => WorkerRegistry.tracks_crashed active _
  -- the others touch neither tasks nor workers
  | _ => exact attended

end Step

/-! ## Whole runs -/

section Run

variable {config : Config} {platform : Platform}

/-- The step condition: a broker that is up is attentive. -/
def AttentiveStep (system : System) (event : Event) : Prop :=
  match system with
  | .running broker _ => broker.Attentive event.env.time event.action
  | .stopped _ => True

instance (system : System) (event : Event) : Decidable (AttentiveStep system event) :=
  match system with
  | .running _ _ => inferInstanceAs (Decidable (Broker.Attentive _ _ _))
  | .stopped _ => .isTrue trivial

theorem attended_preserved :
    Preserved config platform
      (fun events system event => DrawsFresh events system event ∧ AttentiveStep system event)
      (fun events c => c.Sound config platform (drawn events) ∧ c.Attended)
      (fun events disk => disk.Sound platform (drawn events) ∧
        (config.persistent = false → disk = {})) := by
  refine .ofMemory And.left ?_ ?_ ?_
  · rintro events broker disk event r c - sound attended ⟨-, attentive⟩ effect
    exact Core.Attended.effect (m := { broker, disk, crashIn := event.crashIn }) attended
      sound.distinct attentive effect
  · intro events disk event c _ _ _ recovery task flying
    rw [recovery.frame.1] at flying
    exact absurd flying (Multiset.notMem_zero task)
  · intro events disk event _ _ task flying
    exact absurd flying (Multiset.notMem_zero task)

/-- A pass that reaches the worker which attends a task requeues the task. -/
theorem requeued_of_expired {registry : WorkerRegistry} {qm : QueueManager} {order : SetOrder}
    {now : Rat} {task : Task} {info : WorkerInfo} (flying : task ∈ qm.inFlight)
    (registered : info ∈ registry.workers) (tracked : task.taskId ∈ info.inFlightTasks)
    (silent : WorkerRegistry.expired now info = true)
    (completes : (evictDeadWorkers order now registry qm).1 = .ok ()) :
    task.release ∈ (evictDeadWorkers order now registry qm).2.2.pending := by
  obtain ⟨spec, -, complete⟩ := evictDeadWorkers_spec
    (rfl : evictDeadWorkers order now registry qm = _)
  rw [complete.mp completes] at spec
  exact (spec.returns.mem_pending _).mpr
    (Or.inr ⟨task, flying, ⟨info, List.mem_filter.mpr ⟨registered, silent⟩, tracked⟩, rfl⟩)

/-- **No orphaned in-flight task**, in the runs whose steps are attentive: the worker that a
task is assigned to is registered and has the task, and a pass that completes after the
worker fell silent requeues it. -/
theorem inFlight_attended {events : List Event} {broker : Broker} {disk : Database}
    (fresh : FreshIds events)
    (attentive : Trace.EachStep (step config platform) System.initial
      (fun _ system event => AttentiveStep system event) events)
    (position : reach config platform events = .running broker disk) :
    ∀ task ∈ broker.queueManager.inFlight, ∃ worker info,
      task.assignedWorker.key? = some worker ∧
        broker.workerRegistry.workers.find? worker = some info ∧
        task.taskId ∈ info.inFlightTasks ∧
        ∀ order now, WorkerRegistry.expired now info = true →
          (evictDeadWorkers order now broker.workerRegistry broker.queueManager).1 = .ok () →
          task.release ∈
            (evictDeadWorkers order now broker.workerRegistry broker.queueManager).2.2.pending := by
  have holds := (@attended_preserved config platform).holds ⟨Database.sound_empty, fun _ => rfl⟩
    (fresh.drawsFresh.and attentive)
  rw [position] at holds
  intro task flying
  obtain ⟨worker, isWorker, info, found, tracked⟩ := holds.2 task flying
  refine ⟨worker, info, isWorker, found, tracked, fun order now silent completes => ?_⟩
  exact requeued_of_expired flying (Table.mem_of_find? found) tracked silent completes

end Run

/-- A worker that never registered gets a task. -/
def orphanRun : List Event :=
  [.at 0 .start, .at 1 (.produce "q" "p"), .at 2 (.consume "q" "w")]

/-- **The orphan.**  No worker is registered, so no eviction pass will ever requeue the task. -/
theorem unregistered_consumer_orphans :
    ∃ broker disk, reach { persistent := false } .plain orphanRun = .running broker disk ∧
      ∃ task ∈ broker.queueManager.inFlight, ¬∃ worker info,
        task.assignedWorker.key? = some worker ∧
          broker.workerRegistry.workers.find? worker = some info ∧
          task.taskId ∈ info.inFlightTasks := by
  obtain ⟨broker, disk, position, passed⟩ :=
    System.of_passes (show (reach { persistent := false } .plain orphanRun).passes
      (fun broker _ => broker.queueManager.inFlight.rows ≠ [] ∧
        broker.workerRegistry.workers.rows = []) = true by decide +kernel)
  obtain ⟨flies, nobody⟩ := of_decide_eq_true passed
  obtain ⟨task, flying⟩ := List.exists_mem_of_ne_nil _ flies
  refine ⟨broker, disk, position, task, flying, ?_⟩
  rintro ⟨worker, info, -, found, -⟩
  have stored : info ∈ broker.workerRegistry.workers.rows := Table.mem_of_find? found
  rw [nobody] at stored
  cases stored

/-- A worker registers, gets a task, falls silent and is evicted, and another one registers
and gets the task. -/
def attendedRun : List Event :=
  [.at 0 .start, .at 1 (.produce "q" "p"), .at 2 (.register "w"), .at 3 (.consume "q" "w"),
    .at 20 (.evict .insertion), .at 21 (.register "v"), .at 22 (.consume "q" "v")]

theorem inFlight_attended_after_eviction :
    ∃ broker disk, reach { persistent := false } .plain attendedRun = .running broker disk ∧
      broker.queueManager.inFlightCount = 1 ∧
      ∀ task ∈ broker.queueManager.inFlight, ∃ worker info,
        task.assignedWorker.key? = some worker ∧
          broker.workerRegistry.workers.find? worker = some info ∧
          task.taskId ∈ info.inFlightTasks := by
  obtain ⟨broker, disk, position, passed⟩ :=
    System.of_passes (show (reach { persistent := false } .plain attendedRun).passes
      (fun broker _ => broker.queueManager.inFlightCount = 1) = true by decide +kernel)
  have attentive := @Trace.eachStep_of_all _ _ _ (step { persistent := false } .plain)
    System.initial AttentiveStep _ attendedRun (by decide +kernel)
  refine ⟨broker, disk, position, of_decide_eq_true passed, fun task flying => ?_⟩
  obtain ⟨worker, info, isWorker, found, tracked, -⟩ :=
    inFlight_attended (by decide +kernel) attentive position task flying
  exact ⟨worker, info, isWorker, found, tracked⟩

end DistroSync
