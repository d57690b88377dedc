import DistroSync.Tracking

/-!
# Eviction and live workers

An eviction pass requeues the ids that the registry has for the workers it removes,
whoever the tasks are assigned to.  An id is taken off a worker only when an ACK or a
NACK names that worker; the documented message format does not even have the field.
So an id can be left behind with a worker whose NACK sent the task back to its queue,
and when the task has been delivered to another worker, the eviction of the first one
takes it away from the second.

If every NACK names the workers that have the task, nothing is left behind, and a pass
requeues only tasks of the workers it removes (`evicted_from_owner`).  An ACK may name
anybody: an acknowledged task never comes back.
-/

namespace DistroSync

open Keyed Py

/-- A NACK of a task in flight names every worker that has it. -/
def Broker.NamesOwner (broker : Broker) : Action → Prop
  | .command message => commandOf message = some .nack →
      ∀ worker ∈ broker.workerRegistry.workers.rows, ∀ id ∈ worker.inFlightTasks,
        (message.get "task_id" .null).scalar? = some (.str id) →
        (broker.queueManager.inFlight.find? id).isSome = true →
        (message.get "worker_id" (.str "")).key? = some worker.key
  | _ => True

instance (broker : Broker) (action : Action) : Decidable (broker.NamesOwner action) :=
  match action with
  | .command _ => inferInstanceAs (Decidable (_ → _))
  | .evict _ => .isTrue trivial
  | .reset => .isTrue trivial
  | .replayAll => .isTrue trivial
  | .crashWorker _ => .isTrue trivial
  | .crash => .isTrue trivial
  | .start => .isTrue trivial

/-- The registry has a task that may still be delivered for the worker it is assigned to
only. -/
structure Core.Tight (used : List String) (c : Core) : Prop where
  known : ∀ worker id, c.workerRegistry.Tracks worker id → id ∈ used
  idle : ∀ task, task ∈ c.queueManager.ledger.pending ∨ task ∈ c.queueManager.ledger.dead →
    ∀ worker, ¬c.workerRegistry.Tracks worker task.taskId
  own : ∀ task ∈ c.queueManager.ledger.inFlight, ∀ worker,
    c.workerRegistry.Tracks worker task.taskId → task.assignedWorker.key? = some worker

namespace Core.Tight

variable {platform : Platform} {env : Env} {m : Machine} {action : Action}
  {r : Except Stop Outcome} {c c' : Core} {used : List String} {id : String}

/-- Nothing new is tracked, and no id goes where it is not. -/
theorem mono (tight : c.Tight used)
    (tracks : ∀ worker id, c'.workerRegistry.Tracks worker id → c.workerRegistry.Tracks worker id)
    (idle : ∀ task, task ∈ c'.queueManager.ledger.pending ∨ task ∈ c'.queueManager.ledger.dead →
      ∃ old, (old ∈ c.queueManager.ledger.pending ∨ old ∈ c.queueManager.ledger.dead) ∧
        old.taskId = task.taskId)
    (flying : ∀ task ∈ c'.queueManager.ledger.inFlight,
      task ∈ c.queueManager.ledger.inFlight) : c'.Tight (used ++ [id]) where
  known worker taskId tracked := List.mem_append_left _ (tight.known worker taskId
    (tracks worker taskId tracked))
  idle task inside worker tracked := by
    obtain ⟨old, before, same⟩ := idle task inside
    exact tight.idle old before worker (same ▸ tracks worker _ tracked)
  own task inFlight worker tracked :=
    tight.own task (flying task inFlight) worker (tracks worker _ tracked)

/-- A new task has an id that nobody has. -/
theorem created (tight : c.Tight used) {task : Task} (fresh : task.taskId ∉ used)
    (registry : c'.workerRegistry = c.workerRegistry)
    (ledger : c'.queueManager.ledger =
      { c.queueManager.ledger with pending := task ::ₘ c.queueManager.ledger.pending }) :
    c'.Tight (used ++ [id]) where
  known worker taskId tracked := by
    rw [registry] at tracked
    exact List.mem_append_left _ (tight.known worker taskId tracked)
  idle other inside worker tracked := by
    rw [registry] at tracked
    simp only [ledger, Multiset.mem_cons] at inside
    rcases inside with (rfl | pending) | dead
    · exact fresh (tight.known worker _ tracked)
    · exact tight.idle other (Or.inl pending) worker tracked
    · exact tight.idle other (Or.inr dead) worker tracked
  own other flying worker tracked := by
    rw [registry] at tracked
    simp only [ledger] at flying
    exact tight.own other flying worker tracked

/-- A delivered task is tracked for the worker it is assigned to. -/
theorem delivered (tight : c.Tight used) (distinct : c.queueManager.Distinct) {queue : Scalar}
    {workerId : Json} {task : Task}
    (known : ∀ task ∈ c.queueManager.ledger.pending, task.taskId ∈ used)
    (taken : c.queueManager.dequeue queue workerId = (some task, c'.queueManager))
    (tracks : ∀ worker id, c'.workerRegistry.Tracks worker id →
      c.workerRegistry.Tracks worker id ∨ workerId.key? = some worker ∧ id = task.taskId) :
    c'.Tight (used ++ [id]) := by
  obtain ⟨head, rest, rfl, split, ledger⟩ := QueueManager.ledger_dequeue_some distinct taken
  have headIn : head ∈ c.queueManager.ledger.pending := by
    rw [split]
    exact Multiset.mem_cons_self _ _
  constructor
  · intro worker taskId tracked
    refine List.mem_append_left _ ?_
    rcases tracks worker taskId tracked with old | ⟨-, rfl⟩
    · exact tight.known worker taskId old
    · exact known head headIn
  · intro other inside worker tracked
    simp only [ledger] at inside
    have apart : other.taskId ≠ head.taskId := by
      rcases inside with pending | dead
      · exact distinct.ne_of_pending split pending
      · exact (distinct.apart.pending_dead head headIn other dead).symm
    have before : other ∈ c.queueManager.ledger.pending ∨ other ∈ c.queueManager.ledger.dead := by
      rw [split]
      exact inside.imp_left Multiset.mem_cons_of_mem
    rcases tracks worker _ tracked with old | ⟨-, same⟩
    · exact tight.idle other before worker old
    · exact apart same
  · intro other flying worker tracked
    simp only [ledger, Multiset.mem_cons] at flying
    rcases flying with rfl | old
    · rcases tracks worker _ tracked with before | ⟨isWorker, -⟩
      · exact absurd before (tight.idle head (Or.inl headIn) worker)
      · exact isWorker
    · rcases tracks worker _ tracked with before | ⟨-, same⟩
      · exact tight.own other old worker before
      · exact absurd same.symm (distinct.apart.pending_inFlight head headIn other old)

/-- A task that a NACK sends to a queue or to the dead letters is tracked no more. -/
theorem released (tight : m.core.Tight used) (distinct : m.broker.queueManager.Distinct)
    {message : Message} {taskId : String} {nackAction : NackAction} {task : Task}
    (command : commandOf message = some .nack)
    (named : message.get "task_id" .null = .str taskId)
    (names : m.broker.NamesOwner (.command message))
    (nacked : m.broker.queueManager.negativeAcknowledge env.time taskId =
      (some (nackAction, task), c.queueManager))
    (registry : c.workerRegistry = (completion env m.broker.workerRegistry message taskId).2) :
    c.Tight (used ++ [id]) := by
  obtain ⟨origin, found, spec⟩ := QueueManager.negativeAcknowledge_some nacked
  have isId : origin.taskId = taskId := Table.key_of_find? found
  have untracked (worker : Key) : ¬c.workerRegistry.Tracks worker taskId := by
    rw [registry, WorkerRegistry.tracks_completion]
    rintro ⟨⟨info, isWorker, inside⟩, spared⟩
    refine spared ⟨?_, rfl⟩
    have isKey : info.key = worker := Table.key_of_find? isWorker
    rw [← isKey]
    exact names command info (Table.mem_of_find? isWorker) taskId inside (by rw [named]; rfl)
      (by rw [found]; rfl)
  have tracks (worker : Key) (other : String) (tracked : c.workerRegistry.Tracks worker other) :
      m.broker.workerRegistry.Tracks worker other := by
    rw [registry, WorkerRegistry.tracks_completion] at tracked
    exact tracked.1
  have inFlight := spec.ledger_inFlight found
  constructor
  · intro worker other tracked
    exact List.mem_append_left _ (tight.known worker other (tracks worker other tracked))
  · intro other inside worker tracked
    have cases : other.taskId = taskId ∨ (other ∈ m.broker.queueManager.ledger.pending ∨
        other ∈ m.broker.queueManager.ledger.dead) := by
      cases nackAction with
      | deadLettered =>
        simp only [QueueManager.ledger_buried distinct found spec, Multiset.mem_cons] at inside
        rcases inside with pending | rfl | dead
        · exact Or.inr (Or.inl pending)
        · exact Or.inl isId
        · exact Or.inr (Or.inr dead)
      | requeued =>
        simp only [QueueManager.ledger_requeued found spec, Multiset.mem_cons] at inside
        rcases inside with (rfl | pending) | dead
        · exact Or.inl isId
        · exact Or.inr (Or.inl pending)
        · exact Or.inr (Or.inr dead)
    rcases cases with same | old
    · exact untracked worker (same ▸ tracked)
    · exact tight.idle other old worker (tracks worker _ tracked)
  · intro other flying worker tracked
    rw [inFlight] at flying
    exact tight.own other (Table.mem_erase.mp flying).1 worker (tracks worker _ tracked)

/-- What a pass requeues was assigned to a worker that it removed. -/
theorem owner (tight : m.core.Tight used) {now : Rat} {task : Task}
    (flying : task ∈ m.broker.queueManager.ledger.inFlight)
    (taken : ∃ worker ∈ QueueManager.processed (m.broker.workerRegistry.deadWorkers now),
      task.taskId ∈ worker.inFlightTasks) :
    ∃ worker ∈ m.broker.workerRegistry.deadWorkers now,
      task.assignedWorker.key? = some worker.key := by
  obtain ⟨worker, processed, inside⟩ := taken
  have dead : worker ∈ m.broker.workerRegistry.deadWorkers now :=
    (List.takeWhile_sublist _).subset processed
  have stored : worker ∈ m.broker.workerRegistry.workers := (List.mem_filter.mp dead).1
  exact ⟨worker, dead, tight.own task flying worker.key ⟨worker, Table.find?_of_mem stored, inside⟩⟩

/-- A requeued task is tracked no more: the one worker that had it was removed. -/
theorem evicted (tight : m.core.Tight used) {order : SetOrder} {now : Rat}
    {result : Except Error Unit}
    (ran : evictDeadWorkers order now m.broker.workerRegistry m.broker.queueManager =
      (result, c.workerRegistry, c.queueManager)) : c.Tight (used ++ [id]) := by
  obtain ⟨spec, workers, -⟩ := evictDeadWorkers_spec ran
  have tracks {worker : Key} {other : String} (tracked : c.workerRegistry.Tracks worker other) :=
    (WorkerRegistry.tracks_dropDead now workers).mp tracked
  have same : c.queueManager.ledger.dead = m.broker.queueManager.ledger.dead :=
    congrArg (fun dlq : DeadLetterQueue => (dlq.tasks.rows : Multiset Task)) spec.deadLetterQueue
  constructor
  · intro worker other tracked
    exact List.mem_append_left _ (tight.known worker other (tracks tracked).1)
  · intro task inside worker tracked
    rw [spec.returns.mem_pending, same] at inside
    obtain ⟨old, spared⟩ := tracks tracked
    rcases inside with (pending | ⟨origin, flying, taken, rfl⟩) | dead
    · exact tight.idle task (Or.inl pending) worker old
    · obtain ⟨dead, removed, isOwner⟩ := tight.owner flying taken
      have isWorker := tight.own origin flying worker old
      rw [isOwner] at isWorker
      exact spared dead removed (Option.some.inj isWorker)
    · exact tight.idle task (Or.inr dead) worker old
  · intro task flying worker tracked
    exact tight.own task ((spec.returns.mem_source task).mp flying).1 worker (tracks tracked).1

/-- The registry changes, and tracks nothing new. -/
theorem registryChanged (tight : c.Tight used)
    (tracks : ∀ worker id, c'.workerRegistry.Tracks worker id → c.workerRegistry.Tracks worker id)
    (ledger : c'.queueManager.ledger = c.queueManager.ledger) : c'.Tight (used ++ [id]) := by
  refine tight.mono tracks ?_ ?_
  · intro task inside
    rw [ledger] at inside
    exact ⟨task, inside, rfl⟩
  · intro task flying
    rwa [ledger] at flying

/-- Neither the tasks nor the registry change. -/
theorem untouched (tight : c.Tight used) (registry : c'.workerRegistry = c.workerRegistry)
    (ledger : c'.queueManager.ledger = c.queueManager.ledger) : c'.Tight (used ++ [id]) :=
  tight.registryChanged (fun worker id tracked => by rwa [registry] at tracked) ledger

/-- Dead letters go back to their queues: they were not tracked and are not now. -/
theorem retried (tight : c.Tight used) {taken : String → Prop}
    (registry : c'.workerRegistry = c.workerRegistry)
    (spec : QueueManager.Retries taken c.queueManager c'.queueManager) :
    c'.Tight (used ++ [id]) := by
  refine tight.mono (fun worker id tracked => by rwa [registry] at tracked) ?_ ?_
  · intro task inside
    rw [spec.returns.mem_pending, spec.returns.mem_source] at inside
    rcases inside with (pending | ⟨origin, dead, -, rfl⟩) | ⟨dead, -⟩
    · exact ⟨task, Or.inl pending, rfl⟩
    · exact ⟨origin, Or.inr dead, rfl⟩
    · exact ⟨task, Or.inr dead, rfl⟩
  · intro task flying
    rwa [spec.inFlight] at flying

/-- An acknowledged task is out of flight for good, so it does not matter who still has it. -/
theorem acknowledged (tight : m.core.Tight used) (distinct : m.broker.queueManager.Distinct)
    {message : Message} {taskId : String} {task : Task}
    (found : m.broker.queueManager.inFlight.find? taskId = some task)
    (manager : c.queueManager = (m.broker.queueManager.acknowledge taskId).2)
    (registry : c.workerRegistry = (completion env m.broker.workerRegistry message taskId).2) :
    c.Tight (used ++ [id]) := by
  have ledger := QueueManager.ledger_acknowledge distinct found
  rw [← manager] at ledger
  refine tight.mono ?_ ?_ ?_
  · intro worker other tracked
    rw [registry, WorkerRegistry.tracks_completion] at tracked
    exact tracked.1
  · intro other inside
    rw [ledger] at inside
    exact ⟨other, inside, rfl⟩
  · intro other flying
    rw [ledger] at flying
    exact (Table.mem_erase.mp flying).1

/-- Dead letters are purged. -/
theorem purged (tight : c.Tight used) (registry : c'.workerRegistry = c.workerRegistry)
    (pending : c'.queueManager.ledger.pending = c.queueManager.ledger.pending)
    (inFlight : c'.queueManager.ledger.inFlight = c.queueManager.ledger.inFlight)
    (dead : c'.queueManager.ledger.dead ≤ c.queueManager.ledger.dead) :
    c'.Tight (used ++ [id]) := by
  refine tight.mono (fun worker id tracked => by rwa [registry] at tracked) ?_ ?_
  · rintro task (isPending | isDead)
    · exact ⟨task, Or.inl (pending ▸ isPending), rfl⟩
    · exact ⟨task, Or.inr (Multiset.mem_of_le dead isDead), rfl⟩
  · intro task flying
    rwa [inFlight] at flying

/-- A reset drops every task, and leaves the registry as it is. -/
theorem emptied (tight : c.Tight used) (registry : c'.workerRegistry = c.workerRegistry)
    (pending : c'.queueManager.ledger.pending = 0)
    (inFlight : c'.queueManager.ledger.inFlight = 0) (dead : c'.queueManager.ledger.dead = 0) :
    c'.Tight (used ++ [id]) := by
  refine tight.mono (fun worker id tracked => by rwa [registry] at tracked) ?_ ?_
  · rintro task (isPending | isDead)
    · rw [pending] at isPending
      exact absurd isPending (Multiset.notMem_zero task)
    · rw [dead] at isDead
      exact absurd isDead (Multiset.notMem_zero task)
  · intro task flying
    rw [inFlight] at flying
    exact absurd flying (Multiset.notMem_zero task)

/-- **One action** keeps the registry tight, if a NACK names the owner. -/
theorem effect {config : Config} (tight : m.core.Tight used)
    (sound : m.core.Sound config platform used) (fresh : env.uuid.text ∉ used)
    (names : m.broker.NamesOwner action) (effect : Effect platform env m action r c) :
    c.Tight (used ++ [env.uuid.text]) := by
  have distinct : m.broker.queueManager.Distinct := sound.distinct
  have pendingKnown : ∀ task ∈ m.core.queueManager.ledger.pending, task.taskId ∈ used :=
    fun task pending => sound.mem_used (Or.inl pending)
  cases effect with
  | produce command admitted named hashed persisted =>
    obtain ⟨manager, registry, -⟩ := persisted.memory
    exact tight.created fresh registry (by rw [manager, QueueManager.ledger_enqueue]; rfl)
  | consumeEmpty command hashed taken =>
    exact tight.untouched rfl (QueueManager.ledger_dequeue_none taken)
  | consumeUnhashable command admitted hashed taken unhashable =>
    exact tight.delivered distinct pendingKnown taken fun worker id tracked => Or.inl tracked
  | @consume message queue worker task qm r c command admitted hashed taken consumer persisted =>
    obtain ⟨manager, registry, -⟩ := persisted.memory
    refine tight.delivered distinct pendingKnown (by rw [manager]; exact taken) ?_
    intro other id tracked
    rw [registry, WorkerRegistry.tracks_assignTask] at tracked
    rcases tracked with old | ⟨-, rfl, rfl⟩
    · exact Or.inl old
    · exact Or.inr ⟨by simp [Json.key?, consumer], rfl⟩
  | register command hashed known =>
    refine tight.registryChanged (fun worker id tracked => ?_) rfl
    exact ((WorkerRegistry.tracks_register _ _ _).mp tracked).2
  | heartbeat command hashed =>
    refine tight.registryChanged (fun worker id tracked => ?_) rfl
    exact (WorkerRegistry.tracks_recordHeartbeat _ _).mp tracked
  | ackAborted command admitted named found fails =>
    exact tight.acknowledged distinct found rfl rfl
  | ack command admitted named found passes persisted =>
    obtain ⟨manager, registry, -⟩ := persisted.memory
    exact tight.acknowledged distinct found manager registry
  | nackAborted command admitted named nacked fails =>
    exact tight.released distinct command named names nacked rfl
  | nack command admitted named nacked passes persisted =>
    obtain ⟨manager, registry, -⟩ := persisted.memory
    exact tight.released distinct command named names (by rw [manager]; exact nacked) registry
  | replayCut command opened found decodes unsaved =>
    exact tight.created fresh rfl (QueueManager.ledger_enqueue _ _ _ _ _)
  | replay command opened found decodes binds alive =>
    exact tight.created fresh rfl (QueueManager.ledger_enqueue _ _ _ _ _)
  | retry command closed named found => exact tight.retried rfl (QueueManager.retry_retries _ _)
  | purge command opened counted persisted =>
    obtain ⟨manager, registry, -⟩ := persisted.memory
    exact tight.untouched registry (congrArg QueueManager.ledger manager)
  | purgeMemory command closed purged => exact tight.purged rfl rfl rfl (purged_le purged)
  | evict ran ending => exact tight.evicted ran
  | reset persisted =>
    obtain ⟨manager, registry, -⟩ := persisted.memory
    exact tight.emptied registry (congrArg (fun qm => qm.ledger.pending) manager)
      (congrArg (fun qm => qm.ledger.inFlight) manager)
      (congrArg (fun qm => qm.ledger.dead) manager)
  | replayAll ran =>
    have spec := (QueueManager.retries_of_retryEach ran).1
    exact tight.retried rfl spec
  | crashWorker active =>
    refine tight.registryChanged (fun worker id tracked => ?_) rfl
    exact (WorkerRegistry.tracks_crashed active _).mp tracked
  -- the others touch neither tasks nor workers
  | _ => exact tight.untouched rfl rfl

end Core.Tight

/-! ## Whole runs -/

section Run

variable {config : Config} {platform : Platform}

/-- The step condition: a broker that is up gets no NACK that leaves the owner out. -/
def NamesOwnerStep (system : System) (event : Event) : Prop :=
  match system with
  | .running broker _ => broker.NamesOwner event.action
  | .stopped _ => True

instance (system : System) (event : Event) : Decidable (NamesOwnerStep system event) :=
  match system with
  | .running _ _ => inferInstanceAs (Decidable (Broker.NamesOwner _ _))
  | .stopped _ => .isTrue trivial

/-- A broker that has just been started tracks nothing. -/
theorem Core.Tight.started {used : List String} {c : Core} (registry : c.workerRegistry = {})
    (inFlight : c.queueManager.ledger.inFlight = 0) : c.Tight used := by
  have nothing (worker : Key) (id : String) : ¬c.workerRegistry.Tracks worker id := by
    rw [registry]
    rintro ⟨info, found, -⟩
    cases found
  refine ⟨fun worker id tracked => absurd tracked (nothing worker id),
    fun task _ worker => nothing worker task.taskId, fun task flying => ?_⟩
  rw [inFlight] at flying
  exact absurd flying (Multiset.notMem_zero task)

theorem tight_preserved :
    Preserved config platform
      (fun events system event => DrawsFresh events system event ∧ NamesOwnerStep system event)
      (fun events c => c.Sound config platform (drawn events) ∧ c.Tight (drawn events))
      (fun events disk => disk.Sound platform (drawn events) ∧
        (config.persistent = false → disk = {})) := by
  refine .ofMemory And.left ?_ ?_ ?_
  · rintro events broker disk event r c - sound tight ⟨fresh, names⟩ effect
    rw [drawn_concat]
    exact Core.Tight.effect (m := { broker, disk, crashIn := event.crashIn }) tight sound fresh
      names effect
  · intro events disk event c _ _ _ recovery
    obtain ⟨inFlight, -, registry⟩ := recovery.frame
    exact .started registry inFlight
  · intro events disk event _ _
    exact .started rfl rfl

/-- **Eviction never takes a task away from a live worker**, in the runs whose NACKs name the
owner: a task that a pass moves from in flight back to pending was assigned to a worker that
the pass removed. -/
theorem evicted_from_owner {events : List Event} {broker : Broker} {disk : Database}
    (fresh : FreshIds events)
    (names : Trace.EachStep (step config platform) System.initial
      (fun _ system event => NamesOwnerStep system event) events)
    (position : reach config platform events = .running broker disk)
    (order : SetOrder) (now : Rat) {task back : Task}
    (flying : task ∈ broker.queueManager.inFlight)
    (requeued : back ∈
      (evictDeadWorkers order now broker.workerRegistry broker.queueManager).2.2.pending)
    (same : back.taskId = task.taskId) :
    ∃ worker ∈ broker.workerRegistry.deadWorkers now,
      task.assignedWorker.key? = some worker.key := by
  have holds := (@tight_preserved config platform).holds ⟨Database.sound_empty, fun _ => rfl⟩
    (fresh.drawsFresh.and names)
  rw [position] at holds
  obtain ⟨sound, tight⟩ := holds
  obtain ⟨spec, -, -⟩ := evictDeadWorkers_spec
    (rfl : evictDeadWorkers order now broker.workerRegistry broker.queueManager = _)
  rcases (spec.returns.mem_pending back).mp requeued with pending | ⟨origin, flew, taken, rfl⟩
  · exact absurd same (sound.distinct.apart.pending_inFlight back pending task flying)
  · have isTask : origin = task := broker.queueManager.inFlight.eq_of_key_eq flew flying same
    subst isTask
    exact Core.Tight.owner (m := { broker, disk }) tight flying taken

end Run

/-- The task of a silent worker, that went back to its queue by a NACK which does not name
the worker, is delivered to a worker that is heard of. -/
def staleRun : List Event :=
  [.at 0 .start, .at 1 (.register "silent"), .at 2 (.register "live"), .at 3 (.produce "q" "p"),
    .at 4 (.consume "q" "silent"), .at 5 (.nack (idAt 3)), .at 6 (.consume "q" "live"),
    .at 9 (.heartbeat "live")]

/-- **The theft.**  A pass ten seconds after the start requeues the task of the live worker,
and does not remove that worker. -/
theorem stale_record_evicts_live_task :
    ∃ broker disk, reach { persistent := false } .plain staleRun = .running broker disk ∧
      ∃ task ∈ broker.queueManager.inFlight,
        ∃ back ∈ (evictDeadWorkers .insertion 10 broker.workerRegistry
          broker.queueManager).2.2.pending,
        back.taskId = task.taskId ∧
          ¬∃ worker ∈ broker.workerRegistry.deadWorkers 10,
            task.assignedWorker.key? = some worker.key := by
  obtain ⟨broker, disk, position, passed⟩ :=
    System.of_passes (show (reach { persistent := false } .plain staleRun).passes
      (fun broker _ => ∃ task ∈ broker.queueManager.inFlight.rows,
        ∃ back ∈ (evictDeadWorkers .insertion 10 broker.workerRegistry
          broker.queueManager).2.2.pending,
        back.taskId = task.taskId ∧
          ¬∃ worker ∈ broker.workerRegistry.deadWorkers 10,
            task.assignedWorker.key? = some worker.key) = true by decide +kernel)
  exact ⟨broker, disk, position, of_decide_eq_true passed⟩

/-- The same run with a NACK that names the worker, until that worker gets the task again. -/
def ownRun : List Event :=
  [.at 0 .start, .at 1 (.register "silent"), .at 2 (.produce "q" "p"),
    .at 3 (.consume "q" "silent"), .at 4 (.nackBy (idAt 2) "silent"),
    .at 5 (.consume "q" "silent")]

theorem evicted_from_owner_own :
    ∃ broker disk, reach { persistent := false } .plain ownRun = .running broker disk ∧
      ∃ task ∈ broker.queueManager.inFlight,
        ∃ back ∈ (evictDeadWorkers .insertion 10 broker.workerRegistry
          broker.queueManager).2.2.pending,
        back.taskId = task.taskId ∧
          ∃ worker ∈ broker.workerRegistry.deadWorkers 10,
            task.assignedWorker.key? = some worker.key := by
  obtain ⟨broker, disk, position, passed⟩ :=
    System.of_passes (show (reach { persistent := false } .plain ownRun).passes
      (fun broker _ => ∃ task ∈ broker.queueManager.inFlight.rows,
        ∃ back ∈ (evictDeadWorkers .insertion 10 broker.workerRegistry
          broker.queueManager).2.2.pending, back.taskId = task.taskId) = true by decide +kernel)
  obtain ⟨task, flying, back, requeued, same⟩ := of_decide_eq_true passed
  have names := @Trace.eachStep_of_all _ _ _ (step { persistent := false } .plain)
    System.initial NamesOwnerStep _ ownRun (by decide +kernel)
  exact ⟨broker, disk, position, task, flying, back, requeued, same,
    evicted_from_owner (by decide +kernel) names position .insertion 10 flying requeued same⟩

end DistroSync
