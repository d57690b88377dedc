import DistroSync.Attempts

/-!
# The balance of the counters

The counters of the queue manager, of its dead letter queue and of the registry are
incremented one by one, on some branches of the operations.  Between two events they
balance: what was enqueued is pending, in flight, acknowledged, dead-lettered or
discarded, and every delivery was acknowledged, answered with a NACK, taken back by an
eviction, or is still out.

The balances speak of the sizes of containers.  They are therefore stated on the
ledger, where the operations are equations, and the counters are collected in
`Totals`, of which every operation says what it adds.
-/

namespace DistroSync

open Keyed Py

/-! ## Totals -/

/-- The counters of a queue manager. -/
@[ext] structure Totals where
  enqueued : Nat
  dequeued : Nat
  acked : Nat
  nacked : Nat
  deadLettered : Nat
  /-- `total_received` of the dead letter queue. -/
  received : Nat

namespace QueueManager

/-- The counters of the queue manager. -/
def totals (qm : QueueManager) : Totals where
  enqueued := qm.totalEnqueued
  dequeued := qm.totalDequeued
  acked := qm.totalAcked
  nacked := qm.totalNacked
  deadLettered := qm.totalDeadLettered
  received := qm.deadLetterQueue.totalReceived

variable {qm qm' : QueueManager}

@[simp] theorem totals_ensureQueue (qm : QueueManager) (name : Key) :
    (qm.ensureQueue name).totals = qm.totals := by
  unfold ensureQueue
  split <;> rfl

@[simp] theorem totals_append (qm : QueueManager) (task : Task) :
    (qm.append task).totals = qm.totals :=
  totals_ensureQueue qm task.queueName.key

@[simp] theorem totals_appendLeft (qm : QueueManager) (task : Task) :
    (qm.appendLeft task).totals = qm.totals :=
  totals_ensureQueue qm task.queueName.key

theorem totals_enqueueRecovered (qm : QueueManager) (queueName : Scalar) (taskId : String)
    (now : Rat) (payload : Json) (attempts : Nat) :
    (qm.enqueueRecovered queueName taskId now payload attempts).totals =
      { qm.totals with enqueued := qm.totals.enqueued + 1 } := by
  have same := totals_append qm { taskId, queueName, payload, createdAt := now, attempts }
  simp only [totals, Totals.mk.injEq] at same
  simp [enqueueRecovered, totals, same]

theorem totals_dequeue_none {queueName : Scalar} {workerId : Json}
    (taken : qm.dequeue queueName workerId = (none, qm')) : qm'.totals = qm.totals := by
  rcases dequeue_none taken with rfl | ⟨created, rfl⟩
  · rfl
  · exact totals_ensureQueue qm created

theorem totals_dequeue_some {queueName : Scalar} {workerId : Json} {task : Task}
    (taken : qm.dequeue queueName workerId = (some task, qm')) :
    qm'.totals = { qm.totals with dequeued := qm.totals.dequeued + 1 } := by
  obtain ⟨origin, name, created, popped⟩ := dequeue_some taken
  have same : origin.totals = qm.totals := by
    rcases created with rfl | ⟨created, rfl⟩
    · rfl
    · exact totals_ensureQueue qm created
  obtain ⟨head, rest, -, -, rfl⟩ := popLeft_some popped
  rw [← same]
  rfl

theorem totals_acknowledge {id : String} {task : Task}
    (found : qm.inFlight.find? id = some task) :
    (qm.acknowledge id).2.totals = { qm.totals with acked := qm.totals.acked + 1 } := by
  unfold acknowledge
  rw [found]
  rfl

/-- A NACK counts what it decides, for a task whose status says that it is in flight. -/
theorem totals_negativeAcknowledge {now : Rat} {id : String} {action : NackAction} {task : Task}
    (airborne : qm.ledger.Airborne)
    (nacked : qm.negativeAcknowledge now id = (some (action, task), qm')) :
    qm'.totals =
      match action with
      | .deadLettered =>
        { qm.totals with
          nacked := qm.totals.nacked + 1
          deadLettered := qm.totals.deadLettered + 1
          received := qm.totals.received + 1 }
      | .requeued => { qm.totals with nacked := qm.totals.nacked + 1 } := by
  unfold negativeAcknowledge nackBegin at nacked
  cases found : qm.inFlight.find? id with
  | none =>
    rw [found] at nacked
    cases nacked
  | some origin =>
    have flying : origin.status = .inFlight := airborne origin (Table.mem_of_find? found)
    rw [found] at nacked
    by_cases exhausted : qm.maxRetries ≤ origin.attempts
    · simp only [exhausted, if_true, nackFinish] at nacked
      cases nacked
      rfl
    · simp only [exhausted, if_false, nackFinish, flying, reduceCtorEq] at nacked
      cases nacked
      exact totals_appendLeft _ _

@[simp] theorem totals_requeueById (qm : QueueManager) (id : String) :
    (qm.requeueById id).2.totals = qm.totals := by
  unfold requeueById
  cases qm.inFlight.find? id with
  | none => rfl
  | some task => exact totals_appendLeft _ _

@[simp] theorem totals_retry (qm : QueueManager) (id : String) :
    (qm.retry id).2.totals = qm.totals := by
  unfold retry retryBegin
  cases qm.deadLetterQueue.tasks.find? id with
  | none => rfl
  | some task =>
    have same := totals_append
      { qm with deadLetterQueue := { qm.deadLetterQueue with
        tasks := qm.deadLetterQueue.tasks.erase id } } task.revive
    exact same

end QueueManager

/-! ## Balances -/

/-- The balances, when evictions took back `reassigned` tasks and `discarded` dead letters were
dropped from memory. -/
structure Balanced (reassigned discarded : Nat) (l : Ledger) (totals : Totals) : Prop where
  enqueued : totals.enqueued =
    l.pending.card + l.inFlight.card + totals.acked + l.dead.card + discarded
  dequeued : totals.dequeued = totals.acked + totals.nacked + l.inFlight.card + reassigned
  acked : totals.acked = l.completed.card
  deadLettered : totals.deadLettered = totals.received

section Operations

variable {reassigned discarded : Nat} {qm qm' : QueueManager}

/-- The queue manager balances. -/
def QueueManager.Balances (reassigned discarded : Nat) (qm : QueueManager) : Prop :=
  Balanced reassigned discarded qm.ledger qm.totals

theorem QueueManager.Balances.enqueueRecovered (balances : qm.Balances reassigned discarded)
    (queueName : Scalar) (taskId : String) (now : Rat) (payload : Json) (attempts : Nat) :
    (qm.enqueueRecovered queueName taskId now payload attempts).Balances reassigned discarded := by
  obtain ⟨enqueued, dequeued, acked, dead⟩ := balances
  unfold Balances
  rw [ledger_enqueueRecovered, totals_enqueueRecovered]
  refine ⟨?_, dequeued, acked, dead⟩
  simp only [Multiset.card_cons]
  omega

theorem QueueManager.Balances.enqueue (balances : qm.Balances reassigned discarded)
    (taskId : String) (now : Rat) (queueName : Scalar) (payload : Json) :
    (qm.enqueue taskId now queueName payload).Balances reassigned discarded :=
  balances.enqueueRecovered queueName taskId now payload 0

theorem QueueManager.Balances.dequeue_none (balances : qm.Balances reassigned discarded)
    {queueName : Scalar} {workerId : Json} (taken : qm.dequeue queueName workerId = (none, qm')) :
    qm'.Balances reassigned discarded := by
  unfold Balances
  rw [ledger_dequeue_none taken, totals_dequeue_none taken]
  exact balances

/-- A delivery moves one task from pending to in flight. -/
theorem QueueManager.Balances.dequeue_some (balances : qm.Balances reassigned discarded)
    (distinct : qm.Distinct) {queueName : Scalar} {workerId : Json} {task : Task}
    (taken : qm.dequeue queueName workerId = (some task, qm')) :
    qm'.Balances reassigned discarded := by
  obtain ⟨head, rest, -, split, ledger⟩ := ledger_dequeue_some distinct taken
  obtain ⟨enqueued, dequeued, acked, dead⟩ := balances
  unfold Balances
  rw [ledger, totals_dequeue_some taken]
  rw [split, Multiset.card_cons] at enqueued
  refine ⟨?_, ?_, acked, dead⟩
  · simp only [Multiset.card_cons]
    omega
  · simp only [Multiset.card_cons]
    omega

theorem QueueManager.Balances.acknowledge (balances : qm.Balances reassigned discarded)
    (distinct : qm.Distinct) {id : String} {task : Task}
    (found : qm.inFlight.find? id = some task) :
    (qm.acknowledge id).2.Balances reassigned discarded := by
  obtain ⟨enqueued, dequeued, acked, dead⟩ := balances
  have split := inFlight_of_find? found
  rw [split, Multiset.card_cons] at enqueued dequeued
  unfold Balances
  rw [ledger_acknowledge distinct found, totals_acknowledge found]
  refine ⟨?_, ?_, ?_, dead⟩
  · simp only
    omega
  · simp only
    omega
  · simp only [Multiset.card_cons]
    omega

/-- A NACK counts once, and the task is requeued or dead-lettered. -/
theorem QueueManager.Balances.negativeAcknowledge (balances : qm.Balances reassigned discarded)
    (distinct : qm.Distinct) (airborne : qm.ledger.Airborne) {now : Rat} {id : String}
    {action : NackAction} {task : Task}
    (nacked : qm.negativeAcknowledge now id = (some (action, task), qm')) :
    qm'.Balances reassigned discarded := by
  obtain ⟨enqueued, dequeued, acked, dead⟩ := balances
  obtain ⟨origin, found, spec⟩ := negativeAcknowledge_some nacked
  have split := inFlight_of_find? found
  rw [split, Multiset.card_cons] at enqueued dequeued
  unfold Balances
  rw [totals_negativeAcknowledge airborne nacked]
  cases action with
  | deadLettered =>
    rw [ledger_buried distinct found spec]
    refine ⟨?_, ?_, acked, ?_⟩
    · simp only [Multiset.card_cons]
      omega
    · simp only
      omega
    · simp only
      omega
  | requeued =>
    rw [ledger_requeued found spec]
    refine ⟨?_, ?_, acked, dead⟩
    · simp only [Multiset.card_cons]
      omega
    · simp only
      omega

/-- A task that goes back without a NACK counts as reassigned. -/
theorem QueueManager.Balances.requeueById (balances : qm.Balances reassigned discarded)
    (id : String) :
    (qm.requeueById id).2.Balances
      (if (qm.requeueById id).1 then reassigned + 1 else reassigned) discarded := by
  cases found : qm.inFlight.find? id with
  | none =>
    have missed : (qm.requeueById id).1 = false := by simp [QueueManager.requeueById, found]
    rw [missed, requeueById_of_absent found]
    exact balances
  | some task =>
    have taken : (qm.requeueById id).1 = true := by simp [QueueManager.requeueById, found]
    obtain ⟨enqueued, dequeued, acked, dead⟩ := balances
    have split := inFlight_of_find? found
    rw [split, Multiset.card_cons] at enqueued dequeued
    unfold Balances
    rw [taken, ledger_requeueById found, totals_requeueById]
    refine ⟨?_, ?_, acked, dead⟩
    · simp only [Multiset.card_cons]
      omega
    · simp only [if_true]
      omega

/-- An eviction is counted by the registry, not by the queue manager. -/
theorem QueueManager.Balances.requeueAll (ids : List String)
    (balances : qm.Balances reassigned discarded) :
    (requeueAll ids qm).2.Balances (reassigned + (DistroSync.requeueAll ids qm).1) discarded := by
  induction ids generalizing qm reassigned with
  | nil => exact balances
  | cons id rest ih =>
    have after := ih (balances.requeueById id)
    simp only [DistroSync.requeueAll]
    split_ifs with found
    · rw [if_pos found] at after
      rwa [Nat.add_assoc, Nat.add_comm 1] at after
    · rwa [if_neg found] at after

/-- The count of the registry follows the eviction pass, also one that raises. -/
theorem evictEach_balances (order : SetOrder) (workers : List WorkerInfo)
    (registry : WorkerRegistry)
    (balances : qm.Balances registry.totalTasksReassigned discarded) :
    (evictEach order workers (registry, qm)).2.2.Balances
      (evictEach order workers (registry, qm)).2.1.totalTasksReassigned discarded := by
  induction workers generalizing registry qm with
  | nil => exact balances
  | cons worker rest ih =>
    unfold evictEach
    split_ifs with sliceable
    · exact ih _ (balances.requeueAll _)
    · exact balances

/-- A retry takes from the dead letters what it adds to pending. -/
theorem QueueManager.Balances.retry (balances : qm.Balances reassigned discarded) (id : String) :
    (qm.retry id).2.Balances reassigned discarded := by
  cases found : qm.deadLetterQueue.tasks.find? id with
  | none =>
    rw [retry_of_absent found]
    exact balances
  | some task =>
    obtain ⟨enqueued, dequeued, acked, dead⟩ := balances
    have split : qm.ledger.dead =
        task ::ₘ ((qm.deadLetterQueue.tasks.erase id).rows : Multiset Task) :=
      Table.coe_rows_of_find? found
    rw [split, Multiset.card_cons] at enqueued
    unfold Balances
    rw [ledger_retry found, totals_retry]
    refine ⟨?_, dequeued, acked, dead⟩
    simp only [Multiset.card_cons]
    omega

theorem QueueManager.Balances.retryEach (ids : List String)
    (balances : qm.Balances reassigned discarded) :
    (DistroSync.retryEach ids qm).2.Balances reassigned discarded := by
  induction ids generalizing qm with
  | nil => exact balances
  | cons id rest ih => exact ih (balances.retry id)

end Operations

/-! ## Discarded dead letters -/

/-- Removing tasks one by one keeps those that are not named. -/
theorem rows_removeEach (ids : List String) (dlq : DeadLetterQueue) :
    (removeEach ids dlq).tasks.rows = dlq.tasks.rows.filter fun task => task.taskId ∉ ids := by
  induction ids generalizing dlq with
  | nil => simp [removeEach]
  | cons id rest ih =>
    rw [removeEach, ih]
    simp only [DeadLetterQueue.remove, Table.erase, Table.filter, List.filter_filter]
    refine List.filter_congr fun task _ => ?_
    simp [not_or, Bool.and_comm]

theorem totalReceived_removeEach (ids : List String) (dlq : DeadLetterQueue) :
    (removeEach ids dlq).totalReceived = dlq.totalReceived := by
  induction ids generalizing dlq with
  | nil => rfl
  | cons id rest ih => exact ih _

/-- The number that the purge of a volatile broker reports is the number of tasks it drops. -/
theorem card_purged {dlq dlq' : DeadLetterQueue} {queueName : Json} {count : Nat}
    (purged : (count, dlq') = if queueName.truthy then purgeQueue dlq queueName else dlq.purge) :
    dlq.tasks.rows.length = dlq'.tasks.rows.length + count ∧
      dlq'.totalReceived = dlq.totalReceived := by
  split at purged
  · cases purged
    have named (task : Task) (stored : task ∈ dlq.tasks.rows) :
        task.taskId ∈ (dlq.tasks.rows.filter fun task => task.inQueue queueName).map Task.taskId ↔
          task.inQueue queueName = true := by
      rw [List.mem_map]
      constructor
      · rintro ⟨other, inside, same⟩
        obtain ⟨storedToo, isNamed⟩ := List.mem_filter.mp inside
        rwa [← dlq.tasks.eq_of_key_eq storedToo stored same]
      · exact fun isNamed => ⟨task, List.mem_filter.mpr ⟨stored, isNamed⟩, rfl⟩
    have kept : (removeEach ((dlq.tasks.rows.filter fun task => task.inQueue queueName).map
        Task.taskId) dlq).tasks.rows =
          dlq.tasks.rows.filter fun task => !task.inQueue queueName := by
      rw [rows_removeEach]
      refine List.filter_congr fun task stored => ?_
      cases isNamed : task.inQueue queueName with
      | true => exact decide_eq_false (not_not.mpr ((named task stored).mpr isNamed))
      | false =>
        refine decide_eq_true fun inside => ?_
        rw [(named task stored).mp inside] at isNamed
        cases isNamed
    refine ⟨?_, totalReceived_removeEach _ _⟩
    rw [kept, List.length_map, Nat.add_comm]
    exact List.length_eq_length_filter_add fun task : Task => task.inQueue queueName
  · cases purged
    exact ⟨(Nat.zero_add _).symm, rfl⟩

/-! ## Steps -/

section Step

variable {platform : Platform} {env : Env} {m : Machine} {action : Action} {c : Core}
  {r : Except Stop Outcome} {discarded : Nat}

@[simp] theorem WorkerRegistry.totalTasksReassigned_recordLatencies (latencyMs : Rat)
    (names : List Json) (registry : WorkerRegistry) :
    (recordLatencies latencyMs names registry).2.totalTasksReassigned =
      registry.totalTasksReassigned := by
  induction names generalizing registry with
  | nil => rfl
  | cons name rest ih =>
    unfold recordLatencies
    cases name.key? with
    | none => rfl
    | some queue => exact ih _

theorem WorkerRegistry.totalTasksReassigned_completeTask (registry : WorkerRegistry) (worker : Key)
    (taskId : String) (now : Rat) :
    (registry.completeTask worker taskId now).2.totalTasksReassigned =
      registry.totalTasksReassigned := by
  unfold completeTask
  cases registry.workers.find? worker with
  | none => rfl
  | some info =>
    simp only
    cases info.taskStartTimes.find? taskId with
    | none => rfl
    | some entry =>
      cases info.queues.items? with
      | none => rfl
      | some names => simp

theorem totalTasksReassigned_completion (env : Env) (registry : WorkerRegistry) (message : Message)
    (id : String) :
    (completion env registry message id).2.totalTasksReassigned =
      registry.totalTasksReassigned := by
  unfold completion
  cases (message.get "worker_id" (.str "")).scalar? with
  | none => rfl
  | some worker => exact WorkerRegistry.totalTasksReassigned_completeTask _ _ _ _

theorem WorkerRegistry.totalTasksReassigned_assignTask (registry : WorkerRegistry) (worker : Key)
    (taskId : String) (now : Rat) :
    (registry.assignTask worker taskId now).totalTasksReassigned =
      registry.totalTasksReassigned := by
  unfold assignTask
  cases registry.workers.find? worker <;> rfl

theorem WorkerRegistry.totalTasksReassigned_recordHeartbeat (registry : WorkerRegistry)
    (worker : Key) (now : Rat) :
    (registry.recordHeartbeat worker now).2.totalTasksReassigned =
      registry.totalTasksReassigned := by
  unfold recordHeartbeat
  cases registry.workers.find? worker <;> rfl

/-- How an outcome changes the number of dead letters dropped from the memory of the process.
A persistent broker purges its table and not its memory; a crash drops the memory itself. -/
def Outcome.discards (persistent : Bool) (n : Nat) : Outcome → Nat
  | .answered (.purged count) => if persistent then n else n + count
  | .crashed => 0
  | _ => n

/-- The stores balance. -/
def Core.Balances (discarded : Nat) (c : Core) : Prop :=
  c.queueManager.Balances c.workerRegistry.totalTasksReassigned discarded

/-- Every store call at the end of a handler leaves the balance as the handler made it. -/
theorem Persist.balances {crashIn : Option Nat} {c c' : Core}
    {bound : Except Error (Database → Database)} {success : Outcome} {persistent : Bool}
    (persisted : Persist crashIn c bound success r c') (survived : r ≠ .error .crashed)
    (reports : success.discards persistent discarded = discarded)
    (balances : c.Balances discarded) :
    c'.Balances ((outcomeOf r).discards persistent discarded) := by
  cases persisted with
  | off absent => exact reports.symm ▸ balances
  | died present binds spent => exact absurd rfl survived
  | refused present fails => exact balances
  | committed present binds alive => exact reports.symm ▸ balances

theorem Silent.discards {persistent : Bool} (silent : Silent r) :
    (outcomeOf r).discards persistent discarded = discarded := by
  cases r with
  | error stop =>
    cases stop with
    | raised e => rfl
    | crashed => exact silent.elim
  | ok outcome =>
    cases outcome with
    | answered response => cases response <;> first | rfl | exact silent.elim
    | _ => exact silent.elim

/-- **Every event but a reset keeps the balances**, if the process survives it. -/
theorem Core.Balances.effect (balances : m.core.Balances discarded)
    (distinct : m.broker.queueManager.Distinct) (airborne : m.broker.queueManager.ledger.Airborne)
    (noReset : action ≠ .reset) (survived : r ≠ .error .crashed)
    (effect : Effect platform env m action r c) :
    c.Balances ((outcomeOf r).discards m.broker.walStore.isSome discarded) := by
  have before : m.broker.queueManager.Balances m.broker.workerRegistry.totalTasksReassigned
      discarded := balances
  cases effect with
  | quiet idle silent => exact silent.discards.symm ▸ balances
  | produce command admitted named hashed persisted =>
    exact persisted.balances survived rfl (before.enqueue _ _ _ _)
  | consumeEmpty command hashed taken => exact before.dequeue_none taken
  | consumeUnhashable command admitted hashed taken unhashable =>
    exact before.dequeue_some distinct taken
  | consume command admitted hashed taken consumer persisted =>
    refine persisted.balances survived rfl ?_
    unfold Core.Balances
    rw [WorkerRegistry.totalTasksReassigned_assignTask]
    exact before.dequeue_some distinct taken
  | heartbeat command hashed =>
    unfold Core.Balances
    rw [WorkerRegistry.totalTasksReassigned_recordHeartbeat]
    exact before
  | ackAborted command admitted named found fails =>
    unfold Core.Balances
    rw [totalTasksReassigned_completion]
    exact before.acknowledge distinct found
  | ack command admitted named found passes persisted =>
    refine persisted.balances survived rfl ?_
    unfold Core.Balances
    rw [totalTasksReassigned_completion]
    exact before.acknowledge distinct found
  | nackAborted command admitted named nacked fails =>
    unfold Core.Balances
    rw [totalTasksReassigned_completion]
    exact before.negativeAcknowledge distinct airborne nacked
  | nack command admitted named nacked passes persisted =>
    refine persisted.balances survived rfl ?_
    unfold Core.Balances
    rw [totalTasksReassigned_completion]
    exact before.negativeAcknowledge distinct airborne nacked
  | replayDied command opened found spent => exact absurd rfl survived
  | replayCut command opened found decodes unsaved =>
    cases unsaved with
    | died spent => exact absurd rfl survived
    | refused fails => exact before.enqueue _ _ _ _
  | replay command opened found decodes binds alive => exact before.enqueue _ _ _ _
  | retry command closed named found => exact before.retry _
  | purge command opened counted persisted =>
    refine persisted.balances survived ?_ balances
    simp [Outcome.discards, opened]
  | @purgeMemory message count dlq command closed purged =>
    obtain ⟨fewer, received⟩ := card_purged purged
    obtain ⟨enqueued, dequeued, acked, dead⟩ := before
    refine ⟨?_, dequeued, acked, dead.trans received.symm⟩
    have sizes : m.broker.queueManager.ledger.dead.card = dlq.tasks.rows.length + count := fewer
    simp only [outcomeOf, Outcome.discards, closed, Option.isSome_none, Bool.false_eq_true,
      if_false]
    rw [sizes] at enqueued
    change m.broker.queueManager.totals.enqueued =
      m.broker.queueManager.ledger.pending.card + m.broker.queueManager.ledger.inFlight.card +
        m.broker.queueManager.totals.acked + dlq.tasks.rows.length + (discarded + count)
    omega
  | @evict order result registry qm r ran ending =>
    have after := evictEach_balances order (m.broker.workerRegistry.deadWorkers env.time)
      (m.broker.workerRegistry.dropDead env.time) before
    unfold evictDeadWorkers at ran
    rw [ran] at after
    subst ending
    cases result <;> exact after
  | reset persisted => exact absurd rfl noReset
  | @replayAll ids qm ran =>
    have after := before.retryEach
      ((m.broker.queueManager.deadLetterQueue.peek 1000).map Task.taskId)
    rw [ran] at after
    exact after
  | crash => exact absurd rfl survived
  -- the others count nothing
  | _ => exact before

end Step

/-! ## Whole runs -/

section Run

variable {config : Config} {platform : Platform}

/-- The number of dead letters that were dropped from the memory of the present process. -/
def discarded (config : Config) (history : List (Event × Outcome)) : Nat :=
  history.foldl (fun n entry => entry.2.discards config.persistent n) 0

theorem discarded_concat {events : List Event} {event : Event} {outcome : Outcome}
    (shown : (step config platform (reach config platform events) event).1 = outcome) :
    discarded config (history config platform (events ++ [event])) =
      outcome.discards config.persistent (discarded config (history config platform events)) := by
  rw [history_concat, shown]
  simp [discarded]

theorem Outcome.Mute.discards {outcome : Outcome} (mute : outcome.Mute) {persistent : Bool} :
    outcome.discards persistent 0 = 0 := by
  cases outcome with
  | answered response => exact mute.elim
  | replayedAll ids => exact mute.elim
  | _ => rfl

theorem startCore_balances (config : Config) (env : Env) (disk : Database) :
    (startCore config env disk).Balances 0 := ⟨rfl, rfl, rfl, rfl⟩

/-- A reset would set the counters to zero and leave the reassignments. -/
theorem balances_kept :
    Kept config platform
      (fun events system event => DrawsFresh events system event ∧ event.action ≠ .reset)
      (fun events c => (c.Sound config platform (drawn events) ∧ c.queueManager.ledger.Airborne) ∧
        c.Balances (discarded config (history config platform events)))
      (fun events disk => (disk.Sound platform (drawn events) ∧
          (config.persistent = false → disk = {})) ∧
        discarded config (history config platform events) = 0) where
  ran := by
    rintro events broker disk event r c position ⟨⟨sound, airborne⟩, balances⟩ ⟨fresh, noReset⟩
      effect whole survived shown
    have distinct : broker.queueManager.Distinct := sound.distinct
    have store : broker.walStore.isSome = config.persistent := sound.store
    refine ⟨airborne_preserved.ran position ⟨sound, airborne⟩ fresh effect (.ran whole survived)
      shown, ?_⟩
    have after := Core.Balances.effect (m := { broker, disk, crashIn := event.crashIn }) balances
      distinct airborne noReset survived effect
    rw [discarded_concat shown, ← store]
    exact after
  died := by
    rintro events broker disk event r c position ⟨both, -⟩ ⟨fresh, -⟩ effect cut shown
    refine ⟨airborne_preserved.kept.died position both fresh effect cut shown, ?_⟩
    rw [discarded_concat shown]
    rfl
  ignored := by
    rintro events disk event ⟨sound, none⟩ ⟨fresh, -⟩ shown
    refine ⟨airborne_preserved.ignored sound fresh shown, ?_⟩
    rw [discarded_concat shown, none]
    rfl
  recovered := by
    rintro events disk event r c outcome ⟨sound, none⟩ ⟨fresh, -⟩ starts persistent recovery mute
      shown
    obtain ⟨onDisk, complete⟩ := airborne_preserved.recovered sound fresh persistent recovery mute
      shown
    have still : discarded config (history config platform (events ++ [event])) = 0 := by
      rw [discarded_concat shown, none]
      exact mute.discards
    obtain ⟨rest, reached, balances, -, done⟩ := recovery.invariant
      (P := fun _ c => c.Balances 0) (startCore_balances config event.env disk)
      fun row rest payload c _ balances => QueueManager.Balances.enqueueRecovered balances _ _ _ _ _
    refine ⟨⟨onDisk, still⟩, fun isDone => ⟨complete isDone, ?_⟩⟩
    rw [still, (done isDone).2]
    exact balances
  fresh := by
    rintro events disk event outcome ⟨sound, none⟩ ⟨fresh, -⟩ isVolatile mute shown
    have started := airborne_preserved.fresh sound fresh isVolatile mute shown
    have still : discarded config (history config platform (events ++ [event])) = 0 := by
      rw [discarded_concat shown, none]
      exact mute.discards
    refine ⟨⟨⟨started.1.disk, sound.2⟩, still⟩, started, ?_⟩
    rw [still]
    exact startCore_balances config event.env disk

/-- The depths that `get_stats` reports add up to the number of pending tasks. -/
theorem sum_depths (qm : QueueManager) :
    (qm.getStats.queues.map Prod.snd).sum = qm.ledger.pending.card := by
  simp only [QueueManager.getStats, QueueManager.ledger, QueueManager.pending, List.map_map,
    Multiset.coe_card, List.length_flatMap]
  rfl

/-- **The flow balance.**  In every state that a run without a reset reaches, the reported
counters balance with the sizes of the containers. -/
theorem counters_balance {events : List Event} {broker : Broker} {disk : Database}
    (fresh : FreshIds events) (noReset : ∀ event ∈ events, event.action ≠ .reset)
    (position : reach config platform events = .running broker disk) :
    let stats := broker.queueManager.getStats
    stats.totalEnqueued = (stats.queues.map Prod.snd).sum + stats.inFlight + stats.totalAcked +
        stats.dlq.currentSize + discarded config (history config platform events) ∧
      stats.totalDequeued = stats.totalAcked + stats.totalNacked + stats.inFlight +
        broker.workerRegistry.getStats.totalTasksReassigned ∧
      stats.totalAcked = broker.queueManager.completed.rows.length ∧
      stats.totalDeadLettered = stats.dlq.totalReceived := by
  have holds := (@balances_kept config platform).holds
    ⟨⟨Database.sound_empty, fun _ => rfl⟩, rfl⟩
    (fresh.drawsFresh.and (Trace.EachStep.of_mem fun event inside _ => noReset event inside))
  rw [position] at holds
  obtain ⟨enqueued, dequeued, acked, dead⟩ := holds.2
  refine ⟨?_, dequeued, acked, dead⟩
  rw [sum_depths]
  exact enqueued

/-- Two tasks, of which one is dead-lettered and purged and the other is evicted once and
delivered again. -/
def accountedRun : List Event :=
  [.at 0 .start, .at 1 (.register "w"), .at 2 (.produce "q" "p"), .at 3 (.produce "q" "p"),
    .at 4 (.consume "q" "w"), .at 5 (.nack (idAt 2)), .at 6 (.send "DLQ_PURGE" []),
    .at 7 (.consume "q" "w"), .at 20 (.evict .insertion), .at 21 (.consume "q" "w")]

theorem counters_balance_accounted :
    ∃ broker disk,
      reach { persistent := false, maxRetries := 1 } .plain accountedRun = .running broker disk ∧
      broker.queueManager.getStats.totalEnqueued = 2 ∧
      broker.queueManager.getStats.totalDequeued =
        broker.queueManager.getStats.totalAcked + broker.queueManager.getStats.totalNacked +
          broker.queueManager.getStats.inFlight +
          broker.workerRegistry.getStats.totalTasksReassigned := by
  obtain ⟨broker, disk, position, two⟩ := @System.of_passes
    (fun broker _ => decide (broker.queueManager.getStats.totalEnqueued = 2))
    (reach { persistent := false, maxRetries := 1 } .plain accountedRun) (by decide +kernel)
  have others : ∀ event ∈ accountedRun, event.action ≠ .reset := by
    simp [accountedRun, Event.at, Action.produce, Action.consume, Action.register, Action.nack,
      Action.send]
  exact ⟨broker, disk, position, of_decide_eq_true two,
    (counters_balance (by decide +kernel) others position).2.1⟩

end Run

end DistroSync
