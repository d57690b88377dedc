import DistroSync.Memory
import DistroSync.Scenario

/-!
# The timestamps of the metrics collector

The collector keeps the time of every delivery in `_dequeue_timestamps`, and is told of
deliveries and their ends by the handlers of CONSUME, ACK and NACK.  The tasks in
flight are kept by the queue manager.  `Aligned` says that the two have the same ids.

The handlers keep them aligned as long as they get as far as the collector.  There are
three other ways out of the queue manager's table, of which the collector is not told:
an eviction pass, a reset, and a handler that raises in between.  `Steady` excludes
those three, and then the tables are aligned in every state of every run.
-/

namespace DistroSync

open Keyed Py Exec

namespace Memory

/-- The collector has a timestamp for the tasks in flight and for no others. -/
def Aligned (memory : Memory) : Prop :=
  ∀ id, id ∈ memory.metrics.dequeueTimestamps.keys ↔ id ∈ memory.queueManager.inFlight.keys

/-- Neither the tasks in flight nor the timestamps change. -/
structure SameFlight (memory memory' : Memory) : Prop where
  inFlight : memory'.queueManager.inFlight.keys = memory.queueManager.inFlight.keys
  timestamps : memory'.metrics.dequeueTimestamps = memory.metrics.dequeueTimestamps

variable {memory memory' : Memory}

/-- Administration leaves the flight and the timestamps alone. -/
theorem Administers.sameFlight (administers : memory.Administers memory') :
    memory.SameFlight memory' := by
  obtain ⟨_, _, pruned⟩ := administers.metrics
  exact ⟨congrArg Table.keys administers.inFlight, by rw [pruned]⟩

theorem Aligned.of_sameFlight (aligned : memory.Aligned) (same : memory.SameFlight memory') :
    memory'.Aligned := by
  intro id
  rw [same.inFlight, same.timestamps]
  exact aligned id

/-- A step that keeps the collector informed: no handler raises between the queue manager and
the collector, no eviction pass finds a task in flight, and no reset does. -/
def Steady (env : Env) (memory : Memory) : Action → Prop
  | .command message =>
    match commandOf message with
    | some .consume =>
      (message.get "queue" .null).truthy → (message.get "worker_id" .null).truthy →
        ∀ queue ∈ (message.get "queue" .null).scalar?,
          (memory.queueManager.dequeue queue (message.get "worker_id" .null)).1.isSome →
            (message.get "worker_id" .null).scalar?.isSome
    | some .ack =>
      ∀ id ∈ memory.named message, ackChecks env memory.workerRegistry message id = .ok ()
    | some .nack =>
      ∀ id ∈ memory.named message,
        (completion env memory.workerRegistry message id).1 = .ok ()
    | _ => True
  | .evict _ =>
    ∀ worker ∈ memory.workerRegistry.deadWorkers env.time, ∀ id ∈ worker.inFlightTasks,
      id ∉ memory.queueManager.inFlight.keys
  | .reset => memory.queueManager.inFlight.keys = []
  | _ => True

end Memory

/-! ## Commands -/

namespace Memory

variable {env : Env} {message : Message} {memory : Memory}

theorem produce_sameFlight : memory.SameFlight (memory.produce env message) := by
  unfold produce
  split_ifs
  · split
    · exact ⟨rfl, rfl⟩
    · rename_i queue hashed
      split_ifs
      · exact ⟨congrArg Table.keys (QueueManager.append_inFlight _ _), rfl⟩
      · exact ⟨rfl, rfl⟩
  · exact ⟨rfl, rfl⟩

theorem register_sameFlight : memory.SameFlight (memory.register env message) := by
  unfold register
  split_ifs
  · split <;> exact ⟨rfl, rfl⟩
  · exact ⟨rfl, rfl⟩

theorem heartbeat_sameFlight : memory.SameFlight (memory.heartbeat env message) := by
  unfold heartbeat
  split_ifs
  · split <;> exact ⟨rfl, rfl⟩
  · exact ⟨rfl, rfl⟩

theorem Aligned.consume (aligned : memory.Aligned) (command : commandOf message = some .consume)
    (steady : memory.Steady env (.command message)) : (memory.consume env message).Aligned := by
  simp only [Steady, command] at steady
  unfold Memory.consume
  split_ifs with given
  · cases hashed : (message.get "queue" .null).scalar? with
    | none => exact aligned
    | some queue =>
      cases taken : memory.queueManager.dequeue queue (message.get "worker_id" .null) with
      | mk result qm =>
        cases result with
        | none =>
          simp only [taken]
          exact aligned.of_sameFlight
            ⟨congrArg Table.keys (QueueManager.dequeue_none_inFlight taken), rfl⟩
        | some task =>
          have known := steady given.1 given.2 queue hashed (by rw [taken]; rfl)
          obtain ⟨worker, consumer⟩ := Option.isSome_iff_exists.mp known
          simp only [taken, consumer]
          intro id
          have flies :
              (memory.deliver env queue worker task.taskId qm).queueManager.inFlight =
                memory.queueManager.inFlight.put task :=
            QueueManager.dequeue_some_inFlight taken
          rw [flies, Table.mem_keys_put, ← aligned id]
          exact Table.mem_keys_put
  · exact aligned

theorem Aligned.ack (aligned : memory.Aligned) (command : commandOf message = some .ack)
    (steady : memory.Steady env (.command message)) : (memory.ack env message).Aligned := by
  simp only [Steady, command] at steady
  unfold Memory.ack
  cases isNamed : memory.named message with
  | none => exact aligned
  | some id =>
    have passes := steady id isNamed
    obtain ⟨-, task, found⟩ := named_spec isNamed
    -- the checks include the queue name as a key
    obtain ⟨queue, hashed⟩ : ∃ queue,
        (message.get "queue" (.str "unknown")).scalar? = some queue := by
      unfold ackChecks at passes
      split at passes
      · cases passes
      · split at passes
        · cases passes
        · exact ⟨_, ‹_›⟩
    intro other
    simp only [acknowledgedMetrics, passes, hashed]
    rw [QueueManager.acknowledge_inFlight found, Table.mem_keys_erase, ← aligned other]
    exact Table.mem_keys_erase

theorem Aligned.nack (aligned : memory.Aligned) (command : commandOf message = some .nack)
    (steady : memory.Steady env (.command message)) : (memory.nack env message).Aligned := by
  simp only [Steady, command] at steady
  unfold Memory.nack
  cases isNamed : memory.named message with
  | none => exact aligned
  | some id =>
    have passes := steady id isNamed
    cases nacked : memory.queueManager.negativeAcknowledge env.time id with
    | mk result qm =>
      cases result with
      | none =>
        rcases QueueManager.negativeAcknowledge_cases nacked with
          ⟨-, -, rfl⟩ | ⟨_, _, _, -, absurd, -⟩
        · simp only [nacked]
          exact aligned
        · cases absurd
      | some pair =>
        obtain ⟨action, task⟩ := pair
        obtain ⟨origin, found, spec⟩ := QueueManager.negativeAcknowledge_some nacked
        have isId : origin.taskId = id := Table.key_of_find? found
        intro other
        simp only [nacked, passes]
        rw [spec.inFlight_eq, isId, Table.mem_keys_erase, ← aligned other]
        exact Table.mem_keys_erase

end Memory

/-! ## Steps -/

section Step

variable {platform : Platform} {env : Env} {m : Machine} {message : Message}

/-- **A steady event keeps the tables aligned.** -/
theorem perform_aligned (aligned : m.broker.memory.Aligned) {action : Action}
    (steady : m.broker.memory.Steady env action) :
    Leaves (perform platform env action) m Memory.Aligned := by
  have frame {α : Type} {program : BrokerM α}
      (leaves : Leaves program m (m.broker.memory.Administers ·)) :
      Leaves program m Memory.Aligned :=
    leaves.mono fun _ administers => aligned.of_sameFlight administers.sameFlight
  have exactly {α : Type} {program : BrokerM α} {memory : Memory}
      (leaves : Leaves program m (· = memory)) (after : memory.Aligned) :
      Leaves program m Memory.Aligned := leaves.mono fun _ same => same ▸ after
  cases action with
  | command message =>
    unfold Leaves perform
    simp only [wp_bind, wp_pure]
    refine wp_dispatch (fun _ => ⟨fun _ => aligned, fun _ => aligned⟩) fun command named => ?_
    cases command with
    | produce =>
      exact exactly handleProduce_leaves (aligned.of_sameFlight Memory.produce_sameFlight)
    | consume => exact exactly handleConsume_leaves (aligned.consume named steady)
    | register =>
      exact exactly handleRegister_leaves (aligned.of_sameFlight Memory.register_sameFlight)
    | heartbeat =>
      exact exactly handleHeartbeat_leaves (aligned.of_sameFlight Memory.heartbeat_sameFlight)
    | ack => exact exactly handleAck_leaves (aligned.ack named steady)
    | nack => exact exactly handleNack_leaves (aligned.nack named steady)
    | dlqList => exact frame handleDlqList_leaves
    | dlqReplay => exact frame handleDlqReplay_leaves
    | dlqPurge => exact frame handleDlqPurge_leaves
    | stats => exact aligned
    | metrics => exact frame handleMetrics_leaves
  | evict order =>
    cases ran : evictDeadWorkers order env.time m.broker.workerRegistry m.broker.queueManager with
    | mk result rest =>
      obtain ⟨registry, qm⟩ := rest
      obtain ⟨requeues, -⟩ := evictDeadWorkers_spec ran
      have after : Memory.Aligned { m.broker.memory with
          queueManager := qm, workerRegistry := registry } := by
        intro id
        refine (aligned id).trans ?_
        simp only [Table.mem_keys]
        constructor
        · rintro ⟨task, flying, rfl⟩
          refine ⟨task, (requeues.returns.mem_source task).mpr ⟨flying, ?_⟩, rfl⟩
          rintro ⟨worker, reached, tracked⟩
          exact steady worker (List.takeWhile_subset _ reached) _ tracked
            (Table.mem_keys.mpr ⟨task, flying, rfl⟩)
        · rintro ⟨task, flying, rfl⟩
          exact ⟨task, ((requeues.returns.mem_source task).mp flying).1, rfl⟩
      unfold Leaves perform evictionPass
      simp only [wp_bind, wp_get, wp_set, wp_pure, ran]
      cases result <;> exact after
  | reset =>
    have none : ∀ id, id ∉ m.broker.metrics.dequeueTimestamps.keys := by
      intro id tracked
      have flying := (aligned id).mp tracked
      rw [show m.broker.memory.queueManager.inFlight.keys = [] from steady] at flying
      cases flying
    unfold Leaves perform resetHandler
    simp only [wp_bind, wp_onQueueManager, wp_onMetrics, wp_pure, wp_whenPersistent,
      wp_walCommit]
    refine ⟨fun opened => ⟨fun spent => ?_, fun alive => ?_⟩, fun closed => ?_⟩ <;>
      exact fun id => ⟨fun tracked => absurd tracked (none id), fun flying => by cases flying⟩
  | replayAll =>
    unfold Leaves perform replayDlqHandler
    simp only [wp_bind, wp_onQueueManager, wp_pure]
    exact aligned.of_sameFlight
      ⟨congrArg Table.keys (QueueManager.retryEach_inFlight _ _), rfl⟩
  | crashWorker pick =>
    unfold Leaves perform crashWorkerHandler
    simp only [wp_bind, wp_onRegistry, wp_pure]
    exact aligned
  | crash => exact aligned
  | start => exact aligned

end Step

/-! ## Whole runs -/

section Run

variable {config : Config} {platform : Platform}

/-- The step condition. -/
def SteadyStep : System → Event → Prop
  | .running broker _, event => broker.memory.Steady event.env event.action
  | .stopped _, _ => True

/-- **The dashboard's view of the flight.**  In every state of a run of steady steps, the
collector has timestamps for exactly the tasks in flight, and reports their number. -/
theorem timestamps_eq_inFlight {events : List Event}
    (steady : Trace.EachStep (step config platform) System.initial
      (fun _ system event => SteadyStep system event) events)
    {broker : Broker} {disk : Database}
    (position : reach config platform events = .running broker disk) :
    (∀ id, id ∈ broker.metrics.dequeueTimestamps.keys ↔ id ∈ broker.queueManager.inFlight.keys) ∧
      ∀ now, (broker.metrics.getStats now).trackedInFlight =
        broker.queueManager.getStats.inFlight := by
  have holds : (reach config platform events).Remembers Memory.Aligned := by
    refine Trace.run_invariant (I := fun _ system => system.Remembers Memory.Aligned) trivial ?_
      steady
    intro front event holds allowed
    refine step_remembers (fun broker disk position => ?_) fun disk position isStart => ?_
    · rw [position] at holds allowed
      exact perform_aligned (m := { broker, disk, crashIn := event.crashIn }) holds allowed
    · have fresh : (Broker.new config event.env).memory.Aligned := fun id => Iff.rfl
      exact recover_leaves.mono fun _ administers => fresh.of_sameFlight administers.sameFlight
  rw [position] at holds
  have aligned : broker.memory.Aligned := holds
  refine ⟨aligned, fun now => ?_⟩
  have same : broker.metrics.dequeueTimestamps.keys.Perm broker.queueManager.inFlight.keys :=
    (List.perm_ext_iff_of_nodup (Table.nodup_keys _) (Table.nodup_keys _)).mpr aligned
  simpa [Table.keys, MetricsCollector.getStats, QueueManager.getStats] using same.length_eq

/-- A task is produced and consumed, and the broker is reset. -/
def resetRun : List Event :=
  [.at 0 .start, .at 1 (.produce "q" "p"), .at 2 (.consume "q" "w"), .at 3 .reset]

/-- **The timestamp that outlives the reset.**  Nothing is in flight, and one task is tracked. -/
theorem reset_keeps_timestamp :
    ∃ broker disk, reach { persistent := false } .plain resetRun = .running broker disk ∧
      idAt 1 ∈ broker.metrics.dequeueTimestamps.keys ∧ broker.queueManager.inFlight.keys = [] ∧
      (broker.metrics.getStats 4).trackedInFlight = 1 ∧
      broker.queueManager.getStats.inFlight = 0 := by
  obtain ⟨broker, disk, position, passed⟩ := @System.of_passes
    (fun broker _ => decide (idAt 1 ∈ broker.metrics.dequeueTimestamps.keys ∧
      broker.queueManager.inFlight.keys = [] ∧ (broker.metrics.getStats 4).trackedInFlight = 1 ∧
      broker.queueManager.getStats.inFlight = 0))
    (reach { persistent := false } .plain resetRun) (by decide +kernel)
  exact ⟨broker, disk, position, of_decide_eq_true passed⟩

/-- Commands that are no CONSUME, ACK or NACK are steady. -/
theorem SteadyStep.of_other {event : Event} {message : Message}
    (received : event.action = .command message)
    (other : commandOf message ≠ some .consume ∧ commandOf message ≠ some .ack ∧
      commandOf message ≠ some .nack) (system : System) : SteadyStep system event := by
  cases system with
  | stopped disk => trivial
  | running broker disk =>
    simp only [SteadyStep, received, Memory.Steady]
    split
    · exact absurd ‹_› other.1
    · exact absurd ‹_› other.2.1
    · exact absurd ‹_› other.2.2
    · trivial

/-- Two tasks are produced and one is consumed: one task is tracked. -/
theorem timestamps_eq_inFlight_consumed :
    ∃ broker disk, reach { persistent := false } .plain
        [.at 0 .start, .at 1 (.produce "q" "p"), .at 2 (.produce "q" "p"),
          .at 3 (.consume "q" "w")] = .running broker disk ∧
      broker.queueManager.getStats.inFlight = 1 ∧
      (broker.metrics.getStats 4).trackedInFlight = broker.queueManager.getStats.inFlight := by
  obtain ⟨broker, disk, position, one⟩ := @System.of_passes
    (fun broker _ => decide (broker.queueManager.getStats.inFlight = 1))
    (reach { persistent := false } .plain [.at 0 .start, .at 1 (.produce "q" "p"),
      .at 2 (.produce "q" "p"), .at 3 (.consume "q" "w")]) (by decide +kernel)
  refine ⟨broker, disk, position, of_decide_eq_true one, (timestamps_eq_inFlight
    (Trace.EachStep.of_mem fun event inside system => ?_) position).2 4⟩
  simp only [List.mem_cons, List.not_mem_nil, or_false] at inside
  rcases inside with rfl | rfl | rfl | rfl
  · cases system <;> trivial
  · exact SteadyStep.of_other rfl (by decide) system
  · exact SteadyStep.of_other rfl (by decide) system
  · cases system with
    | stopped disk => trivial
    | running broker disk => exact fun _ _ _ _ _ => rfl

end Run

end DistroSync
