import DistroSync.Transition

/-!
# Invariants of every run

`Preserved` is the proof obligation for a property of runs: one field per kind of
transition.  A property consists of a part `I` about the stores of a running broker
and a part `D` about the database of a stopped one; both may mention the events so
far, and each step may be assumed to satisfy a condition `P`.

The property proved here, `Sound`, is what all later developments rest on.  It needs
no assumption on the messages or the crashes, only that no id is drawn twice: ids are
distinct across the containers, every id in memory, in the registry or in the
database was drawn by an earlier event, and every stored payload decodes.
-/

namespace DistroSync

open Keyed Py

variable {config : Config} {platform : Platform} {events : List Event} {event : Event} {env : Env}
  {m : Machine} {action : Action} {r : Except Stop Outcome} {c : Core} {db disk : Database}
  {task : Task} {row : TaskRow} {now : Rat}

/-! ## Properties of runs -/

/-- `I` of a running broker's stores, `D` of a stopped broker's database. -/
def System.Holds (I : Core → Prop) (D : Database → Prop) : System → Prop
  | .running broker disk => I (broker.core disk)
  | .stopped disk => D disk

/-- How an event with the result `r` shows. -/
inductive Ended (event : Event) (r : Except Stop Outcome) : Outcome → Prop where
  | ran (whole : event.crashIn = none) (survived : r ≠ .error .crashed) :
      Ended event r (outcomeOf r)
  | died (cut : event.crashIn ≠ none ∨ r = .error .crashed) : Ended event r .crashed

/-- Only an event that ran to its end is answered. -/
theorem Ended.of_answered {response : Response} (ended : Ended event r (.answered response)) :
    event.crashIn = none ∧ r = .ok (.answered response) := by
  generalize shown : Outcome.answered response = outcome at ended
  cases ended with
  | ran whole survived =>
    refine ⟨whole, ?_⟩
    rcases r with (_ | _) | outcome
    · cases shown
    · cases shown
    · rfl
  | died cut => cases shown

/-- An answered event is an effect on a running broker, which goes on running. -/
theorem step_answered {system : System} {response : Response}
    (answered : (step config platform system event).1 = .answered response) :
    ∃ broker disk broker' disk', system = .running broker disk ∧
      (step config platform system event).2 = .running broker' disk' ∧ event.crashIn = none ∧
      Effect platform event.env { broker, disk, crashIn := event.crashIn } event.action
        (.ok (.answered response)) (broker'.core disk') := by
  have transition := step_transition config platform system event
  rw [answered] at transition
  generalize (step config platform system event).2 = next at transition
  generalize shown : Outcome.answered response = outcome at transition
  cases transition with
  | @ran broker broker' disk disk' r effect whole survived =>
    obtain ⟨-, rfl⟩ := (shown ▸ Ended.ran whole survived : Ended event r _).of_answered
    exact ⟨broker, disk, broker', disk', rfl, rfl, whole, effect⟩
  | died effect cut => cases shown
  | ignored other => cases shown
  | started starts whole recovery fresh => cases shown
  | failed starts recovery fresh why =>
    rcases why with ⟨e, rfl, -⟩ | ⟨rfl, -⟩ <;> cases shown

/-- What an event does to a running broker is an effect. -/
theorem step_effect (config : Config) (platform : Platform) (broker : Broker) (disk : Database)
    (event : Event) :
    ∃ r c, Effect platform event.env { broker, disk, crashIn := event.crashIn } event.action r c ∧
      (step config platform (.running broker disk) event).2.disk = c.disk ∧
      Ended event r (step config platform (.running broker disk) event).1 := by
  have transition := step_transition config platform (.running broker disk) event
  generalize (step config platform (.running broker disk) event).1 = outcome at transition ⊢
  generalize (step config platform (.running broker disk) event).2 = next at transition ⊢
  cases transition with
  | ran effect whole survived => exact ⟨_, _, effect, rfl, .ran whole survived⟩
  | died effect cut => exact ⟨_, _, effect, rfl, .died cut⟩

/-- The outcomes of starts and of events that found no process. -/
def Outcome.Mute : Outcome → Prop
  | .answered _ => False
  | .replayedAll _ => False
  | _ => True

/-- What has to be shown for `I` and `D` to stay true at every step that satisfies `P`; an
event that kills the process has to leave `D` true and nothing else. -/
structure Kept (config : Config) (platform : Platform)
    (P : List Event → System → Event → Prop)
    (I : List Event → Core → Prop) (D : List Event → Database → Prop) : Prop where
  ran : ∀ {events broker disk event r c},
    reach config platform events = .running broker disk → I events (broker.core disk) →
    P events (.running broker disk) event →
    Effect platform event.env { broker, disk, crashIn := event.crashIn } event.action r c →
    event.crashIn = none → r ≠ .error .crashed →
    (step config platform (reach config platform events) event).1 = outcomeOf r →
    I (events ++ [event]) c
  died : ∀ {events broker disk event r c},
    reach config platform events = .running broker disk → I events (broker.core disk) →
    P events (.running broker disk) event →
    Effect platform event.env { broker, disk, crashIn := event.crashIn } event.action r c →
    event.crashIn ≠ none ∨ r = .error .crashed →
    (step config platform (reach config platform events) event).1 = .crashed →
    D (events ++ [event]) c.disk
  ignored : ∀ {events disk event}, D events disk → P events (.stopped disk) event →
    (step config platform (reach config platform events) event).1 = .ignored →
    D (events ++ [event]) disk
  recovered : ∀ {events disk event r c outcome}, D events disk →
    P events (.stopped disk) event → event.action = .start → config.persistent = true →
    Recovery platform event.env (event.crashIn ≠ none) disk.loadPendingTasks
      (startCore config event.env disk) r c →
    outcome.Mute →
    (step config platform (reach config platform events) event).1 = outcome →
    D (events ++ [event]) c.disk ∧ (r = .ok () → I (events ++ [event]) c)
  fresh : ∀ {events disk event outcome}, D events disk → P events (.stopped disk) event →
    config.persistent = false → outcome.Mute →
    (step config platform (reach config platform events) event).1 = outcome →
    D (events ++ [event]) disk ∧ I (events ++ [event]) (startCore config event.env disk)

/-- The same for a property of the database that follows from the one of the stores, so that
it does not matter whether the process survives. -/
structure Preserved (config : Config) (platform : Platform)
    (P : List Event → System → Event → Prop)
    (I : List Event → Core → Prop) (D : List Event → Database → Prop) : Prop where
  durable : ∀ {events c}, I events c → D events c.disk
  ran : ∀ {events broker disk event r c outcome},
    reach config platform events = .running broker disk → I events (broker.core disk) →
    P events (.running broker disk) event →
    Effect platform event.env { broker, disk, crashIn := event.crashIn } event.action r c →
    Ended event r outcome →
    (step config platform (reach config platform events) event).1 = outcome →
    I (events ++ [event]) c
  ignored : ∀ {events disk event}, D events disk → P events (.stopped disk) event →
    (step config platform (reach config platform events) event).1 = .ignored →
    D (events ++ [event]) disk
  recovered : ∀ {events disk event r c outcome}, D events disk →
    P events (.stopped disk) event → config.persistent = true →
    Recovery platform event.env (event.crashIn ≠ none) disk.loadPendingTasks
      (startCore config event.env disk) r c →
    outcome.Mute →
    (step config platform (reach config platform events) event).1 = outcome →
    D (events ++ [event]) c.disk ∧ (r = .ok () → I (events ++ [event]) c)
  fresh : ∀ {events disk event outcome}, D events disk → P events (.stopped disk) event →
    config.persistent = false → outcome.Mute →
    (step config platform (reach config platform events) event).1 = outcome →
    I (events ++ [event]) (startCore config event.env disk)

section Preservation

variable {config : Config} {platform : Platform} {P : List Event → System → Event → Prop}
  {I : List Event → Core → Prop} {D : List Event → Database → Prop}

theorem Preserved.kept (preserved : Preserved config platform P I D) :
    Kept config platform P I D where
  ran position holds allowed effect whole survived shown :=
    preserved.ran position holds allowed effect (.ran whole survived) shown
  died position holds allowed effect cut shown :=
    preserved.durable (preserved.ran position holds allowed effect (.died cut) shown)
  ignored := preserved.ignored
  recovered holds allowed _ := preserved.recovered holds allowed
  fresh holds allowed volatile mute shown :=
    have started := preserved.fresh holds allowed volatile mute shown
    ⟨preserved.durable started, started⟩

/-- One event, by the transition that it is. -/
theorem Kept.step (kept : Kept config platform P I D)
    (holds : (reach config platform events).Holds (I events) (D events))
    (allowed : P events (reach config platform events) event) :
    ((DistroSync.step config platform (reach config platform events) event).2).Holds
      (I (events ++ [event])) (D (events ++ [event])) := by
  have transition := step_transition config platform (reach config platform events) event
  generalize shown : (DistroSync.step config platform (reach config platform events) event).1 =
    outcome at transition
  generalize (DistroSync.step config platform (reach config platform events) event).2 = next
    at transition ⊢
  generalize position : reach config platform events = system at transition holds allowed
  cases transition with
  | ran effect whole survived => exact kept.ran position holds allowed effect whole survived shown
  | died effect cut => exact kept.died position holds allowed effect cut shown
  | ignored other => exact kept.ignored holds allowed shown
  | started starts whole recovery fresh =>
    have mute : Outcome.completed.Mute := trivial
    cases persistent : config.persistent with
    | true =>
      exact (kept.recovered holds allowed starts persistent (recovery persistent) mute
        shown).2 rfl
    | false =>
      rw [System.Holds, fresh persistent]
      exact (kept.fresh holds allowed persistent mute shown).2
  | failed starts recovery fresh why =>
    have mute : outcome.Mute := by
      rcases why with ⟨e, rfl, -⟩ | ⟨rfl, -⟩ <;> trivial
    cases persistent : config.persistent with
    | true =>
      exact (kept.recovered holds allowed starts persistent (recovery persistent) mute shown).1
    | false =>
      rw [System.Holds, fresh persistent]
      exact (kept.fresh holds allowed persistent mute shown).1

theorem Preserved.step (preserved : Preserved config platform P I D)
    (holds : (reach config platform events).Holds (I events) (D events))
    (allowed : P events (reach config platform events) event) :
    ((DistroSync.step config platform (reach config platform events) event).2).Holds
      (I (events ++ [event])) (D (events ++ [event])) :=
  preserved.kept.step holds allowed

/-- What holds at some point of a run holds from there on. -/
theorem Kept.holds_from {front back : List Event} (kept : Kept config platform P I D)
    (start : (reach config platform front).Holds (I front) (D front))
    (each : ∀ first event last, back = first ++ event :: last →
      P (front ++ first) (reach config platform (front ++ first)) event) :
    (reach config platform (front ++ back)).Holds (I (front ++ back)) (D (front ++ back)) :=
  @Trace.run_invariant_from _ _ _ (DistroSync.step config platform) System.initial
    (fun events system => system.Holds (I events) (D events)) P front back start
    (fun _ _ holds allowed => kept.step holds allowed) each

/-- The same, from a state that was reached before. -/
theorem Preserved.holds_from {front back : List Event} (preserved : Preserved config platform P I D)
    (start : (reach config platform front).Holds (I front) (D front))
    (each : ∀ first event last, back = first ++ event :: last →
      P (front ++ first) (reach config platform (front ++ first)) event) :
    (reach config platform (front ++ back)).Holds (I (front ++ back)) (D (front ++ back)) :=
  preserved.kept.holds_from start each

/-- What holds of a new database holds throughout every run. -/
theorem Kept.holds (kept : Kept config platform P I D) (initial : D [] {})
    (each : Trace.EachStep (DistroSync.step config platform) System.initial P events) :
    (reach config platform events).Holds (I events) (D events) :=
  @Kept.holds_from config platform P I D [] events kept initial each

/-- **The induction over runs.** -/
theorem Preserved.holds (preserved : Preserved config platform P I D) (initial : D [] {})
    (each : Trace.EachStep (DistroSync.step config platform) System.initial P events) :
    (reach config platform events).Holds (I events) (D events) :=
  @Preserved.holds_from config platform P I D [] events preserved initial each

end Preservation

/-! ## Moves of the tasks -/

/-- What an action can do to the tasks in memory, when it has `id` to give to a new one and
may or may not retry dead letters in memory. -/
inductive Moved (id : String) (maxRetries : Nat) (retries : Prop) (l : Ledger) : Ledger → Prop where
  | still : Moved id maxRetries retries l l
  | created {task : Task} (fresh : task.taskId = id) (unused : task.attempts = 0) :
      Moved id maxRetries retries l { l with pending := task ::ₘ l.pending }
  | delivered {head : Task} {rest : Multiset Task} {workerId : Json}
      (split : l.pending = head ::ₘ rest) :
      Moved id maxRetries retries l
        { l with pending := rest, inFlight := head.deliver workerId ::ₘ l.inFlight }
  | acknowledged {task : Task} {rest : Multiset Task} (split : l.inFlight = task ::ₘ rest) :
      Moved id maxRetries retries l
        { l with
          inFlight := rest
          completed := task.finish ::ₘ l.completed }
  | buried {task : Task} {rest : Multiset Task} {now : Rat} (split : l.inFlight = task ::ₘ rest) :
      Moved id maxRetries retries l { l with inFlight := rest, dead := task.bury now ::ₘ l.dead }
  | requeued {task : Task} {rest : Multiset Task} (split : l.inFlight = task ::ₘ rest)
      (left : task.attempts < maxRetries) :
      Moved id maxRetries retries l
        { l with pending := task.release ::ₘ l.pending, inFlight := rest }
  | evicted {taken : String → Prop} {l' : Ledger}
      (returns : Ledger.Returns Ledger.inFlight Task.release taken l l')
      (completed : l'.completed = l.completed) (dead : l'.dead = l.dead) :
      Moved id maxRetries retries l l'
  | retried {taken : String → Prop} {l' : Ledger} (may : retries)
      (returns : Ledger.Returns Ledger.dead Task.revive taken l l')
      (inFlight : l'.inFlight = l.inFlight) (completed : l'.completed = l.completed) :
      Moved id maxRetries retries l l'
  | purged {rest : Multiset Task} (fewer : rest ≤ l.dead) :
      Moved id maxRetries retries l { l with dead := rest }
  | cleared :
      Moved id maxRetries retries l { pending := 0, inFlight := 0, completed := 0, dead := 0 }

/-- Only a new task brings a new id. -/
theorem Moved.ids_le {id : String} {maxRetries : Nat} {retries : Prop} {l l' : Ledger}
    (moved : Moved id maxRetries retries l l') : l'.ids ≤ id ::ₘ l.ids := by
  have grows : l.ids ≤ id ::ₘ l.ids := Multiset.le_cons_self _ _
  cases moved with
  | still => exact grows
  | created fresh unused => simp [Ledger.ids, Multiset.cons_add, fresh]
  | delivered split =>
    refine le_of_eq_of_le ?_ grows
    simp [Ledger.ids, split, Multiset.cons_add, Multiset.add_cons]
  | acknowledged split =>
    refine le_of_eq_of_le ?_ grows
    simp [Ledger.ids, split, Multiset.cons_add, Multiset.add_cons]
  | buried split =>
    refine le_of_eq_of_le ?_ grows
    simp [Ledger.ids, split, Multiset.cons_add, Multiset.add_cons]
  | requeued split left =>
    refine le_of_eq_of_le ?_ grows
    simp [Ledger.ids, split, Multiset.cons_add, Multiset.add_cons]
  | evicted returns completed dead => exact returns.ids.trans_le grows
  | retried may returns inFlight completed => exact returns.ids.trans_le grows
  | purged fewer =>
    refine le_trans ?_ grows
    simpa [Ledger.ids] using Multiset.map_le_map fewer
  | cleared => simp [Ledger.ids]

/-- What holds of the database before a store call, and after its statements, holds of what
the call leaves. -/
theorem Persist.disk_elim {crashIn : Option Nat} {c' : Core}
    {bound : Except Error (Database → Database)} {success : Outcome} {P : Database → Prop}
    (persisted : Persist crashIn c bound success r c') (before : P c.disk)
    (after : ∀ statements, bound = .ok statements → P (statements c.disk)) : P c'.disk := by
  rcases persisted.disk_cases with same | ⟨-, -, -, statements, binds, run⟩
  · exact same ▸ before
  · exact run ▸ after statements binds

theorem purgeQueue_le (dlq : DeadLetterQueue) (queueName : Json) :
    ((purgeQueue dlq queueName).2.tasks.rows : Multiset Task) ≤ dlq.tasks.rows :=
  Multiset.coe_le.mpr (QueueManager.removeEach_sublist _ dlq).subperm

/-- What the purge of a volatile broker leaves. -/
theorem purged_le {dlq dlq' : DeadLetterQueue} {queueName : Json} {count : Nat}
    (purged : (count, dlq') = if queueName.truthy then purgeQueue dlq queueName else dlq.purge) :
    (dlq'.tasks.rows : Multiset Task) ≤ dlq.tasks.rows := by
  split at purged
  · obtain ⟨-, rfl⟩ := Prod.mk.inj purged
    exact purgeQueue_le _ _
  · obtain ⟨-, rfl⟩ := Prod.mk.inj purged
    exact Multiset.zero_le _

/-- A NACK moves one task out of flight. -/
theorem QueueManager.Nacked.moved {qm qm' : QueueManager} {id fresh : String} {task' : Task}
    {action : NackAction} {retries : Prop} (distinct : qm.Distinct)
    (found : qm.inFlight.find? id = some task) (nacked : Nacked qm now task action task' qm') :
    Moved fresh qm.maxRetries retries qm.ledger qm'.ledger := by
  have split := QueueManager.inFlight_of_find? found
  cases action with
  | deadLettered =>
    rw [QueueManager.ledger_buried distinct found nacked]
    exact .buried split
  | requeued =>
    rw [QueueManager.ledger_requeued found nacked]
    cases nacked with
    | requeued left => exact .requeued split left

/-- An eviction pass, by what its loop does. -/
theorem evictDeadWorkers_spec {order : SetOrder} {registry registry' : WorkerRegistry}
    {qm qm' : QueueManager} {result : Except Error Unit}
    (ran : evictDeadWorkers order now registry qm = (result, registry', qm')) :
    QueueManager.Requeues
        (fun id => ∃ worker ∈ QueueManager.processed (registry.deadWorkers now),
          id ∈ worker.inFlightTasks) qm qm' ∧
      registry'.workers = (registry.dropDead now).workers ∧
      (result = .ok () ↔
        QueueManager.processed (registry.deadWorkers now) = registry.deadWorkers now) := by
  have spec := QueueManager.evictEach_spec order (registry.deadWorkers now)
    (registry.dropDead now) qm
  unfold evictDeadWorkers at ran
  rw [ran] at spec
  exact spec

/-- No action changes the limit on attempts. -/
theorem Effect.maxRetries_eq (effect : Effect platform env m action r c) :
    c.queueManager.maxRetries = m.broker.queueManager.maxRetries := by
  cases effect with
  | produce command admitted named hashed persisted =>
    rw [persisted.memory.1]
    exact QueueManager.enqueue_maxRetries _ _ _ _ _
  | consumeEmpty command hashed taken => exact QueueManager.dequeue_maxRetries taken
  | consumeUnhashable command admitted hashed taken unhashable =>
    exact QueueManager.dequeue_maxRetries taken
  | consume command admitted hashed taken consumer persisted =>
    rw [persisted.memory.1]
    exact QueueManager.dequeue_maxRetries taken
  | ackAborted command admitted named found fails => exact QueueManager.acknowledge_maxRetries _ _
  | ack command admitted named found passes persisted =>
    rw [persisted.memory.1]
    exact QueueManager.acknowledge_maxRetries _ _
  | nackAborted command admitted named nacked fails =>
    obtain ⟨task, -, spec⟩ := QueueManager.negativeAcknowledge_some nacked
    exact spec.maxRetries_eq
  | nack command admitted named nacked passes persisted =>
    obtain ⟨task, -, spec⟩ := QueueManager.negativeAcknowledge_some nacked
    rw [persisted.memory.1]
    exact spec.maxRetries_eq
  | replayCut command opened found decodes unsaved =>
    exact QueueManager.enqueue_maxRetries _ _ _ _ _
  | replay command opened found decodes binds alive =>
    exact QueueManager.enqueue_maxRetries _ _ _ _ _
  | retry command closed named found => exact QueueManager.retry_maxRetries _ _
  | purge command opened counted persisted =>
    rw [persisted.memory.1]
    rfl
  | evict ran ending => exact (evictDeadWorkers_spec ran).1.maxRetries
  | reset persisted =>
    rw [persisted.memory.1]
    rfl
  | replayAll ran =>
    have spec := (QueueManager.retries_of_retryEach ran).1
    exact spec.maxRetries
  -- the others do not replace the queue manager
  | _ => rfl

/-- **Every action moves the tasks in one of ten ways.** -/
theorem Effect.moved (effect : Effect platform env m action r c)
    (distinct : m.broker.queueManager.Distinct) :
    Moved env.uuid.text m.broker.queueManager.maxRetries
      (m.broker.walStore = none ∨ action = .replayAll) m.broker.queueManager.ledger
      c.queueManager.ledger := by
  cases effect with
  | produce command admitted named hashed persisted =>
    rw [persisted.memory.1, QueueManager.ledger_enqueue]
    exact .created rfl rfl
  | consumeEmpty command hashed taken =>
    rw [QueueManager.ledger_dequeue_none taken]
    exact .still
  | consumeUnhashable command admitted hashed taken unhashable =>
    obtain ⟨head, rest, rfl, split, ledger⟩ := QueueManager.ledger_dequeue_some distinct taken
    rw [ledger]
    exact .delivered split
  | consume command admitted hashed taken consumer persisted =>
    obtain ⟨head, rest, rfl, split, ledger⟩ := QueueManager.ledger_dequeue_some distinct taken
    rw [persisted.memory.1, ledger]
    exact .delivered split
  | ackAborted command admitted named found fails =>
    rw [QueueManager.ledger_acknowledge distinct found]
    exact .acknowledged (QueueManager.inFlight_of_find? found)
  | ack command admitted named found passes persisted =>
    rw [persisted.memory.1, QueueManager.ledger_acknowledge distinct found]
    exact .acknowledged (QueueManager.inFlight_of_find? found)
  | nackAborted command admitted named nacked fails =>
    obtain ⟨task, found, spec⟩ := QueueManager.negativeAcknowledge_some nacked
    exact spec.moved distinct found
  | nack command admitted named nacked passes persisted =>
    obtain ⟨task, found, spec⟩ := QueueManager.negativeAcknowledge_some nacked
    rw [persisted.memory.1]
    exact spec.moved distinct found
  | replayCut command opened found decodes unsaved =>
    rw [QueueManager.ledger_enqueue]
    exact .created rfl rfl
  | replay command opened found decodes binds alive =>
    rw [QueueManager.ledger_enqueue]
    exact .created rfl rfl
  | retry command closed named found =>
    have spec := QueueManager.retry_retries m.broker.queueManager
    exact .retried (Or.inl closed) (spec _).returns (spec _).inFlight (spec _).completed
  | purge command opened counted persisted =>
    rw [persisted.memory.1]
    exact .still
  | @purgeMemory message count dlq command closed purged => exact .purged (purged_le purged)
  | evict ran ending =>
    obtain ⟨spec, -, -⟩ := evictDeadWorkers_spec ran
    have dead := congrArg (fun dlq : DeadLetterQueue => (dlq.tasks.rows : Multiset Task))
      spec.deadLetterQueue
    exact .evicted spec.returns spec.completed dead
  | reset persisted =>
    rw [persisted.memory.1]
    exact .cleared
  | replayAll ran =>
    have spec := (QueueManager.retries_of_retryEach ran).1
    exact .retried (Or.inr rfl) spec.returns spec.inFlight spec.completed
  -- the others move no task
  | _ => exact .still

/-! ## Changes of the database -/

/-- What `save_task` writes, field by field. -/
theorem Platform.taskRow_ok (binds : platform.taskRow task now = .ok row) :
    row.taskId = task.taskId ∧ platform.Encodes task.payload row.payload ∧
      row.status = task.status ∧ row.attempts = task.attempts ∧ row.createdAt = task.createdAt ∧
      platform.requiredTextOf task.queueName.toJson = .ok row.queueName := by
  obtain ⟨text, written, binds⟩ := Exec.of_bind_eq_ok binds
  obtain ⟨name, named, binds⟩ := Exec.of_bind_eq_ok binds
  obtain ⟨payload, bound, binds⟩ := Exec.of_bind_eq_ok binds
  obtain ⟨worker, -, binds⟩ := Exec.of_bind_eq_ok binds
  obtain ⟨shallow, rfl⟩ := Platform.dumps_eq_ok.mp written
  obtain ⟨able, rfl⟩ := Platform.bindText_eq_ok.mp bound
  cases binds
  exact ⟨rfl, ⟨⟨shallow, able⟩, rfl⟩, rfl, rfl, rfl, named⟩

/-- What `add_to_dlq` writes, field by field. -/
theorem Platform.dlqRow_ok {error : String} {row : DlqRow}
    (binds : platform.dlqRow task error now = .ok row) :
    row.taskId = task.taskId ∧ platform.Encodes task.payload row.payload ∧
      row.attempts = task.attempts ∧ row.finalError = error ∧ row.deadLetteredAt = now ∧
      platform.requiredTextOf task.queueName.toJson = .ok row.queueName := by
  obtain ⟨text, written, binds⟩ := Exec.of_bind_eq_ok binds
  obtain ⟨name, named, binds⟩ := Exec.of_bind_eq_ok binds
  obtain ⟨payload, bound, binds⟩ := Exec.of_bind_eq_ok binds
  obtain ⟨shallow, rfl⟩ := Platform.dumps_eq_ok.mp written
  obtain ⟨able, rfl⟩ := Platform.bindText_eq_ok.mp bound
  cases binds
  exact ⟨rfl, ⟨⟨shallow, able⟩, rfl⟩, rfl, rfl, rfl, named⟩

/-- `save_task` gets to its commit if the payload can be written and the two names bound. -/
theorem Platform.taskRow_of_writes {queueName : String} {worker : Option String}
    (writes : platform.Writes task.payload)
    (named : platform.requiredTextOf task.queueName.toJson = .ok queueName)
    (assigned : platform.textOf task.assignedWorker = .ok worker) :
    platform.taskRow task now = .ok
      { taskId := task.taskId, queueName, payload := platform.jsonText task.payload,
        status := task.status, attempts := task.attempts, assignedWorker := worker,
        createdAt := task.createdAt, updatedAt := now } := by
  have written : platform.dumps platform.storeDepth task.payload =
      .ok (platform.jsonText task.payload) := Platform.dumps_eq_ok.mpr ⟨writes.1, rfl⟩
  have bound : platform.bindText (platform.jsonText task.payload) =
      .ok (platform.jsonText task.payload) := Platform.bindText_eq_ok.mpr ⟨writes.2, rfl⟩
  simp only [Platform.taskRow, written, named, bound, assigned, bind, Except.bind]
  rfl

/-- `add_to_dlq` gets to its commit if the payload can be written and the name bound. -/
theorem Platform.dlqRow_of_writes {error : String} {queueName : String}
    (writes : platform.Writes task.payload)
    (named : platform.requiredTextOf task.queueName.toJson = .ok queueName) :
    platform.dlqRow task error now = .ok
      { taskId := task.taskId, queueName, payload := platform.jsonText task.payload,
        finalError := error, attempts := task.attempts, deadLetteredAt := now } := by
  have written : platform.dumps platform.storeDepth task.payload =
      .ok (platform.jsonText task.payload) := Platform.dumps_eq_ok.mpr ⟨writes.1, rfl⟩
  have bound : platform.bindText (platform.jsonText task.payload) =
      .ok (platform.jsonText task.payload) := Platform.bindText_eq_ok.mpr ⟨writes.2, rfl⟩
  simp only [Platform.dlqRow, written, named, bound, bind, Except.bind]
  rfl

/-- **A dead letter that the broker wrote can be saved as a task again.** -/
theorem Platform.Stores.taskRow {queueName text : String} {payload : Json}
    (stores : platform.Stores queueName text) (decodes : platform.loads text = some payload) :
    ∃ row, platform.taskRow (env.task (.str queueName) payload) env.time = .ok row := by
  obtain ⟨binds, value, encodes⟩ := stores
  obtain rfl : value = payload := Option.some.inj (encodes.loads.symm.trans decodes)
  exact ⟨_, Platform.taskRow_of_writes encodes.writes binds.requiredTextOf rfl⟩

/-- The statements of a dead-lettering NACK move one row. -/
theorem nackStatements_deadLettered {walStore : Option Connection} {dlq : DeadLetterQueue}
    {statements : Database → Database}
    (binds : nackStatements platform env walStore dlq .deadLettered task = .ok statements) :
    ∃ row : DlqRow, row.taskId = task.taskId ∧
      platform.dlqRow (nackStub env dlq task) "max retries exceeded" env.time = .ok row ∧
      statements = fun db => db.addToDlq row := by
  unfold nackStatements at binds
  simp only at binds
  split at binds
  · cases binds
  · obtain ⟨row, bound, rfl⟩ := Exec.of_map_eq_ok binds
    exact ⟨row, (Platform.dlqRow_ok bound).1, bound, rfl⟩

/-- The payload that `_handle_nack` finds for a task that was just added. -/
theorem deadLetterPayload_add {dlq : DeadLetterQueue}
    (absent : dlq.tasks.find? task.taskId = none) :
    deadLetterPayload (dlq.add now task) task.taskId =
      if dlq.count < 100 then task.payload else .obj [] := by
  have others : dlq.tasks.rows.find? (fun row => decide (row.taskId = task.taskId)) = none := absent
  have rows : (dlq.add now task).tasks.rows = dlq.tasks.rows ++ [task.bury now] :=
    Table.rows_put_of_absent absent
  unfold deadLetterPayload DeadLetterQueue.peek DeadLetterQueue.count
  rw [rows, show (100 : Int) = ((100 : Nat) : Int) from rfl, sliceTo_natCast]
  split_ifs with room
  · rw [List.take_of_length_le (by simp; omega), List.find?_append, others]
    simp [Task.bury]
  · have oldest : (dlq.tasks.rows.take 100).find? (fun row => decide (row.taskId = task.taskId)) =
        none :=
      List.find?_eq_none.mpr fun row inside =>
        List.find?_eq_none.mp others row (List.mem_of_mem_take inside)
    rw [List.take_append_of_le_length (by omega), oldest]

/-- The store can write what `_handle_nack` gives it for a dead letter, if it can write the
payload of the task. -/
theorem QueueManager.Nacked.writes_deadLetter {qm qm' : QueueManager} {id : String} {task' : Task}
    (nacked : Nacked qm now task .deadLettered task' qm') (distinct : qm.Distinct)
    (found : qm.inFlight.find? id = some task) (writes : platform.Writes task.payload) :
    platform.Writes (deadLetterPayload qm'.deadLetterQueue task'.taskId) := by
  have absent := distinct.dead_absent found
  rw [← nacked.taskId_eq] at absent
  rw [nacked.deadLetterQueue_eq, deadLetterPayload_add absent, nacked.payload_eq]
  split_ifs
  · exact writes
  · exact platform.writes_empty

/-- What an action can do to the database, when it has `id` to give to a new task and the
tasks in memory are `l`. -/
inductive DiskMoved (platform : Platform) (id : String) (l : Ledger) (db : Database) :
    Database → Prop where
  | still : DiskMoved platform id l db db
  | saved {row : TaskRow} (fresh : row.taskId = id)
      (stored : platform.Stores row.queueName row.payload) (unused : row.attempts = 0) :
      DiskMoved platform id l db (db.saveTask row)
  | marked {taskId : String} {status : TaskStatus} {attempts : Option Nat}
      {worker : Option (Option String)} {now : Rat}
      (known : ∃ task, (task ∈ l.pending ∨ task ∈ l.inFlight) ∧ task.taskId = taskId) :
      DiskMoved platform id l db (db.updateTaskStatus taskId status attempts worker now)
  | buried {row : DlqRow}
      (known : ∃ task ∈ l.inFlight, task.taskId = row.taskId)
      (stored : platform.Stores row.queueName row.payload) :
      DiskMoved platform id l db (db.addToDlq row)
  | deleted {taskId : String} : DiskMoved platform id l db (db.deleteDlq taskId)
  | replayed {taskId : String} {row : TaskRow} (fresh : row.taskId = id)
      (stored : platform.Stores row.queueName row.payload) (unused : row.attempts = 0) :
      DiskMoved platform id l db ((db.deleteDlq taskId).saveTask row)
  | purged {name : Option (Option String)} : DiskMoved platform id l db (db.purgeDlq name)
  | cleared : DiskMoved platform id l db {}

/-- **Every action changes the database in one of eight ways.** -/
theorem Effect.diskMoved (effect : Effect platform env m action r c)
    (distinct : m.broker.queueManager.Distinct) :
    DiskMoved platform env.uuid.text m.broker.queueManager.ledger m.disk c.disk := by
  cases effect with
  | produce command admitted named hashed persisted =>
    refine persisted.disk_elim .still fun statements binds => ?_
    obtain ⟨row, bound, rfl⟩ := Exec.of_map_eq_ok binds
    obtain ⟨isId, encodes, -, attempts, -, named⟩ := Platform.taskRow_ok bound
    exact .saved isId ⟨Platform.binds_of_requiredTextOf named, _, encodes⟩ attempts
  | consume command admitted hashed taken consumer persisted =>
    refine persisted.disk_elim .still fun statements binds => ?_
    obtain ⟨head, rest, rfl, split, -⟩ := QueueManager.ledger_dequeue_some distinct taken
    obtain ⟨text, -, rfl⟩ := Exec.of_map_eq_ok binds
    refine .marked ⟨head, Or.inl ?_, rfl⟩
    rw [split]
    exact Multiset.mem_cons_self _ _
  | ack command admitted named found passes persisted =>
    refine persisted.disk_elim .still fun statements binds => ?_
    cases binds
    exact .marked ⟨_, Or.inr (Table.mem_of_find? found), Table.key_of_find? found⟩
  | @nack message id action task qm r c command admitted named nacked passes persisted =>
    obtain ⟨origin, found, spec⟩ := QueueManager.negativeAcknowledge_some nacked
    have member : origin ∈ m.broker.queueManager.ledger.inFlight := Table.mem_of_find? found
    refine persisted.disk_elim .still fun statements binds => ?_
    cases action with
    | deadLettered =>
      obtain ⟨row, isId, bound, rfl⟩ := nackStatements_deadLettered binds
      obtain ⟨-, encodes, -, -, -, named⟩ := Platform.dlqRow_ok bound
      exact .buried ⟨origin, member, spec.taskId_eq.symm.trans isId.symm⟩
        ⟨Platform.binds_of_requiredTextOf named, _, encodes⟩
    | requeued =>
      cases binds
      exact .marked ⟨origin, Or.inr member, spec.taskId_eq.symm⟩
  | replayDropped command opened found fails => exact .deleted
  | replayCut command opened found decodes unsaved => exact .deleted
  | replay command opened found decodes binds alive =>
    obtain ⟨isId, encodes, -, attempts, -, named⟩ := Platform.taskRow_ok binds
    exact .replayed isId ⟨Platform.binds_of_requiredTextOf named, _, encodes⟩ attempts
  | purge command opened counted persisted =>
    refine persisted.disk_elim .still fun statements binds => ?_
    obtain ⟨name, -, rfl⟩ := Exec.of_map_eq_ok binds
    exact .purged
  | reset persisted =>
    refine persisted.disk_elim .still fun statements binds => ?_
    cases binds
    exact .cleared
  -- nothing else writes to the tables
  | _ => exact .still

/-- Whether there is a store does not change, and without one the database does not. -/
theorem Effect.store (effect : Effect platform env m action r c) :
    c.walStore.isSome = m.broker.walStore.isSome ∧
      (m.broker.walStore = none → c.disk = m.disk) := by
  have closed {c' : Core} {bound : Except Error (Database → Database)} {success : Outcome}
      {r : Except Stop Outcome} {c : Core} (persisted : Persist m.crashIn c' bound success r c)
      (same : c'.walStore = m.broker.walStore) (disk : c'.disk = m.disk) :
      c.walStore.isSome = m.broker.walStore.isSome ∧
        (m.broker.walStore = none → c.disk = m.disk) := by
    refine ⟨by rw [persisted.memory.2.2, same], fun none => ?_⟩
    rcases persisted.disk_cases with unchanged | ⟨opened, -⟩
    · rw [unchanged, disk]
    · rw [same, none] at opened
      cases opened
  have opened {c : Core} (isOpen : m.broker.walStore.isSome = true)
      (stays : c.walStore.isSome = true) :
      c.walStore.isSome = m.broker.walStore.isSome ∧
        (m.broker.walStore = none → c.disk = m.disk) := by
    refine ⟨by rw [stays, isOpen], fun none => ?_⟩
    rw [none] at isOpen
    cases isOpen
  cases effect with
  | produce command admitted named hashed persisted => exact closed persisted rfl rfl
  | consume command admitted hashed taken consumer persisted => exact closed persisted rfl rfl
  | ack command admitted named found passes persisted => exact closed persisted rfl rfl
  | nack command admitted named nacked passes persisted => exact closed persisted rfl rfl
  | purge command isOpen counted persisted => exact closed persisted rfl rfl
  | reset persisted => exact closed persisted rfl rfl
  | replayDropped command isOpen found fails => exact opened isOpen rfl
  | replayCut command isOpen found decodes unsaved => exact opened isOpen rfl
  | replay command isOpen found decodes binds alive => exact opened isOpen rfl
  | _ => exact ⟨rfl, fun _ => rfl⟩

/-! ## Recovery -/

theorem Database.mem_loadPendingTasks :
    row ∈ db.loadPendingTasks ↔ row ∈ db.tasks ∧ row.live = true := by
  rw [Database.loadPendingTasks, List.mem_insertionSort, List.mem_filter]
  exact Iff.rfl

/-- The recovery phase meets every id once. -/
theorem Database.nodup_loadPendingTasks (db : Database) :
    (db.loadPendingTasks.map TaskRow.taskId).Nodup := by
  have sorted := List.perm_insertionSort (fun a b : TaskRow => a.createdAt ≤ b.createdAt)
    (db.tasks.rows.filter TaskRow.live)
  refine (sorted.map TaskRow.taskId).nodup_iff.mpr ?_
  exact db.tasks.nodup.sublist (List.filter_sublist.map _)

/-- The stores after one iteration of the recovery loop. -/
def Core.recoverRow (c : Core) (env : Env) (row : TaskRow) (payload : Json) : Core :=
  { c with
    queueManager := c.queueManager.enqueueRecovered (.str row.queueName) row.taskId env.time
      payload row.attempts
    walStore := some {}
    disk := c.disk.updateTaskStatus row.taskId .pending (some row.attempts) none env.time }

/-- What every iteration of the recovery loop keeps holds of the database it leaves, and
of the stores if it completes. -/
theorem Recovery.invariant {crashes : Prop} {rows : List TaskRow} {c' : Core} {r : Except Stop Unit}
    {P : List TaskRow → Core → Prop} (recovery : Recovery platform env crashes rows c r c')
    (start : P rows c) (keeps : ∀ row rest payload c, platform.loads row.payload = some payload →
      P (row :: rest) c → P rest (c.recoverRow env row payload)) :
    ∃ rest reached, P rest reached ∧ c'.disk = reached.disk ∧
      (r = .ok () → rest = [] ∧ c' = reached) := by
  induction recovery with
  | done => exact ⟨_, _, start, rfl, fun _ => ⟨rfl, rfl⟩⟩
  | undecodable fails => exact ⟨_, _, start, rfl, fun absurd => by cases absurd⟩
  | died may same => exact ⟨_, _, start, same, fun absurd => by cases absurd⟩
  | next decodes later ih => exact ih (keeps _ _ _ _ decodes start)

/-- A completed recovery phase only adds pending tasks. -/
theorem Recovery.frame {crashes : Prop} {rows : List TaskRow} {c' : Core}
    (recovery : Recovery platform env crashes rows c (.ok ()) c') :
    c'.queueManager.ledger.inFlight = c.queueManager.ledger.inFlight ∧
      c'.queueManager.ledger.dead = c.queueManager.ledger.dead ∧
      c'.workerRegistry = c.workerRegistry := by
  obtain ⟨rest, reached, kept, -, complete⟩ :=
    recovery.invariant (P := fun _ now =>
        now.queueManager.ledger.inFlight = c.queueManager.ledger.inFlight ∧
          now.queueManager.ledger.dead = c.queueManager.ledger.dead ∧
          now.workerRegistry = c.workerRegistry) ⟨rfl, rfl, rfl⟩ (by
      rintro row rest payload now - ⟨inFlight, dead, registry⟩
      simp only [Core.recoverRow, QueueManager.ledger_enqueueRecovered]
      exact ⟨inFlight, dead, registry⟩)
  rw [(complete rfl).2]
  exact kept

/-! ## Soundness -/

/-- Every row belongs to a task whose id was drawn, and its texts are ones that the broker
wrote. -/
structure Database.Sound (platform : Platform) (used : List String) (db : Database) : Prop where
  tasks : ∀ row ∈ db.tasks, row.taskId ∈ used ∧ platform.Stores row.queueName row.payload
  dead : ∀ row ∈ db.deadLetterQueue,
    row.taskId ∈ used ∧ platform.Stores row.queueName row.payload

/-- The stores of a broker that has drawn the ids `used`. -/
structure Core.Sound (config : Config) (platform : Platform) (used : List String) (c : Core) :
    Prop where
  distinct : c.queueManager.Distinct
  ids : ∀ id ∈ c.queueManager.ledger.ids, id ∈ used
  disk : c.disk.Sound platform used
  maxRetries : c.queueManager.maxRetries = config.maxRetries
  store : c.walStore.isSome = config.persistent
  volatile : config.persistent = false → c.disk = {}

section Soundness

variable {platform : Platform} {used : List String}

theorem Database.sound_empty : ({} : Database).Sound platform used where
  tasks := by simp
  dead := by simp

theorem Database.Sound.mono {id : String} (sound : db.Sound platform used) :
    db.Sound platform (used ++ [id]) where
  tasks row stored := ⟨List.mem_append_left _ (sound.tasks row stored).1,
    (sound.tasks row stored).2⟩
  dead row stored := ⟨List.mem_append_left _ (sound.dead row stored).1,
    (sound.dead row stored).2⟩

theorem Database.Sound.saveTask (sound : db.Sound platform used) (known : row.taskId ∈ used)
    (stores : platform.Stores row.queueName row.payload) :
    (db.saveTask row).Sound platform used where
  tasks := by
    intro other stored
    rcases Table.mem_upsert.mp stored with rfl | ⟨old, -⟩
    · exact ⟨known, stores⟩
    · exact sound.tasks other old
  dead := sound.dead

theorem Database.Sound.updateTaskStatus {taskId : String} {status : TaskStatus}
    {attempts : Option Nat} {worker : Option (Option String)} (sound : db.Sound platform used) :
    (db.updateTaskStatus taskId status attempts worker now).Sound platform used where
  tasks := by
    intro row stored
    rcases Database.mem_updateTaskStatus.mp stored with ⟨old, -⟩ | ⟨old, member, -, rfl⟩
    · exact sound.tasks row old
    · exact sound.tasks old member
  dead := sound.dead

theorem Database.Sound.deleteDlq {taskId : String} (sound : db.Sound platform used) :
    (db.deleteDlq taskId).Sound platform used where
  tasks := sound.tasks
  dead row stored := sound.dead row (Table.mem_erase.mp stored).1

/-- What a commit does keeps the tables sound. -/
theorem DiskMoved.sound {id : String} {l : Ledger} {db' : Database}
    (moved : DiskMoved platform id l db db') (known : ∀ id ∈ l.ids, id ∈ used)
    (sound : db.Sound platform used) : db'.Sound platform (used ++ [id]) := by
  have newest : id ∈ used ++ [id] := by simp
  cases moved with
  | still => exact sound.mono
  | saved fresh stores unused => exact sound.mono.saveTask (fresh ▸ newest) stores
  | marked _ => exact sound.mono.updateTaskStatus
  | @buried row inFlight stores =>
    obtain ⟨task, flying, isRow⟩ := inFlight
    have isUsed : row.taskId ∈ used := by
      refine known row.taskId ?_
      rw [← isRow]
      simp only [Ledger.ids, Multiset.mem_add]
      exact Or.inl (Or.inl (Or.inr (Multiset.mem_map_of_mem _ flying)))
    constructor
    · intro other stored
      exact sound.mono.tasks other (Table.mem_erase.mp stored).1
    · intro other stored
      rcases Table.mem_upsert.mp stored with rfl | ⟨old, -⟩
      · exact ⟨List.mem_append_left _ isUsed, stores⟩
      · exact sound.mono.dead other old
  | deleted => exact sound.mono.deleteDlq
  | replayed fresh stores unused => exact sound.mono.deleteDlq.saveTask (fresh ▸ newest) stores
  | @purged name =>
    constructor
    · intro row stored
      cases name <;> exact sound.mono.tasks row stored
    · intro row stored
      cases name with
      | none => exact absurd stored (Table.not_mem_empty row)
      | some name => exact sound.mono.dead row (Table.mem_filter.mp stored).1
  | cleared => exact Database.sound_empty

theorem Core.Sound.opened (sound : c.Sound config platform used)
    (persistent : config.persistent = true) : c.walStore.isSome = true :=
  sound.store.trans persistent

/-- A broker without a store has an empty database. -/
theorem Core.Sound.volatile_of_closed (sound : c.Sound config platform used)
    (closed : c.walStore = none) : c.disk = {} := by
  refine sound.volatile ?_
  rw [← sound.store, closed]
  rfl

theorem Core.Sound.mem_used (sound : c.Sound config platform used)
    (inside : task ∈ c.queueManager.ledger.pending ∨ task ∈ c.queueManager.ledger.inFlight ∨
      task ∈ c.queueManager.ledger.completed ∨ task ∈ c.queueManager.ledger.dead) :
    task.taskId ∈ used := by
  refine sound.ids _ ?_
  simp only [Ledger.ids, Multiset.mem_add]
  rcases inside with pending | flying | completed | dead
  · exact Or.inl (Or.inl (Or.inl (Multiset.mem_map_of_mem _ pending)))
  · exact Or.inl (Or.inl (Or.inr (Multiset.mem_map_of_mem _ flying)))
  · exact Or.inl (Or.inr (Multiset.mem_map_of_mem _ completed))
  · exact Or.inr (Multiset.mem_map_of_mem _ dead)

/-- Every action keeps the stores sound: a new id was not drawn before. -/
theorem Core.Sound.effect (sound : m.core.Sound config platform used) (fresh : env.uuid.text ∉ used)
    (effect : Effect platform env m action r c) :
    c.Sound config platform (used ++ [env.uuid.text]) := by
  have moved := effect.moved sound.distinct
  obtain ⟨store, volatile⟩ := effect.store
  have fewer := moved.ids_le
  constructor
  · refine Multiset.nodup_of_le fewer (Multiset.nodup_cons.mpr ⟨?_, sound.distinct⟩)
    exact fun old => fresh (sound.ids _ old)
  · intro id member
    rcases Multiset.mem_cons.mp (Multiset.mem_of_le fewer member) with rfl | old
    · simp
    · exact List.mem_append_left _ (sound.ids id old)
  · exact (effect.diskMoved sound.distinct).sound sound.ids sound.disk
  · exact effect.maxRetries_eq.trans sound.maxRetries
  · exact store.trans sound.store
  · intro isVolatile
    have closed : m.broker.walStore = none := by
      have store : m.broker.walStore.isSome = config.persistent := sound.store
      rw [isVolatile] at store
      exact Option.isSome_eq_false_iff.mp store |> Option.isNone_iff_eq_none.mp
    rw [volatile closed]
    exact sound.volatile isVolatile

/-- The invariant of the recovery loop: the recovered tasks are pending under distinct
ids, which none of the rows still to come has. -/
structure Recovering (config : Config) (platform : Platform) (used : List String)
    (rows : List TaskRow) (c : Core) : Prop where
  sound : c.Sound config platform used
  known : ∀ row ∈ rows, row.taskId ∈ used
  apart : (rows.map TaskRow.taskId).Nodup
  absent : ∀ row ∈ rows, row.taskId ∉ c.queueManager.ledger.ids

/-- A row is restored once, since its id is not in memory yet. -/
theorem Recovering.next {rest : List TaskRow} {payload : Json}
    (recovering : Recovering config platform used (row :: rest) c)
    (persistent : config.persistent = true) :
    Recovering config platform used rest (c.recoverRow env row payload) := by
  obtain ⟨sound, known, apart, absent⟩ := recovering
  have ids : (c.recoverRow env row payload).queueManager.ledger.ids =
      row.taskId ::ₘ c.queueManager.ledger.ids := by
    simp only [Core.recoverRow, QueueManager.ledger_enqueueRecovered, Ledger.ids,
      Multiset.map_cons, Multiset.cons_add]
  rw [List.map_cons, List.nodup_cons] at apart
  refine ⟨⟨?_, ?_, sound.disk.updateTaskStatus, ?_, ?_, ?_⟩, ?_, apart.2, ?_⟩
  · unfold QueueManager.Distinct
    rw [ids, Multiset.nodup_cons]
    exact ⟨absent row (by simp), sound.distinct⟩
  · intro id member
    rw [ids] at member
    rcases Multiset.mem_cons.mp member with rfl | old
    · exact known row (by simp)
    · exact sound.ids id old
  · simpa [Core.recoverRow] using sound.maxRetries
  · rw [persistent]
    rfl
  · intro volatile
    rw [persistent] at volatile
    cases volatile
  · intro other later
    exact known other (List.mem_cons_of_mem _ later)
  · intro other later member
    rw [ids] at member
    rcases Multiset.mem_cons.mp member with same | old
    · exact apart.1 (same ▸ List.mem_map_of_mem later)
    · exact absent other (List.mem_cons_of_mem _ later) old

theorem startCore_sound (sound : disk.Sound platform used)
    (volatile : config.persistent = false → disk = {}) :
    (startCore config env disk).Sound config platform used where
  distinct := by
    change ((0 : Multiset String) + 0 + 0 + 0).Nodup
    simp
  ids := by
    intro id member
    change id ∈ ((0 : Multiset String) + 0 + 0 + 0) at member
    simp at member
  disk := sound
  maxRetries := rfl
  store := by
    simp only [startCore, Broker.core, Broker.new]
    cases config.persistent <;> rfl
  volatile := volatile

theorem startCore_recovering (sound : disk.Sound platform used)
    (persistent : config.persistent = true) :
    Recovering config platform used disk.loadPendingTasks (startCore config env disk) where
  sound := startCore_sound sound fun volatile => by
    rw [persistent] at volatile
    cases volatile
  known row pending := (sound.tasks row (Database.mem_loadPendingTasks.mp pending).1).1
  apart := disk.nodup_loadPendingTasks
  absent row _ := by
    change row.taskId ∉ ((0 : Multiset String) + 0 + 0 + 0)
    simp

end Soundness

/-- The ids drawn by the events of a run. -/
def drawn (events : List Event) : List String := events.map Event.id

@[simp] theorem drawn_concat (events : List Event) (event : Event) :
    drawn (events ++ [event]) = drawn events ++ [event.env.uuid.text] := by
  simp [drawn, Event.id]

/-- The step condition that soundness needs. -/
def DrawsFresh (events : List Event) (_ : System) (event : Event) : Prop :=
  event.env.uuid.text ∉ drawn events

theorem FreshIds.drawsFresh (fresh : FreshIds events) :
    Trace.EachStep (step config platform) System.initial DrawsFresh events :=
  Trace.eachStep_fresh Event.id fresh

/-- The same for the events after some point of the run. -/
theorem FreshIds.drawsFresh_after {front back : List Event} (fresh : FreshIds (front ++ back)) :
    ∀ first event last, back = first ++ event :: last →
      DrawsFresh (front ++ first) (reach config platform (front ++ first)) event := by
  rintro first event last rfl
  exact fresh.drawsFresh (front ++ first) event last (List.append_assoc _ _ _).symm

/-! ### Ids and texts

The ids on file are as long as a UUID, and no value but a string is stored as a text of
that length; so a message that names a row names it by a string. -/

theorem length_of_mem_drawn {id : String} (member : id ∈ drawn events) :
    id.length = 36 := by
  obtain ⟨event, -, rfl⟩ := List.mem_map.mp member
  exact event.env.uuid.length_text

/-- Only a string is bound as a text of 36 characters. -/
theorem Platform.eq_str_of_textOf {value : Json} {text : String}
    (bound : platform.textOf value = .ok (some text)) (length : text.length = 36) :
    value = .str text := by
  cases value with
  | null => cases bound
  | bool b =>
    cases bound
    cases b <;> exact absurd length (by decide)
  | int i =>
    simp only [Platform.textOf] at bound
    split at bound
    · rename_i small
      cases bound
      have short := length_toString_le small
      omega
    · cases bound
  | float q =>
    cases bound
    have short := platform.realText_short q
    omega
  | nonFinite x => cases x <;> cases bound <;> exact absurd length (by decide)
  | str s =>
    obtain ⟨-, same⟩ := Platform.eq_of_textOf_str bound
    rw [Option.some.inj same]
  | arr items => cases bound
  | obj fields => cases bound

theorem Platform.mem_of_namedRow {taskId : Json} {row : DlqRow}
    (found : platform.namedRow disk taskId = some row) :
    row ∈ disk.deadLetterQueue := by
  unfold Platform.namedRow at found
  split at found
  · exact Table.mem_of_find? found
  · cases found

/-- A replay that has deleted a dead letter of the broker fails to save the task only if the
process dies. -/
theorem Database.Sound.died_of_unsaved {used : List String} {taskId : Json} {row : DlqRow}
    {payload : Json} {crashIn : Option Nat} (sound : disk.Sound platform used)
    (found : platform.namedRow disk taskId = some row)
    (decodes : platform.loads row.payload = some payload) (unsaved : Unsaved crashIn
      (platform.taskRow (env.task (.str row.queueName) payload) env.time) r) :
    r = .error .crashed ∧ crashIn = some 1 := by
  cases unsaved with
  | died spent => exact ⟨rfl, spent⟩
  | refused fails =>
    obtain ⟨-, stores⟩ := sound.dead row (Platform.mem_of_namedRow found)
    obtain ⟨saved, binds⟩ := @Platform.Stores.taskRow platform env _ _ _ stores decodes
    rw [fails] at binds
    cases binds

/-- A DLQ_REPLAY that finds a row names it by its id, and the row can be decoded. -/
theorem Database.Sound.namedRow {taskId : Json} {row : DlqRow}
    (sound : disk.Sound platform (drawn events))
    (found : platform.namedRow disk taskId = some row) :
    row ∈ disk.deadLetterQueue ∧ taskId = .str row.taskId ∧
      ∃ payload, platform.loads row.payload = some payload := by
  unfold Platform.namedRow at found
  split at found
  · rename_i text bound
    have stored := Table.mem_of_find? found
    have isText : row.taskId = text := Table.key_of_find? found
    obtain ⟨known, -, payload, encodes⟩ := sound.dead row stored
    have length := length_of_mem_drawn known
    subst isText
    exact ⟨stored, Platform.eq_str_of_textOf bound length, payload, encodes.loads⟩
  · cases found

/-- **Soundness is kept by every event that draws a new id.** -/
theorem sound_preserved (config : Config) (platform : Platform) :
    Preserved config platform DrawsFresh
      (fun events c => c.Sound config platform (drawn events))
      (fun events disk => disk.Sound platform (drawn events) ∧
        (config.persistent = false → disk = {})) where
  durable sound := ⟨sound.disk, sound.volatile⟩
  ran := by
    intro events broker disk event r c outcome _ sound fresh effect _ _
    rw [drawn_concat]
    exact sound.effect fresh effect
  ignored := by
    rintro events disk event ⟨sound, volatile⟩ - -
    rw [drawn_concat]
    exact ⟨sound.mono, volatile⟩
  recovered := by
    rintro events disk event r c outcome ⟨sound, -⟩ - persistent recovery - -
    rw [drawn_concat]
    obtain ⟨rest, reached, recovering, same, complete⟩ :=
      recovery.invariant (startCore_recovering sound.mono persistent)
        fun row rest payload c _ recovering => recovering.next persistent
    refine ⟨⟨same ▸ recovering.sound.disk, fun volatile => ?_⟩, fun done => ?_⟩
    · rw [persistent] at volatile
      cases volatile
    · rw [(complete done).2]
      exact recovering.sound
  fresh := by
    rintro events disk event outcome ⟨sound, volatile⟩ - - - -
    rw [drawn_concat]
    exact startCore_sound sound.mono volatile

/-- What has to be shown for a property `I` of the memory, when soundness is given. -/
theorem Preserved.ofMemory {P : List Event → System → Event → Prop} {I : List Event → Core → Prop}
    (draws : ∀ {events system event}, P events system event → DrawsFresh events system event)
    (ran : ∀ {events broker disk event r c}, reach config platform events = .running broker disk →
      (broker.core disk).Sound config platform (drawn events) → I events (broker.core disk) →
      P events (.running broker disk) event →
      Effect platform event.env { broker, disk, crashIn := event.crashIn } event.action r c →
      I (events ++ [event]) c)
    (recovered : ∀ {events disk event c}, disk.Sound platform (drawn events) →
      P events (.stopped disk) event → config.persistent = true →
      Recovery platform event.env (event.crashIn ≠ none) disk.loadPendingTasks
        (startCore config event.env disk) (.ok ()) c →
      I (events ++ [event]) c)
    (fresh : ∀ {events disk event}, P events (.stopped disk) event → config.persistent = false →
      I (events ++ [event]) (startCore config event.env disk)) :
    Preserved config platform P
      (fun events c => c.Sound config platform (drawn events) ∧ I events c)
      (fun events disk => disk.Sound platform (drawn events) ∧
        (config.persistent = false → disk = {})) where
  durable both := (sound_preserved config platform).durable both.1
  ran position both allowed effect ended shown :=
    ⟨(sound_preserved config platform).ran position both.1 (draws allowed) effect ended shown,
      ran position both.1 both.2 allowed effect⟩
  ignored sound allowed shown :=
    (sound_preserved config platform).ignored sound (draws allowed) shown
  recovered := by
    intro events disk event r c outcome sound allowed persistent recovery mute shown
    obtain ⟨onDisk, complete⟩ := (sound_preserved config platform).recovered sound (draws allowed)
      persistent recovery mute shown
    refine ⟨onDisk, fun done => ⟨complete done, ?_⟩⟩
    subst done
    exact recovered sound.1 allowed persistent recovery
  fresh := by
    intro events disk event outcome sound allowed volatile mute shown
    exact ⟨(sound_preserved config platform).fresh sound (draws allowed) volatile mute shown,
      fresh allowed volatile⟩

/-- What a process keeps from its start: the limit on attempts, whether it has a store, and an
empty database if it has none. -/
structure Core.Configured (config : Config) (c : Core) : Prop where
  maxRetries : c.queueManager.maxRetries = config.maxRetries
  store : c.walStore.isSome = config.persistent
  volatile : config.persistent = false → c.disk = {}

/-- **Every reached process is configured**, also where ids are drawn twice. -/
theorem reach_configured (config : Config) (platform : Platform) (events : List Event) :
    (reach config platform events).Holds (Core.Configured config)
      (fun disk => config.persistent = false → disk = {}) := by
  have new {env : Env} {disk : Database} (volatile : config.persistent = false → disk = {}) :
      (startCore config env disk).Configured config :=
    ⟨rfl, by cases persistent : config.persistent <;> simp [startCore, Broker.new, persistent],
      volatile⟩
  have preserved : Preserved config platform (fun _ _ _ => True)
      (fun _ c => c.Configured config) (fun _ disk => config.persistent = false → disk = {}) :=
    { durable := fun configured => configured.volatile
      ran := by
        intro events broker disk event r c outcome _ configured _ effect _ _
        obtain ⟨store, untouched⟩ := effect.store
        refine ⟨effect.maxRetries_eq.trans configured.maxRetries, store.trans configured.store,
          fun volatile => ?_⟩
        have closed : broker.walStore.isSome = false := configured.store.trans volatile
        rw [untouched (by simpa using closed)]
        exact configured.volatile volatile
      ignored := fun volatile _ _ => volatile
      recovered := by
        intro events disk event r c outcome volatile _ persistent recovery _ _
        obtain ⟨rest, reached, configured, same, complete⟩ :=
          recovery.invariant (P := fun _ c => c.Configured config) (new volatile)
            fun row rest payload c _ configured =>
              ⟨(QueueManager.enqueueRecovered_maxRetries _ _ _ _ _ _).trans configured.maxRetries,
                persistent.symm, fun volatile => by rw [persistent] at volatile; cases volatile⟩
        refine ⟨same ▸ configured.volatile, fun done => ?_⟩
        rw [(complete done).2]
        exact configured
      fresh := fun volatile _ _ _ _ => new volatile }
  exact preserved.holds (fun _ => rfl) fun _ _ _ _ => trivial

/-- **Every reached state is sound.** -/
theorem reach_sound (fresh : FreshIds events) :
    (reach config platform events).Holds
      (fun c => c.Sound config platform (drawn events))
      (fun disk => disk.Sound platform (drawn events) ∧
        (config.persistent = false → disk = {})) :=
  (sound_preserved config platform).holds ⟨Database.sound_empty, fun _ => rfl⟩ fresh.drawsFresh

end DistroSync
