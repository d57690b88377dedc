import DistroSync.Attempts

/-!
# Bounded delivery

A NACK looks at the attempts of its task before it puts the task back, so that a task
which fails `max_retries` times ends in the dead letter queue.  There are two more ways
back to a queue that do not look: the eviction pass, which requeues whatever a dead
worker had, and recovery, which brings back every row with a live status.

`RequeuesEarly` is the condition that these two find no task that has used up its attempts.
Under it every pending task has an attempt left in every state of every run
(`Bounded`), and no task is delivered more than `max_retries` times
(`deliveries_le_maxRetries`).  Without it the number of deliveries has no bound: a
worker that dies on its task is given it again after every eviction.
-/

namespace DistroSync

open Keyed Py

/-! ## The bound -/

/-- What is pending has an attempt left. -/
structure Ledger.Bounded (limit : Nat) (l : Ledger) : Prop where
  pending : ∀ task ∈ l.pending, task.attempts < limit
  inFlight : ∀ task ∈ l.inFlight, task.attempts ≤ limit

/-- The rows that say `pending` have an attempt left. -/
def Database.Bounded (limit : Nat) (db : Database) : Prop :=
  ∀ row ∈ db.tasks, row.status = .pending → row.attempts < limit

/-- The bound in memory and on file. -/
structure Bounded (limit : Nat) (c : Core) : Prop where
  memory : c.queueManager.ledger.Bounded limit
  rows : c.disk.Bounded limit

section Parts

variable {limit : Nat} {l l' : Ledger} {db db' : Database}

theorem Ledger.Bounded.add {task : Task} (bounded : l.Bounded limit)
    (left : task.attempts < limit) (pending : l'.pending = task ::ₘ l.pending)
    (inFlight : ∀ other ∈ l'.inFlight, other ∈ l.inFlight) : l'.Bounded limit where
  pending := by
    intro other inside
    rw [pending] at inside
    rcases Multiset.mem_cons.mp inside with rfl | old
    · exact left
    · exact bounded.pending other old
  inFlight other inside := bounded.inFlight other (inFlight other inside)

theorem Ledger.Bounded.mono (bounded : l.Bounded limit) (pending : l'.pending = l.pending)
    (inFlight : ∀ other ∈ l'.inFlight, other ∈ l.inFlight) : l'.Bounded limit where
  pending := pending ▸ bounded.pending
  inFlight other inside := bounded.inFlight other (inFlight other inside)

/-- Delivery uses up an attempt that was left. -/
theorem Ledger.Bounded.delivered {qm qm' : QueueManager} {queue : Scalar} {workerId : Json}
    {task : Task} (bounded : qm.ledger.Bounded limit) (distinct : qm.Distinct)
    (taken : qm.dequeue queue workerId = (some task, qm')) : qm'.ledger.Bounded limit := by
  obtain ⟨head, rest, rfl, split, ledger⟩ := QueueManager.ledger_dequeue_some distinct taken
  have left := bounded.pending head (split ▸ Multiset.mem_cons_self _ _)
  constructor
  · intro other inside
    rw [ledger] at inside
    exact bounded.pending other (split ▸ Multiset.mem_cons_of_mem inside)
  · intro other inside
    simp only [ledger, Multiset.mem_cons] at inside
    rcases inside with rfl | old
    · exact left
    · exact bounded.inFlight other old

/-- A NACK requeues only what has an attempt left. -/
theorem Ledger.Bounded.nacked {qm qm' : QueueManager} {now : Rat} {id : String}
    {action : NackAction} {task : Task} (bounded : qm.ledger.Bounded limit)
    (distinct : qm.Distinct) (maxRetries : qm.maxRetries = limit)
    (nacked : qm.negativeAcknowledge now id = (some (action, task), qm')) :
    qm'.ledger.Bounded limit ∧ (action = .requeued → task.attempts < limit) := by
  obtain ⟨origin, found, spec⟩ := QueueManager.negativeAcknowledge_some nacked
  cases action with
  | deadLettered =>
    rw [QueueManager.ledger_buried distinct found spec]
    exact ⟨bounded.mono rfl fun other inside => (Table.mem_erase.mp inside).1, nofun⟩
  | requeued =>
    have left : origin.release.attempts < limit := by
      cases spec with | requeued left => exact maxRetries ▸ left
    rw [QueueManager.ledger_requeued found spec]
    exact ⟨bounded.add left rfl fun other inside => (Table.mem_erase.mp inside).1,
      fun _ => spec.attempts_eq ▸ left⟩

/-- Retried tasks have all their attempts left. -/
theorem Ledger.Bounded.retried {qm qm' : QueueManager} {taken : String → Prop}
    (bounded : qm.ledger.Bounded limit) (positive : 0 < limit)
    (retries : QueueManager.Retries taken qm qm') : qm'.ledger.Bounded limit where
  pending := by
    intro task inside
    rcases (retries.returns.mem_pending task).mp inside with old | ⟨origin, -, -, rfl⟩
    · exact bounded.pending task old
    · exact positive
  inFlight task inside := bounded.inFlight task (retries.inFlight ▸ inside)

theorem Ledger.bounded_zero {completed dead : Multiset Task} :
    Ledger.Bounded limit { pending := 0, inFlight := 0, completed, dead } where
  pending task none := absurd none (Multiset.notMem_zero task)
  inFlight task none := absurd none (Multiset.notMem_zero task)

theorem Database.Bounded.saveTask {row : TaskRow} (bounded : db.Bounded limit)
    (left : row.attempts < limit) : (db.saveTask row).Bounded limit := by
  intro other stored pending
  rcases Table.mem_upsert.mp stored with rfl | ⟨old, -⟩
  · exact left
  · exact bounded other old pending

theorem Database.Bounded.updateTaskStatus {taskId : String} {status : TaskStatus}
    {attempts : Option Nat} {worker : Option (Option String)} {now : Rat}
    (bounded : db.Bounded limit) (left : status = .pending → ∃ k, attempts = some k ∧ k < limit) :
    (db.updateTaskStatus taskId status attempts worker now).Bounded limit := by
  intro row stored pending
  rcases Database.mem_updateTaskStatus.mp stored with ⟨old, -⟩ | ⟨origin, old, -, rfl⟩
  · exact bounded row old pending
  · obtain ⟨k, rfl, less⟩ := left pending
    exact less

theorem Database.Bounded.mono (bounded : db.Bounded limit)
    (fewer : ∀ row ∈ db'.tasks, row ∈ db.tasks) : db'.Bounded limit :=
  fun row stored pending => bounded row (fewer row stored) pending

theorem Database.bounded_empty : ({} : Database).Bounded limit :=
  fun row none => absurd none (Table.not_mem_empty row)

end Parts

/-! ## Steps -/

section Step

variable {limit : Nat} {platform : Platform} {env : Env} {m : Machine} {action : Action}
  {r : Except Stop Outcome} {c : Core}

/-- The tasks an eviction pass requeues have an attempt left. -/
def EvictsEarly (limit : Nat) (broker : Broker) (now : Rat) : Action → Prop
  | .evict _ => ∀ worker ∈ broker.workerRegistry.deadWorkers now, ∀ id ∈ worker.inFlightTasks,
      ∀ task ∈ broker.queueManager.inFlight.find? id, task.attempts < limit
  | _ => True

instance (broker : Broker) (now : Rat) (action : Action) :
    Decidable (EvictsEarly limit broker now action) :=
  match action with
  | .evict _ => inferInstanceAs (Decidable (∀ _ ∈ _, ∀ _ ∈ _, ∀ _ ∈ _, _))
  | .command _ => .isTrue trivial
  | .reset => .isTrue trivial
  | .replayAll => .isTrue trivial
  | .crashWorker _ => .isTrue trivial
  | .crash => .isTrue trivial
  | .start => .isTrue trivial

/-- The rows a start finds in flight have an attempt left. -/
def StartsEarly (limit : Nat) (disk : Database) : Action → Prop
  | .start => ∀ row ∈ disk.tasks, row.status = .inFlight → row.attempts < limit
  | _ => True

instance (disk : Database) (action : Action) : Decidable (StartsEarly limit disk action) :=
  match action with
  | .start => inferInstanceAs
      (Decidable (∀ row ∈ disk.tasks.rows, row.status = .inFlight → row.attempts < limit))
  | .command _ => .isTrue trivial
  | .evict _ => .isTrue trivial
  | .reset => .isTrue trivial
  | .replayAll => .isTrue trivial
  | .crashWorker _ => .isTrue trivial
  | .crash => .isTrue trivial

/-- A handler that ends in a store call keeps the bound if its memory and its statements do. -/
theorem Persist.bounded {crashIn : Option Nat} {c c' : Core}
    {bound : Except Error (Database → Database)} {success : Outcome}
    (persisted : Persist crashIn c bound success r c')
    (memory : c.queueManager.ledger.Bounded limit)
    (rows : c.disk.Bounded limit)
    (after : ∀ statements, bound = .ok statements → (statements c.disk).Bounded limit) :
    Bounded limit c' where
  memory := persisted.memory.1 ▸ memory
  rows := persisted.disk_elim rows after

/-- **The bound after an event.** -/
theorem Bounded.effect (bounded : Bounded limit m.core) (positive : 0 < limit)
    (distinct : m.broker.queueManager.Distinct)
    (maxRetries : m.broker.queueManager.maxRetries = limit)
    (early : EvictsEarly limit m.broker env.time action)
    (effect : Effect platform env m action r c) : Bounded limit c := by
  have memory : m.broker.queueManager.ledger.Bounded limit := bounded.memory
  have rows : m.disk.Bounded limit := bounded.rows
  cases effect with
  | quiet idle silent => exact bounded
  | produce command admitted named hashed persisted =>
    refine persisted.bounded ?_ rows fun statements binds => ?_
    · rw [QueueManager.ledger_enqueue]
      exact memory.add positive rfl fun _ => id
    · obtain ⟨row, bound, rfl⟩ := Exec.of_map_eq_ok binds
      obtain ⟨-, -, -, attempts, -⟩ := Platform.taskRow_ok bound
      exact rows.saveTask (attempts ▸ positive)
  | consumeEmpty command hashed taken =>
    refine ⟨?_, rows⟩
    simp only [QueueManager.ledger_dequeue_none taken]
    exact memory
  | consumeUnhashable command admitted hashed taken unhashable =>
    exact ⟨memory.delivered distinct taken, rows⟩
  | consume command admitted hashed taken consumer persisted =>
    refine persisted.bounded (memory.delivered distinct taken) rows fun statements binds => ?_
    obtain ⟨text, -, rfl⟩ := Exec.of_map_eq_ok binds
    exact rows.updateTaskStatus nofun
  | ackAborted command admitted named found fails =>
    refine ⟨?_, rows⟩
    simp only [QueueManager.ledger_acknowledge distinct found]
    exact memory.mono rfl fun other inside => (Table.mem_erase.mp inside).1
  | ack command admitted named found passes persisted =>
    refine persisted.bounded ?_ rows fun statements binds => ?_
    · simp only [QueueManager.ledger_acknowledge distinct found]
      exact memory.mono rfl fun other inside => (Table.mem_erase.mp inside).1
    · cases binds
      exact rows.updateTaskStatus nofun
  | nackAborted command admitted named nacked fails =>
    exact ⟨(memory.nacked distinct maxRetries nacked).1, rows⟩
  | @nack message id action task qm r c command admitted named nacked passes persisted =>
    obtain ⟨after, left⟩ := memory.nacked distinct maxRetries nacked
    refine persisted.bounded after rows fun statements binds => ?_
    cases action with
    | deadLettered =>
      obtain ⟨row, -, -, rfl⟩ := nackStatements_deadLettered binds
      exact rows.mono fun other stored => (Table.mem_erase.mp stored).1
    | requeued =>
      cases binds
      exact rows.updateTaskStatus fun _ => ⟨_, rfl, left rfl⟩
  | replayDied command opened found spent => exact bounded
  | replayCut command opened found decodes unsaved =>
    refine ⟨?_, rows⟩
    rw [QueueManager.ledger_enqueue]
    exact memory.add positive rfl fun _ => id
  | replay command opened found decodes binds alive =>
    obtain ⟨-, -, -, attempts, -⟩ := Platform.taskRow_ok binds
    refine ⟨?_, rows.saveTask (attempts ▸ positive)⟩
    rw [QueueManager.ledger_enqueue]
    exact memory.add positive rfl fun _ => id
  | @retry message id task command closed named found =>
    exact ⟨memory.retried positive (QueueManager.retry_retries _ id), rows⟩
  | purge command opened counted persisted =>
    refine persisted.bounded memory rows fun statements binds => ?_
    obtain ⟨name, -, rfl⟩ := Exec.of_map_eq_ok binds
    cases name <;> exact rows
  | purgeMemory command closed purged => exact ⟨⟨memory.pending, memory.inFlight⟩, rows⟩
  | @evict order result registry qm r ran ending =>
    obtain ⟨requeues, -⟩ := evictDeadWorkers_spec ran
    refine ⟨⟨fun task inside => ?_, fun task inside => ?_⟩, rows⟩
    · rcases (requeues.returns.mem_pending task).mp inside with
        old | ⟨origin, flying, ⟨worker, reached, tracked⟩, rfl⟩
      · exact memory.pending task old
      · exact early worker (List.takeWhile_subset _ reached) _ tracked origin
          (Table.find?_of_mem flying)
    · exact memory.inFlight task ((requeues.returns.mem_source task).mp inside).1
  | reset persisted =>
    refine persisted.bounded Ledger.bounded_zero rows fun statements binds => ?_
    cases binds
    exact Database.bounded_empty
  | @replayAll ids qm ran =>
    exact ⟨memory.retried positive (QueueManager.retries_of_retryEach ran).1, rows⟩
  | crashNobody => exact bounded
  | crash => exact bounded
  | start => exact bounded
  -- the others hand out no task
  | _ => exact ⟨memory, rows⟩

/-- Recovery keeps the bound if it finds no row in flight that has used up its attempts. -/
theorem Recovery.bounded {config : Config} {crashes : Prop} {disk : Database}
    {r : Except Stop Unit} (rows : disk.Bounded limit)
    (early : ∀ row ∈ disk.tasks, row.status = .inFlight → row.attempts < limit)
    (recovery : Recovery platform env crashes disk.loadPendingTasks (startCore config env disk)
      r c) :
    c.disk.Bounded limit ∧ (r = .ok () → Bounded limit c) := by
  have live : ∀ row ∈ disk.loadPendingTasks, row.attempts < limit := by
    intro row loaded
    obtain ⟨stored, isLive⟩ := Database.mem_loadPendingTasks.mp loaded
    cases status : row.status with
    | pending => exact rows row stored status
    | inFlight => exact early row stored status
    | done => simp [TaskRow.live, status, TaskStatus.live] at isLive
    | deadLettered => simp [TaskRow.live, status, TaskStatus.live] at isLive
  have start : (∀ row ∈ disk.loadPendingTasks, row.attempts < limit) ∧
      Bounded limit (startCore config env disk) := ⟨live, Ledger.bounded_zero, rows⟩
  obtain ⟨rest, reached, ⟨-, bounded⟩, same, complete⟩ := recovery.invariant
    (P := fun rows c => (∀ row ∈ rows, row.attempts < limit) ∧ Bounded limit c) start (by
      rintro row rest payload c - ⟨live, bounded⟩
      have left := live row (by simp)
      refine ⟨fun other later => live other (List.mem_cons_of_mem _ later), ?_, ?_⟩
      · simp only [Core.recoverRow, QueueManager.ledger_enqueueRecovered]
        exact bounded.memory.add left rfl fun _ => id
      · exact bounded.rows.updateTaskStatus fun _ => ⟨_, rfl, left⟩)
  exact ⟨same ▸ bounded.rows, fun done => (complete done).2 ▸ bounded⟩

end Step

/-! ## Whole runs -/

section Run

variable {config : Config} {platform : Platform}

/-- The step condition for the bound: what an eviction pass requeues, and what a start finds in
flight, has an attempt left. -/
def RequeuesEarly (limit : Nat) : System → Event → Prop
  | .running broker _, event => EvictsEarly limit broker event.env.time event.action
  | .stopped disk, event => StartsEarly limit disk event.action

instance (limit : Nat) (system : System) (event : Event) :
    Decidable (RequeuesEarly limit system event) :=
  match system with
  | .running _ _ => inferInstanceAs (Decidable (EvictsEarly _ _ _ _))
  | .stopped _ => inferInstanceAs (Decidable (StartsEarly _ _ _))

theorem bounded_kept (positive : 0 < config.maxRetries) :
    Kept config platform
      (fun events system event =>
        DrawsFresh events system event ∧ RequeuesEarly config.maxRetries system event)
      (fun events c => c.Sound config platform (drawn events) ∧ Bounded config.maxRetries c)
      (fun events disk => (disk.Sound platform (drawn events) ∧
          (config.persistent = false → disk = {})) ∧ disk.Bounded config.maxRetries) where
  ran := by
    rintro events broker disk event r c position ⟨sound, bounded⟩ ⟨fresh, early⟩ effect - - -
    have distinct : broker.queueManager.Distinct := sound.distinct
    have maxRetries : broker.queueManager.maxRetries = config.maxRetries := sound.maxRetries
    refine ⟨?_, Bounded.effect (m := { broker, disk, crashIn := event.crashIn }) bounded positive
      distinct maxRetries early effect⟩
    rw [drawn_concat]
    exact sound.effect fresh effect
  died := by
    rintro events broker disk event r c position ⟨sound, bounded⟩ ⟨fresh, early⟩ effect - -
    have distinct : broker.queueManager.Distinct := sound.distinct
    have maxRetries : broker.queueManager.maxRetries = config.maxRetries := sound.maxRetries
    have after := sound.effect fresh effect
    have within := Bounded.effect (m := { broker, disk, crashIn := event.crashIn }) bounded positive
      distinct maxRetries early effect
    rw [drawn_concat]
    exact ⟨⟨after.disk, after.volatile⟩, within.rows⟩
  ignored := by
    rintro events disk event ⟨sound, bounded⟩ ⟨fresh, -⟩ shown
    exact ⟨(sound_preserved config platform).ignored sound fresh shown, bounded⟩
  recovered := by
    rintro events disk event r c outcome ⟨sound, bounded⟩ ⟨fresh, early⟩ starts persistent recovery
      mute shown
    obtain ⟨onDisk, complete⟩ := (sound_preserved config platform).recovered sound fresh persistent
      recovery mute shown
    rw [RequeuesEarly, starts] at early
    obtain ⟨rows, whole⟩ := recovery.bounded bounded early
    exact ⟨⟨onDisk, rows⟩, fun done => ⟨complete done, whole done⟩⟩
  fresh := by
    rintro events disk event outcome ⟨sound, bounded⟩ ⟨fresh, -⟩ isVolatile mute shown
    have started := (sound_preserved config platform).fresh sound fresh isVolatile mute shown
    exact ⟨⟨⟨started.disk, sound.2⟩, bounded⟩, started, Ledger.bounded_zero, bounded⟩

/-- Steps of every kind keep the count below the attempts. -/
theorem tolerant_le (system : System) (event : Event) :
    Tolerant (· ≤ ·) platform system event := by
  cases system with
  | running broker disk => exact ⟨Or.inl fun n k => Nat.le_succ_of_le, Or.inl Nat.zero_le⟩
  | stopped disk => trivial

/-- The deliveries of a task are never more than its attempts. -/
theorem deliveries_le_attempts {events : List Event} {broker : Broker} {disk : Database}
    (fresh : FreshIds events) (position : reach config platform events = .running broker disk) :
    broker.queueManager.ledger.Counted (· ≤ ·) (countAfter config platform events) := by
  have holds := (@counted_kept _ config platform tallies_le).holds
    ⟨⟨Database.sound_empty, fun _ => rfl⟩, fun row none => absurd none (Table.not_mem_empty row),
      fun _ _ => rfl⟩
    (fresh.drawsFresh.and (Trace.EachStep.of_mem fun event _ system => tolerant_le system event))
  rw [position] at holds
  exact holds.2.1.memory

/-- The bound in a state that is reached by steps which spare the exhausted tasks. -/
theorem reach_bounded {events : List Event} {broker : Broker} {disk : Database}
    (positive : 0 < config.maxRetries) (fresh : FreshIds events)
    (spares : Trace.EachStep (step config platform) System.initial
      (fun _ system event => RequeuesEarly config.maxRetries system event) events)
    (position : reach config platform events = .running broker disk) :
    (broker.core disk).Sound config platform (drawn events) ∧
      Bounded config.maxRetries (broker.core disk) := by
  have holds := (@bounded_kept config platform positive).holds
    ⟨⟨Database.sound_empty, fun _ => rfl⟩, Database.bounded_empty⟩ (fresh.drawsFresh.and spares)
  rw [position] at holds
  exact holds

/-- A step adds a delivery only where an attempt is left. -/
theorem deliveries_le {events : List Event} (positive : 0 < config.maxRetries)
    (fresh : FreshIds events)
    (spares : Trace.EachStep (step config platform) System.initial
      (fun _ system event => RequeuesEarly config.maxRetries system event) events) (t : String) :
    deliveries t (history config platform events) ≤ config.maxRetries := by
  induction events using List.reverseRecOn with
  | nil => exact Nat.zero_le _
  | append_singleton front event ih =>
    have earlier : FreshIds front := by
      unfold FreshIds at fresh ⊢
      rw [List.map_append] at fresh
      exact (List.nodup_append.mp fresh).1
    have before := ih earlier spares.front
    rw [deliveries_concat]
    cases shown : (step config platform (reach config platform front) event).1 with
    | answered response =>
      cases response with
      | consumed delivery =>
        simp only [Outcome.recount]
        split_ifs with same
        · obtain ⟨broker, disk, broker', disk', position, -, -, effect⟩ :=
            step_answered shown
          obtain ⟨sound, bounded⟩ := reach_bounded positive earlier spares.front position
          have counted := deliveries_le_attempts earlier position
          have distinct : broker.queueManager.Distinct := sound.distinct
          obtain ⟨message, received⟩ := effect.command_of_answered
          rw [received] at effect
          obtain ⟨queue, worker, task, -, taken, -, -, isTask, -⟩ := effect.of_consumed
          obtain ⟨head, rest, rfl, split, -⟩ :=
            QueueManager.ledger_dequeue_some distinct taken
          have waiting : head ∈ broker.queueManager.ledger.pending :=
            split ▸ Multiset.mem_cons_self _ _
          have isHead : head.taskId = t := isTask.symm.trans same
          exact isHead ▸ (counted.pending head waiting).trans_lt
            (bounded.memory.pending head waiting)
        · exact before
      | replayed original replayed =>
        simp only [Outcome.recount]
        split_ifs
        · exact Nat.zero_le _
        · exact before
      | _ => exact before
    | replayedAll ids =>
      simp only [Outcome.recount]
      split_ifs
      · exact Nat.zero_le _
      · exact before
    | _ => exact before

/-- **Bounded delivery.**  If the eviction passes and the starts of a run find no task that has
used up its attempts, then in the state it reaches every pending task has an attempt left, no
task in flight has more than the maximum, and no task was delivered more often than that since
it was enqueued or last retried. -/
theorem deliveries_le_maxRetries {events : List Event} (positive : 1 ≤ config.maxRetries)
    (fresh : FreshIds events)
    (spares : Trace.EachStep (step config platform) System.initial
      (fun _ system event => RequeuesEarly config.maxRetries system event) events) :
    (∀ broker disk, reach config platform events = .running broker disk →
      (∀ task ∈ broker.queueManager.ledger.pending, task.attempts < config.maxRetries) ∧
        ∀ task ∈ broker.queueManager.ledger.inFlight, task.attempts ≤ config.maxRetries) ∧
    ∀ t, deliveries t (history config platform events) ≤ config.maxRetries := by
  refine ⟨fun broker disk position => ?_, deliveries_le positive fresh spares⟩
  obtain ⟨-, bounded⟩ := reach_bounded positive fresh spares position
  exact ⟨bounded.memory.pending, bounded.memory.inFlight⟩

/-- A worker registers, consumes and falls silent; the eviction pass gives its task back. -/
def silentRound (n : Nat) : List Event :=
  [.at n (.register "w"), .at (n + 1) (.consume "q" "w"), .at (n + 10) (.evict .insertion)]

/-- One task and four such workers. -/
def poisonRun : List Event :=
  [.at 0 .start, .at 1 (.produce "q" "p")] ++ silentRound 10 ++ silentRound 30 ++
    silentRound 50 ++ silentRound 70

/-- **The poison task.**  Evictions do not look at the retry budget: the task is delivered four
times and waits for the fifth. -/
theorem evictions_redeliver :
    FreshIds poisonRun ∧
      (∃ broker disk, reach { persistent := false, maxRetries := 3 } .plain poisonRun =
          .running broker disk ∧
        ∃ task ∈ broker.queueManager.ledger.pending, task.taskId = idAt 1 ∧ task.attempts = 4) ∧
      deliveries (idAt 1) (history { persistent := false, maxRetries := 3 } .plain poisonRun) =
        4 := by
  refine ⟨by decide +kernel, ?_, by decide +kernel⟩
  obtain ⟨broker, disk, position, found⟩ := @System.of_passes
    (fun broker _ => (broker.queueManager.deque (Scalar.str "q").key).any fun task =>
      decide (task.taskId = idAt 1) && decide (task.attempts = 4))
    (reach { persistent := false, maxRetries := 3 } .plain poisonRun) (by decide +kernel)
  obtain ⟨task, waiting, found⟩ := List.any_eq_true.mp found
  obtain ⟨same, tries⟩ := Bool.and_eq_true_iff.mp found
  exact ⟨broker, disk, position, task, (QueueManager.mem_pending _).mpr ⟨_, waiting⟩,
    of_decide_eq_true same, of_decide_eq_true tries⟩

/-- An eviction in between does not matter while an attempt is left. -/
theorem deliveries_le_maxRetries_evicted :
    ∃ broker disk, reach { persistent := false, maxRetries := 3 } .plain
        ([.at 0 .start, .at 1 (.produce "q" "p")] ++ silentRound 10) = .running broker disk ∧
      ∀ task ∈ broker.queueManager.ledger.pending, task.attempts < 3 := by
  obtain ⟨broker, disk, position, -⟩ := @System.of_passes (fun _ _ => true)
    (reach { persistent := false, maxRetries := 3 } .plain
      ([.at 0 .start, .at 1 (.produce "q" "p")] ++ silentRound 10)) (by decide +kernel)
  exact ⟨broker, disk, position, ((deliveries_le_maxRetries (by decide) (by decide +kernel)
    (Trace.eachStep_of_all (by decide +kernel))).1 broker disk position).1⟩

end Run

end DistroSync
