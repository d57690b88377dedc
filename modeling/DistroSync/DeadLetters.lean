import DistroSync.Finality
import DistroSync.NoLoss

/-!
# Dead letters

A persistent broker has its dead letters twice: in the dead letter queue in memory and
in the table `dead_letter_queue`.  DLQ_REPLAY and DLQ_PURGE work on the table and leave
the memory alone; the dashboard's replay-all works on the memory and leaves the table
alone, and does not write a row for what it puts back.

So a dead letter can be brought back twice, or after it was purged, and then without a
row.  It takes a replay-all that finds the task in memory; without one, a dead letter
is brought back at most once, never after a purge, and with a row
(`one_copy_per_deadLettering`).
-/

namespace DistroSync

open Keyed Py

/-! ## One replay per dead-lettering -/

section Copies

/-- The event puts a pending copy of `t` into a queue: it is a DLQ_REPLAY that finds its row
and does not die before it deletes it, or a replay-all that finds the task in memory. -/
def CreatesCopy (platform : Platform) (system : System) (event : Event) (t : String) : Prop :=
  Replays platform system event t ∧ event.crashIn ≠ some 0 ∨
    event.action = .replayAll ∧ RetriesInMemory system t

/-- The event is a DLQ_PURGE that covers `t` and was answered. -/
def PurgesTask (config : Config) (platform : Platform) (system : System) (event : Event)
    (t : String) : Prop :=
  ∃ broker disk message name count, system = .running broker disk ∧
    event.action = .command message ∧ commandOf message = some .dlqPurge ∧
    platform.queueFilter (message.get "queue" .null) = .ok name ∧
    (∀ row ∈ disk.deadLetterQueue, row.taskId = t →
      name = none ∨ name = some (some row.queueName)) ∧
    (step config platform system event).1 = .answered (.purged count)

/-- The dead letter table has no row of the task. -/
def Database.Forgets (db : Database) (t : String) : Prop :=
  ∀ row ∈ db.deadLetterQueue, row.taskId ≠ t

/-- The action is a NACK of `t`. -/
def Action.Nacks (action : Action) (t : String) : Prop :=
  ∃ message, action = .command message ∧ commandOf message = some .nack ∧
    message.get "task_id" .null = .str t

variable {config : Config} {platform : Platform} {t : String}

theorem Database.Forgets.not_replays {broker : Broker} {disk : Database} {event : Event}
    (forgets : disk.Forgets t) : ¬Replays platform (.running broker disk) event t := by
  rintro ⟨broker, disk, message, row, running, -, -, found, isRow⟩
  cases running
  unfold Platform.namedRow at found
  split at found
  · exact forgets row (Table.mem_of_find? found) isRow
  · cases found

/-- The dead letters of `db` were there before, or are of a task in flight that the action NACKs,
under the name of its queue. -/
def Buried (platform : Platform) (m : Machine) (action : Action) (db : Database) : Prop :=
  ∀ row ∈ db.deadLetterQueue, row ∈ m.disk.deadLetterQueue ∨ action.Nacks row.taskId ∧
    ∃ task ∈ m.broker.queueManager.inFlight, task.taskId = row.taskId ∧
      platform.requiredTextOf task.queueName.toJson = .ok row.queueName

/-- Only the NACK of a task in flight writes a row of the dead letter table. -/
theorem Effect.buried {env : Env} {m : Machine} {action : Action} {r : Except Stop Outcome}
    {c : Core} (effect : Effect platform env m action r c) : Buried platform m action c.disk := by
  have known : Buried platform m action m.disk := fun row => Or.inl
  have deleted (taskId : String) : Buried platform m action (m.disk.deleteDlq taskId) :=
    fun row stored => Or.inl (Table.mem_erase.mp stored).1
  cases effect with
  | produce command admitted named hashed persisted =>
    refine persisted.disk_elim known fun statements binds => ?_
    obtain ⟨saved, -, rfl⟩ := Exec.of_map_eq_ok binds
    exact known
  | consume command admitted hashed taken consumer persisted =>
    refine persisted.disk_elim known fun statements binds => ?_
    obtain ⟨text, -, rfl⟩ := Exec.of_map_eq_ok binds
    exact known
  | ack command admitted named found passes persisted =>
    refine persisted.disk_elim known fun statements binds => ?_
    cases binds
    exact known
  | @nack message id action task qm r c command admitted named nacked passes persisted =>
    obtain ⟨origin, found, spec⟩ := QueueManager.negativeAcknowledge_some nacked
    refine persisted.disk_elim known fun statements binds => ?_
    cases action with
    | deadLettered =>
      obtain ⟨written, isTask, bound, rfl⟩ := nackStatements_deadLettered binds
      intro row stored
      rcases Table.mem_upsert.mp stored with rfl | ⟨old, -⟩
      · have isId : origin.taskId = id := Table.key_of_find? found
        rw [isTask, spec.taskId_eq]
        refine Or.inr ⟨⟨message, rfl, command, isId ▸ named⟩, origin, Table.mem_of_find? found,
          rfl, ?_⟩
        rw [← spec.queueName_eq]
        exact (Platform.dlqRow_ok bound).2.2.2.2.2
      · exact Or.inl old
    | requeued =>
      cases binds
      exact known
  | replayDropped command opened found fails => exact deleted _
  | replayCut command opened found decodes unsaved => exact deleted _
  | replay command opened found decodes binds alive => exact deleted _
  | purge command opened counted persisted =>
    refine persisted.disk_elim known fun statements binds => ?_
    obtain ⟨name, -, rfl⟩ := Exec.of_map_eq_ok binds
    intro row stored
    cases name with
    | none => exact absurd stored (Table.not_mem_empty row)
    | some name => exact Or.inl (Table.mem_filter.mp stored).1
  | reset persisted =>
    refine persisted.disk_elim known fun statements binds => ?_
    cases binds
    exact fun row stored => absurd stored (Table.not_mem_empty row)
  | _ => exact known

/-- A row of a task that is not in flight does not come back. -/
theorem Effect.forgets {env : Env} {m : Machine} {action : Action} {r : Except Stop Outcome}
    {c : Core} (effect : Effect platform env m action r c)
    (memory : m.broker.queueManager.ledger.Lacks t) (forgets : m.disk.Forgets t) :
    c.disk.Forgets t := by
  rintro row stored rfl
  rcases effect.buried row stored with old | ⟨-, task, flying, isRow, -⟩
  · exact forgets row old rfl
  · exact memory task (Or.inr flying) isRow

/-- A DLQ_REPLAY that gets past its first commit has deleted the row. -/
theorem Effect.forgets_of_replay {env : Env} {m : Machine} {message : Message} {row : DlqRow}
    {r : Except Stop Outcome} {c : Core} {events : List Event}
    (sound : m.disk.Sound platform (drawn events)) (opened : m.broker.walStore.isSome = true)
    (command : commandOf message = some .dlqReplay)
    (found : platform.namedRow m.disk (message.get "task_id" .null) = some row)
    (alive : m.crashIn ≠ some 0) (effect : Effect platform env m (.command message) r c) :
    c.disk.Forgets row.taskId ∧
      (m.crashIn = none → ∃ saved ∈ c.disk.tasks, saved.taskId = env.uuid.text ∧
        saved.status = .pending) := by
  obtain ⟨stored, isText, payload, decodes⟩ := sound.namedRow found
  have deleted : (m.disk.deleteDlq row.taskId).Forgets row.taskId :=
    fun other kept => (Table.mem_erase.mp kept).2
  have unique {other : DlqRow}
      (also : platform.namedRow m.disk (message.get "task_id" .null) = some other) :
      other = row := by
    cases also.symm.trans found
    rfl
  cases effect with
  | quiet idle silent =>
    refine absurd ?_ (idle _ command)
    refine ⟨?_, by rw [if_pos opened]; exact ⟨row, found⟩⟩
    rw [isText]
    have length := length_of_mem_drawn (sound.dead row stored).1
    simp only [Json.truthy, decide_eq_true_eq]
    rintro empty
    rw [empty] at length
    cases length
  | replayDied command' opened' found' spent => exact absurd spent alive
  | replayDropped command' opened' found' fails =>
    rcases fails with rigid | undecodable
    · rw [isText] at rigid
      cases rigid
    · rw [unique found', decodes] at undecodable
      cases undecodable
  | replayCut command' opened' found' decodes' unsaved =>
    obtain ⟨-, spent⟩ := sound.died_of_unsaved found' decodes' unsaved
    rw [unique found']
    refine ⟨deleted, fun whole => ?_⟩
    rw [whole] at spent
    cases spent
  | @replay message' row' payload' saved command' opened' found' decodes' binds alive' =>
    obtain ⟨isId, -, status, -⟩ := Platform.taskRow_ok binds
    rw [unique found']
    exact ⟨deleted, fun _ => ⟨saved, Table.mem_upsert.mpr (Or.inl rfl), isId, status⟩⟩
  | retry command' closed named found' =>
    rw [closed] at opened
    cases opened
  | _ => simp_all only [Option.some.injEq, reduceCtorEq]

/-- An answered DLQ_PURGE has deleted the rows it covers. -/
theorem Effect.forgets_of_purge {env : Env} {m : Machine} {message : Message} {c : Core}
    {name : Option (Option String)} {count : Nat} (opened : m.broker.walStore.isSome = true)
    (filter : platform.queueFilter (message.get "queue" .null) = .ok name)
    (covers : ∀ row ∈ m.disk.deadLetterQueue, row.taskId = t →
      name = none ∨ name = some (some row.queueName))
    (effect : Effect platform env m (.command message) (.ok (.answered (.purged count))) c) :
    c.disk.Forgets t := by
  cases effect with
  | quiet idle silent => exact silent.elim
  | purge command opened' counted persisted =>
    obtain ⟨-, ⟨closed, -⟩ | ⟨-, statements, binds, rfl⟩⟩ := persisted.of_ok
    · change m.broker.walStore = none at closed
      rw [closed] at opened
      cases opened
    · obtain ⟨name', filter', rfl⟩ := Exec.of_map_eq_ok binds
      cases filter.symm.trans filter'
      intro row stored isRow
      cases name with
      | none => exact absurd stored (Table.not_mem_empty row)
      | some name =>
        obtain ⟨old, other⟩ := Table.mem_filter.mp stored
        rcases covers row old isRow with none | same
        · cases none
        · cases same
          simp at other
  | purgeMemory command closed purged =>
    rw [closed] at opened
    cases opened
  | replayCut command opened' found decodes unsaved => cases unsaved
  | _ => rename_i persisted; cases persisted.of_ok.1

/-- Recovery does not touch the dead letters. -/
theorem Recovery.deadLetterQueue {env : Env} {crashes : Prop} {rows : List TaskRow} {c c' : Core}
    {r : Except Stop Unit} (recovery : Recovery platform env crashes rows c r c') :
    c'.disk.deadLetterQueue = c.disk.deadLetterQueue := by
  obtain ⟨rest, reached, kept, same, -⟩ :=
    recovery.invariant (P := fun _ now => now.disk.deadLetterQueue = c.disk.deadLetterQueue) rfl
      fun row rest payload now _ kept => kept
  exact same ▸ kept

theorem forgotten_preserved (persistent : config.persistent = true) (t : String) :
    Preserved config platform (Spares t)
      (fun events c => (c.Sound config platform (drawn events) ∧ Gone (drawn events) t c) ∧
        c.disk.Forgets t)
      (fun events disk => (disk.Sound platform (drawn events) ∧ disk.Lacks t ∧
        t ∈ drawn events) ∧ disk.Forgets t) where
  durable both := ⟨(gone_preserved persistent t).durable both.1, both.2⟩
  ran := by
    intro events broker disk event r c outcome position both allowed effect ended shown
    refine ⟨(gone_preserved persistent t).ran position both.1 allowed effect ended shown, ?_⟩
    exact effect.forgets both.1.2.memory both.2
  ignored both allowed shown := ⟨(gone_preserved persistent t).ignored both.1 allowed shown, both.2⟩
  recovered := by
    intro events disk event r c outcome both allowed persistent recovery mute shown
    obtain ⟨onDisk, complete⟩ := (gone_preserved persistent t).recovered both.1 allowed persistent
      recovery mute shown
    have forgets : c.disk.Forgets t := by
      intro row stored
      rw [recovery.deadLetterQueue] at stored
      exact both.2 row stored
    exact ⟨⟨onDisk, forgets⟩, fun done => ⟨complete done, forgets⟩⟩
  fresh := by
    intro events disk event outcome _ _ volatile
    rw [persistent] at volatile
    cases volatile

theorem System.holds_and_disk {I : Core → Prop} {D : Database → Prop} (F : Database → Prop)
    {system : System} :
    system.Holds (fun c => I c ∧ F c.disk) (fun disk => D disk ∧ F disk) ↔
      system.Holds I D ∧ F system.disk := by
  cases system <;> rfl

/-- What the dead-lettering of `t` leads to: `t` is gone, and the broker is sound. -/
def System.Settled (config : Config) (platform : Platform) (t : String) (events : List Event) :
    System → Prop :=
  System.Holds
    (fun c => c.Sound config platform (drawn events) ∧ Gone (drawn events) t c)
    (fun disk => disk.Sound platform (drawn events) ∧ disk.Lacks t ∧ t ∈ drawn events)

/-- After a copy was made, or a purge answered, there is no row left. -/
theorem forgets_of_spent {events : List Event} {event : Event}
    (persistent : config.persistent = true)
    (settled : (reach config platform events).Settled config platform t events)
    (spared : event.action = .replayAll → ¬RetriesInMemory (reach config platform events) t)
    (spent : CreatesCopy platform (reach config platform events) event t ∨
      PurgesTask config platform (reach config platform events) event t) :
    (step config platform (reach config platform events) event).2.disk.Forgets t := by
  rcases spent with (⟨replays, alive⟩ | ⟨replays, retries⟩) | purges
  · obtain ⟨broker, disk, message, row, position, received, command, found, rfl⟩ := replays
    rw [position] at settled ⊢
    obtain ⟨sound, -⟩ := settled
    obtain ⟨r, c, effect, same, -⟩ := step_effect config platform broker disk event
    rw [received] at effect
    rw [same]
    exact (effect.forgets_of_replay sound.disk (sound.opened persistent) command found alive).1
  · exact absurd retries (spared replays)
  · obtain ⟨broker, disk, message, name, count, position, received, -, filter, covers, answered⟩ :=
      purges
    obtain ⟨broker₀, disk₀, broker', disk', position', next, -, effect⟩ := step_answered answered
    rw [position] at settled position'
    cases position'
    rw [next]
    rw [received] at effect
    obtain ⟨sound, -⟩ := settled
    exact effect.forgets_of_purge (sound.opened persistent) filter covers

/-- From then on there is none. -/
theorem forgets_after_spent {events later : List Event} {event : Event}
    (persistent : config.persistent = true)
    (settled : (reach config platform events).Settled config platform t events)
    (spent : CreatesCopy platform (reach config platform events) event t ∨
      PurgesTask config platform (reach config platform events) event t)
    (each : ∀ first next last, event :: later = first ++ next :: last →
      Spares t (events ++ first) (reach config platform (events ++ first)) next) :
    (reach config platform (events ++ event :: later)).disk.Forgets t := by
  have spares : Spares t events (reach config platform events) event := by
    simpa using each [] event later rfl
  have forgets := forgets_of_spent persistent settled spares.2 spent
  have still := (gone_preserved persistent t).step settled spares
  rw [← reach_concat] at forgets still
  rw [List.append_cons]
  have onward : ∀ first next last, later = first ++ next :: last →
      Spares t (events ++ [event] ++ first) (reach config platform (events ++ [event] ++ first))
        next := by
    intro first next last split
    rw [List.append_assoc]
    exact each (event :: first) next last (by rw [split]; rfl)
  have both := (forgotten_preserved persistent t).holds_from
    ((System.holds_and_disk (·.Forgets t)).mpr ⟨still, forgets⟩) onward
  exact ((System.holds_and_disk (·.Forgets t)).mp both).2

/-- **One replay per dead-lettering, and purged means gone**, after a NACK of `t` that was
answered `dead_lettered`, for as long as no replay-all finds `t` in memory: once a copy of
`t` was made or a purge that covers `t` was answered, no copy is made any more; and a copy
whose command completes has a pending row. -/
theorem one_copy_per_deadLettering {front back : List Event} {nack : Event} {message : Message}
    {attempts : Nat} {text : String} (persistent : config.persistent = true)
    (fresh : FreshIds (front ++ nack :: back)) (received : nack.action = .command message)
    (named : message.get "task_id" .null = .str t)
    (answered : (step config platform (reach config platform front) nack).1 =
      .answered (.negativeAcknowledged .deadLettered attempts text))
    (spared : ∀ first later last, back = first ++ later :: last → later.action = .replayAll →
      ¬RetriesInMemory (reach config platform (front ++ nack :: first)) t) :
    (∀ first one mid two last, back = first ++ one :: (mid ++ two :: last) →
      CreatesCopy platform (reach config platform (front ++ nack :: first)) one t ∨
        PurgesTask config platform (reach config platform (front ++ nack :: first)) one t →
      ¬CreatesCopy platform (reach config platform (front ++ nack :: (first ++ one :: mid))) two
        t) ∧
    ∀ first one last, back = first ++ one :: last → one.crashIn = none →
      CreatesCopy platform (reach config platform (front ++ nack :: first)) one t →
      ∃ row ∈ (reach config platform (front ++ nack :: (first ++ [one]))).disk.tasks,
        row.taskId = one.id ∧ row.status = .pending := by
  have settles : Settles t (nack, (step config platform (reach config platform front) nack).1) := by
    rw [answered]
    exact .deadLettered received named
  have drawsFresh := @FreshIds.drawsFresh config platform _ fresh
  -- the task is settled before each event of `back`
  have settled (first rest : List Event) (split : back = first ++ rest) :
      (reach config platform (front ++ nack :: first)).Settled config platform t
        (front ++ nack :: first) := by
    refine gone_after_settles persistent ?_ settles ?_
    · refine fresh.sublist (List.Sublist.map Event.id ?_)
      rw [split, ← List.cons_append, ← List.append_assoc]
      exact List.sublist_append_left _ _
    · intro early later last parts
      exact spared early later (last ++ rest) (by rw [split, parts]; simp)
  constructor
  · rintro first one mid two last rfl spent copies
    have forgets := @forgets_after_spent config platform t _ mid one persistent
      (settled first _ rfl) spent fun early next rest split => by
        rw [List.append_assoc, List.cons_append]
        have whole : first ++ one :: (mid ++ two :: last) =
            (first ++ early) ++ next :: (rest ++ two :: last) := by
          rw [← List.cons_append, split]
          simp
        exact ⟨drawsFresh _ next (rest ++ two :: last) (by rw [whole]; simp),
          spared _ next _ whole⟩
    rw [List.append_assoc, List.cons_append] at forgets
    rcases copies with ⟨replays, -⟩ | ⟨replays, retries⟩
    · have position := replays
      obtain ⟨broker, disk, -, -, position, -⟩ := position
      rw [position] at replays forgets
      exact forgets.not_replays replays
    · exact spared (first ++ one :: mid) two last (by simp) replays retries
  · rintro first one last rfl whole copies
    rcases copies with ⟨⟨broker, disk, message, row, position, received, command, found, rfl⟩, -⟩ |
      ⟨replays, retries⟩
    · have sound := settled first _ rfl
      rw [position] at sound
      obtain ⟨r, c, effect, same, -⟩ := step_effect config platform broker disk one
      rw [← List.cons_append, ← List.append_assoc, reach_concat, position, same]
      rw [received] at effect
      exact (effect.forgets_of_replay sound.1.disk (sound.1.opened persistent) command found
        (by simp [whole])).2 whole
    · exact absurd retries (spared first one last rfl replays)

/-- A task is produced, fails twice and is consumed once more. -/
def failingRun : List Event :=
  [.at 0 .start, .at 1 (.produce "q" "p"), .at 2 (.consume "q" "w"), .at 3 (.nack (idAt 1)),
    .at 4 (.consume "q" "w"), .at 5 (.nack (idAt 1)), .at 6 (.consume "q" "w")]

/-- Its third failure. -/
def lastNack : Event := .at 7 (.nack (idAt 1))

theorem lastNack_deadLettered :
    (step { persistent := true } .plain (reach { persistent := true } .plain failingRun)
      lastNack).1.isDeadLettered = true := by
  decide +kernel

theorem replay_copies :
    CreatesCopy .plain (reach { persistent := true } .plain (failingRun ++ [lastNack]))
      (.at 8 (.dlqReplay (idAt 1))) (idAt 1) := by
  obtain ⟨broker, disk, position, found⟩ := @System.of_passes
    (fun _ disk => (Platform.plain.namedRow disk (.str (idAt 1))).any (·.taskId = idAt 1))
    (reach { persistent := true } .plain (failingRun ++ [lastNack])) (by decide +kernel)
  obtain ⟨row, found, same⟩ := (Option.any_eq_true _ _).mp found
  exact .inl ⟨⟨broker, disk, _, row, position, rfl, rfl, found, of_decide_eq_true same⟩, nofun⟩

/-- **Replayed twice.**  The table's row is replayed, then the dashboard replays the task from
memory: the queue has the copy and the task itself, which has no row. -/
theorem replayAll_copies_again :
    (step { persistent := true } .plain (reach { persistent := true } .plain failingRun)
        lastNack).1.isDeadLettered = true ∧
      CreatesCopy .plain (reach { persistent := true } .plain (failingRun ++ [lastNack]))
        (.at 8 (.dlqReplay (idAt 1))) (idAt 1) ∧
      CreatesCopy .plain (reach { persistent := true } .plain
        (failingRun ++ [lastNack, .at 8 (.dlqReplay (idAt 1))])) (.at 9 .replayAll) (idAt 1) ∧
      ∃ broker disk, reach { persistent := true } .plain
          (failingRun ++ [lastNack, .at 8 (.dlqReplay (idAt 1)), .at 9 .replayAll]) =
            .running broker disk ∧
        (broker.queueManager.deque (Scalar.str "q").key).map Task.taskId = [idAt 8, idAt 1] ∧
        disk.tasks.find? (idAt 1) = none := by
  refine ⟨lastNack_deadLettered, replay_copies, .inr ⟨rfl, ?_⟩, ?_⟩
  · obtain ⟨broker, disk, position, found⟩ := @System.of_passes
      (fun broker _ => decide (idAt 1 ∈
        (broker.queueManager.deadLetterQueue.peek 1000).map Task.taskId))
      (reach { persistent := true } .plain
        (failingRun ++ [lastNack, .at 8 (.dlqReplay (idAt 1))])) (by decide +kernel)
    exact ⟨broker, disk, position, of_decide_eq_true found⟩
  · obtain ⟨broker, disk, position, both⟩ := @System.of_passes
      (fun broker disk => decide ((broker.queueManager.deque (Scalar.str "q").key).map
        Task.taskId = [idAt 8, idAt 1]) && (disk.tasks.find? (idAt 1)).isNone)
      (reach { persistent := true } .plain
        (failingRun ++ [lastNack, .at 8 (.dlqReplay (idAt 1)), .at 9 .replayAll]))
      (by decide +kernel)
    obtain ⟨queued, absent⟩ := Bool.and_eq_true_iff.mp both
    exact ⟨broker, disk, position, of_decide_eq_true queued, Option.isNone_iff_eq_none.mp absent⟩

/-- After a replay and a restart there is nothing left to replay. -/
theorem one_copy_per_deadLettering_restarted :
    CreatesCopy .plain (reach { persistent := true } .plain (failingRun ++ [lastNack]))
        (.at 8 (.dlqReplay (idAt 1))) (idAt 1) ∧
      (∃ row ∈ (reach { persistent := true } .plain
          (failingRun ++ lastNack :: [.at 8 (.dlqReplay (idAt 1))])).disk.tasks,
        row.taskId = idAt 8 ∧ row.status = .pending) ∧
      ¬CreatesCopy .plain (reach { persistent := true } .plain
          (failingRun ++ lastNack :: [.at 8 (.dlqReplay (idAt 1)), .at 9 .crash, .at 10 .start]))
        (.at 11 (.dlqReplay (idAt 1))) (idAt 1) := by
  obtain ⟨attempts, text, answered⟩ := Outcome.of_isDeadLettered lastNack_deadLettered
  have both := @one_copy_per_deadLettering { persistent := true } .plain (idAt 1) failingRun
    [.at 8 (.dlqReplay (idAt 1)), .at 9 .crash, .at 10 .start, .at 11 (.dlqReplay (idAt 1))]
    lastNack _ attempts text rfl (by decide +kernel) rfl rfl answered ?_
  · exact ⟨replay_copies, both.2 [] _ _ rfl rfl replay_copies,
      both.1 [] _ [_, _] _ [] rfl (.inl replay_copies)⟩
  · intro first later last split isReplayAll
    have others : ∀ event ∈ [Event.at 8 (.dlqReplay (idAt 1)), .at 9 .crash, .at 10 .start,
        .at 11 (.dlqReplay (idAt 1))], event.action ≠ .replayAll := by
      simp [Event.at, Action.dlqReplay, Action.send]
    exact absurd isReplayAll (others later (by rw [split]; simp))

end Copies

end DistroSync
