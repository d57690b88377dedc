import DistroSync.Scenario

/-!
# No accepted task is lost at a crash point

A task whose PRODUCE was answered is owed to its producer until it is acknowledged,
purged or wiped.  The development follows, at every crash point, where the database
keeps it: as a live row of `tasks`, or as a row of `dead_letter_queue`, under its own
id or under the id of a copy that a DLQ_REPLAY made.

There is one crash point where it is nowhere: DLQ_REPLAY deletes the dead letter row in
one commit and saves the copy in another, and a process that dies between the two
leaves neither.  `add_to_dlq`, which moves a row the other way, makes both changes in
one transaction.  Away from that point nothing is lost (`owed_present`).
-/

namespace DistroSync

open Keyed Py

/-- The database keeps the task: recovery brings it back, or DLQ_REPLAY can. -/
def Database.Keeps (db : Database) (id : String) : Prop :=
  (∃ row ∈ db.tasks, row.taskId = id ∧ row.live = true) ∨
    ∃ row ∈ db.deadLetterQueue, row.taskId = id

/-! ## Accepted tasks, their copies and their release -/

section Obligations

variable (config : Config) (platform : Platform)

/-- The event is a DLQ_REPLAY that finds the row of `id`. -/
def Replays (system : System) (event : Event) (id : String) : Prop :=
  ∃ broker disk message row, system = .running broker disk ∧ event.action = .command message ∧
    commandOf message = some .dlqReplay ∧
    platform.namedRow disk (message.get "task_id" .null) = some row ∧ row.taskId = id

/-- The process dies after a DLQ_REPLAY deleted the row of `id` and before it saved the
copy. -/
def CutsReplay (system : System) (event : Event) (id : String) : Prop :=
  Replays platform system event id ∧ event.crashIn = some 1

/-- The DLQ_REPLAY made a copy of `id`, under the id the event drew. -/
def Copies (system : System) (event : Event) (id : String) : Prop :=
  Replays platform system event id ∧ event.crashIn ≠ some 0 ∧ event.crashIn ≠ some 1

/-- After the run, `id` is the task `t` or a copy of it. -/
inductive CopyOf (t : String) : List Event → String → Prop where
  | itself (events : List Event) : CopyOf t events t
  | copied {events : List Event} {event : Event} {id : String} (before : CopyOf t events id)
      (copies : Copies platform (reach config platform events) event id) :
      CopyOf t (events ++ [event]) event.id
  | earlier {events : List Event} {event : Event} {id : String} (before : CopyOf t events id) :
      CopyOf t (events ++ [event]) id

/-- A store call of the event was made, or at least not prevented by a crash: the event
was answered `ok`, or it was cut short after its first store call. -/
def Effective (outcome : Outcome) (event : Event) (answer : Outcome → Prop) : Prop :=
  answer outcome ∨ outcome = .crashed ∧ event.crashIn ≠ some 0

/-- The event acknowledges `id`, purges it from the dead letter table, or wipes everything. -/
inductive Releases (system : System) (event : Event) (id : String) : Prop where
  | acknowledged {broker : Broker} {disk : Database} {message : Message} {task : Task}
      (running : system = .running broker disk) (received : event.action = .command message)
      (command : commandOf message = some .ack)
      (named : message.get "task_id" .null = .str id)
      (flying : broker.queueManager.inFlight.find? id = some task)
      (effective : Effective (step config platform system event).1 event fun outcome =>
        ∃ text, outcome = .answered (.acknowledged text))
  | purged {broker : Broker} {disk : Database} {message : Message} {row : DlqRow}
      {name : Option (Option String)}
      (running : system = .running broker disk) (received : event.action = .command message)
      (command : commandOf message = some .dlqPurge)
      (stored : row ∈ disk.deadLetterQueue) (isRow : row.taskId = id)
      (filter : platform.queueFilter (message.get "queue" .null) = .ok name)
      (covered : name = none ∨ name = some (some row.queueName))
      (effective : Effective (step config platform system event).1 event fun outcome =>
        ∃ count, outcome = .answered (.purged count))
  | wiped (action : event.action = .reset)
      (effective : Effective (step config platform system event).1 event fun outcome =>
        outcome = .completed)

/-- `t` was accepted in the run, and no later event released it or a copy of it. -/
inductive Owed (t : String) : List Event → Prop where
  | accepted {events : List Event} {event : Event}
      (answered : (step config platform (reach config platform events) event).1 =
        .answered (.produced t)) :
      Owed t (events ++ [event])
  | still {events : List Event} {event : Event} (before : Owed t events)
      (kept : ∀ id, CopyOf config platform t events id →
        ¬Releases config platform (reach config platform events) event id) :
      Owed t (events ++ [event])

end Obligations

/-! ## What one event does to a row -/

section Rows

variable {db : Database} {id : String}

theorem Database.Keeps.saveTask {row : TaskRow} (keeps : db.Keeps id) (live : row.live = true) :
    (db.saveTask row).Keeps id := by
  rcases keeps with ⟨old, stored, isId, isLive⟩ | dead
  · by_cases same : old.taskId = row.taskId
    · exact Or.inl ⟨row, Table.mem_upsert.mpr (Or.inl rfl), same.symm.trans isId, live⟩
    · exact Or.inl ⟨old, Table.mem_upsert.mpr (Or.inr ⟨stored, same⟩), isId, isLive⟩
  · exact Or.inr dead

theorem Database.keeps_saved {row : TaskRow} (isId : row.taskId = id) (live : row.live = true) :
    (db.saveTask row).Keeps id :=
  Or.inl ⟨row, Table.mem_upsert.mpr (Or.inl rfl), isId, live⟩

/-- Only a final status ends the debt. -/
theorem Database.Keeps.updateTaskStatus {taskId : String} {status : TaskStatus}
    {attempts : Option Nat} {worker : Option (Option String)} {now : Rat} (keeps : db.Keeps id)
    (harmless : status.live = true ∨ taskId ≠ id) :
    (db.updateTaskStatus taskId status attempts worker now).Keeps id := by
  rcases keeps with ⟨old, stored, isId, isLive⟩ | dead
  · by_cases same : old.taskId = taskId
    · have live : status.live = true := harmless.resolve_right (by simp [← same, isId])
      exact Or.inl ⟨_, Database.mem_updateTaskStatus.mpr (Or.inr ⟨old, stored, same, rfl⟩), isId,
        live⟩
    · exact Or.inl ⟨old, Database.mem_updateTaskStatus.mpr (Or.inl ⟨stored, same⟩), isId, isLive⟩
  · exact Or.inr dead

/-- A row that moves to the other table is still there. -/
theorem Database.Keeps.addToDlq {row : DlqRow} (keeps : db.Keeps id) :
    (db.addToDlq row).Keeps id := by
  by_cases same : row.taskId = id
  · exact Or.inr ⟨row, Table.mem_upsert.mpr (Or.inl rfl), same⟩
  · rcases keeps with ⟨old, stored, isId, isLive⟩ | ⟨old, stored, isId⟩
    · have other : old.taskId ≠ row.taskId := fun equal => same (equal.symm.trans isId)
      exact Or.inl ⟨old, Table.mem_erase.mpr ⟨stored, other⟩, isId, isLive⟩
    · have other : old.taskId ≠ row.taskId := fun equal => same (equal.symm.trans isId)
      exact Or.inr ⟨old, Table.mem_upsert.mpr (Or.inr ⟨stored, other⟩), isId⟩

theorem Database.Keeps.deleteDlq {taskId : String} (keeps : db.Keeps id) (other : taskId ≠ id) :
    (db.deleteDlq taskId).Keeps id := by
  rcases keeps with live | ⟨old, stored, isId⟩
  · exact Or.inl live
  · have apart : old.taskId ≠ taskId := fun equal => other (equal.symm.trans isId)
    exact Or.inr ⟨old, Table.mem_erase.mpr ⟨stored, apart⟩, isId⟩

theorem Database.Keeps.purgeDlq {name : Option (Option String)} (keeps : db.Keeps id)
    (spared : ∀ row ∈ db.deadLetterQueue, row.taskId = id →
      ¬(name = none ∨ name = some (some row.queueName))) :
    (db.purgeDlq name).Keeps id := by
  rcases keeps with live | ⟨row, stored, isId⟩
  · cases name <;> exact Or.inl live
  · cases name with
    | none => exact absurd (Or.inl rfl) (spared row stored isId)
    | some name =>
      refine Or.inr ⟨row, Table.mem_filter.mpr ⟨stored, ?_⟩, isId⟩
      have other : row.queueName ≠ name := fun same =>
        spared row stored isId (Or.inr (congrArg some same.symm))
      simpa using other

/-- What becomes of a task that the database keeps, when an action is performed. -/
inductive Fate (platform : Platform) (env : Env) (m : Machine) (action : Action)
    (r : Except Stop Outcome) (c : Core) (id : String) : Prop where
  | kept (keeps : c.disk.Keeps id)
  | acknowledged {message : Message} {task : Task} {text : String}
      (received : action = .command message) (command : commandOf message = some .ack)
      (named : message.get "task_id" .null = .str id)
      (flying : m.broker.queueManager.inFlight.find? id = some task)
      (alive : m.crashIn ≠ some 0) (ending : r = .ok (.answered (.acknowledged text)))
  | purged {message : Message} {row : DlqRow} {name : Option (Option String)} {count : Nat}
      (received : action = .command message) (command : commandOf message = some .dlqPurge)
      (stored : row ∈ m.disk.deadLetterQueue) (isRow : row.taskId = id)
      (filter : platform.queueFilter (message.get "queue" .null) = .ok name)
      (covered : name = none ∨ name = some (some row.queueName))
      (alive : m.crashIn ≠ some 0) (ending : r = .ok (.answered (.purged count)))
  | wiped (reset : action = .reset) (alive : m.crashIn ≠ some 0) (ending : r = .ok .completed)
  | cut {message : Message} {row : DlqRow} (received : action = .command message)
      (command : commandOf message = some .dlqReplay)
      (found : platform.namedRow m.disk (message.get "task_id" .null) = some row)
      (isRow : row.taskId = id) (spent : m.crashIn = some 1)
  | copied {message : Message} {row : DlqRow} (received : action = .command message)
      (command : commandOf message = some .dlqReplay)
      (found : platform.namedRow m.disk (message.get "task_id" .null) = some row)
      (isRow : row.taskId = id) (alive : m.crashIn ≠ some 0 ∧ m.crashIn ≠ some 1)
      (keeps : c.disk.Keeps env.uuid.text)

/-- Every commit but the second one of a DLQ_REPLAY keeps what is owed. -/
theorem Effect.fate {platform : Platform} {env : Env} {m : Machine} {action : Action}
    {r : Except Stop Outcome} {c : Core} {events : List Event}
    (sound : m.disk.Sound platform (drawn events)) (keeps : m.disk.Keeps id)
    (effect : Effect platform env m action r c) : Fate platform env m action r c id := by
  cases effect with
  | produce command admitted named hashed persisted =>
    rcases persisted.disk_cases with same | ⟨-, -, -, statements, binds, run⟩
    · exact .kept (same ▸ keeps)
    · obtain ⟨row, bound, rfl⟩ := Exec.of_map_eq_ok binds
      have live : row.live = true := by
        rw [TaskRow.live, (Platform.taskRow_ok bound).2.2.1]
        rfl
      exact .kept (run ▸ keeps.saveTask live)
  | consume command admitted hashed taken consumer persisted =>
    rcases persisted.disk_cases with same | ⟨-, -, -, statements, binds, run⟩
    · exact .kept (same ▸ keeps)
    · obtain ⟨text, -, rfl⟩ := Exec.of_map_eq_ok binds
      exact .kept (run ▸ keeps.updateTaskStatus (Or.inl rfl))
  | @ack message id' text task r c command admitted named found passes persisted =>
    rcases persisted.disk_cases with same | ⟨-, alive, ending, statements, binds, run⟩
    · exact .kept (same ▸ keeps)
    · cases binds
      by_cases same : id' = id
      · subst same
        exact .acknowledged rfl command named found alive ending
      · exact .kept (run ▸ keeps.updateTaskStatus (Or.inr same))
  | @nack message id' action task qm r c command admitted named nacked passes persisted =>
    rcases persisted.disk_cases with same | ⟨-, -, -, statements, binds, run⟩
    · exact .kept (same ▸ keeps)
    · cases action with
      | deadLettered =>
        obtain ⟨row, -, -, rfl⟩ := nackStatements_deadLettered binds
        exact .kept (run ▸ keeps.addToDlq)
      | requeued =>
        cases binds
        exact .kept (run ▸ keeps.updateTaskStatus (Or.inl rfl))
  | replayDropped command opened found fails =>
    obtain ⟨-, isText, payload, decodes⟩ := sound.namedRow found
    rcases fails with rigid | undecodable
    · rw [isText] at rigid
      cases rigid
    · rw [decodes] at undecodable
      cases undecodable
  | @replayCut message row payload r connection command opened found decodes unsaved =>
    obtain ⟨-, spent⟩ := sound.died_of_unsaved found decodes unsaved
    by_cases same : row.taskId = id
    · exact .cut rfl command found same spent
    · exact .kept (keeps.deleteDlq same)
  | @replay message row payload saved command opened found decodes binds alive =>
    have live : saved.live = true := by
      rw [TaskRow.live, (Platform.taskRow_ok binds).2.2.1]
      rfl
    by_cases same : row.taskId = id
    · exact .copied rfl command found same alive
        (Database.keeps_saved (Platform.taskRow_ok binds).1 live)
    · exact .kept ((keeps.deleteDlq same).saveTask live)
  | @purge message count r c command opened counted persisted =>
    rcases persisted.disk_cases with same | ⟨-, alive, ending, statements, binds, run⟩
    · exact .kept (same ▸ keeps)
    · obtain ⟨name, filter, rfl⟩ := Exec.of_map_eq_ok binds
      by_cases hit : ∃ row ∈ m.disk.deadLetterQueue, row.taskId = id ∧
          (name = none ∨ name = some (some row.queueName))
      · obtain ⟨row, stored, isRow, covered⟩ := hit
        exact .purged rfl command stored isRow filter covered alive ending
      · refine .kept (run ▸ keeps.purgeDlq fun row stored isRow covered => ?_)
        exact hit ⟨row, stored, isRow, covered⟩
  | reset persisted =>
    rcases persisted.disk_cases with same | ⟨-, alive, ending, statements, binds, run⟩
    · exact .kept (same ▸ keeps)
    · exact .wiped rfl alive ending
  | _ => exact .kept keeps

end Rows

/-! ## Whole runs -/

section Run

variable {config : Config} {platform : Platform}

/-- Recovery only marks rows as pending. -/
theorem Recovery.keeps {env : Env} {crashes : Prop} {rows : List TaskRow} {c c' : Core}
    {r : Except Stop Unit} {id : String}
    (recovery : Recovery platform env crashes rows c r c') (keeps : c.disk.Keeps id) :
    c'.disk.Keeps id := by
  obtain ⟨rest, reached, kept, same, -⟩ :=
    recovery.invariant (P := fun _ c => c.disk.Keeps id) keeps
      fun row rest payload c _ keeps => keeps.updateTaskStatus (Or.inl rfl)
  exact same ▸ kept

/-- The step condition: fresh ids, and no DLQ_REPLAY is cut between its two commits. -/
def UncutReplays (platform : Platform) (events : List Event) (system : System) (event : Event) :
    Prop :=
  DrawsFresh events system event ∧ ∀ id, ¬CutsReplay platform system event id

/-- What the database owes after a run. -/
def PaysUp (config : Config) (platform : Platform) (events : List Event) (disk : Database) :
    Prop :=
  ∀ t, Owed config platform t events →
    ∃ id, CopyOf config platform t events id ∧ disk.Keeps id

/-- What was kept before an event is kept after it, unless the event releases it. -/
theorem PaysUp.carry {events : List Event} {event : Event} {disk disk' : Database}
    (pays : PaysUp config platform events disk)
    (accepted : ∀ t, (step config platform (reach config platform events) event).1 =
      .answered (.produced t) → disk'.Keeps t)
    (kept : ∀ id, disk.Keeps id →
      ¬Releases config platform (reach config platform events) event id →
      disk'.Keeps id ∨
        Copies platform (reach config platform events) event id ∧ disk'.Keeps event.id) :
    PaysUp config platform (events ++ [event]) disk' := by
  intro t owed
  generalize whole : events ++ [event] = run at owed
  cases owed with
  | accepted answered =>
    obtain ⟨rfl, same⟩ := List.append_inj' whole rfl
    cases same
    exact ⟨t, .itself _, accepted t answered⟩
  | still before unreleased =>
    obtain ⟨rfl, same⟩ := List.append_inj' whole rfl
    cases same
    obtain ⟨id, copy, keeps⟩ := pays t before
    rcases kept id keeps (unreleased id copy) with stays | ⟨copies, moved⟩
    · exact ⟨id, .earlier copy, stays⟩
    · exact ⟨event.id, .copied copy copies, moved⟩

theorem paysUp_nil : PaysUp config platform [] {} := by
  intro t owed
  generalize none : ([] : List Event) = run at owed
  cases owed <;> simp at none

/-- **Every event pays what it owes, or keeps it.** -/
theorem paysUp_preserved (persistent : config.persistent = true) :
    Preserved config platform (UncutReplays platform)
      (fun events c => c.Sound config platform (drawn events) ∧
        PaysUp config platform events c.disk)
      (fun events disk => disk.Sound platform (drawn events) ∧
        PaysUp config platform events disk) where
  durable := by
    rintro events c ⟨sound, pays⟩
    exact ⟨sound.disk, pays⟩
  ran := by
    rintro events broker disk event r c outcome position ⟨sound, pays⟩ ⟨fresh, uncut⟩ effect ended
      shown
    refine ⟨drawn_concat events event ▸ sound.effect fresh effect, pays.carry ?_ ?_⟩
    -- a PRODUCE that was answered has saved its row
    · intro t answered
      rw [shown] at answered
      subst answered
      obtain ⟨-, rfl⟩ := ended.of_answered
      obtain ⟨message, received⟩ := effect.command_of_answered
      rw [received] at effect
      obtain ⟨isId, queue, -, -, saved⟩ := effect.of_produced
      obtain ⟨row, bound, disk⟩ := saved (sound.opened persistent)
      obtain ⟨rowId, -, status, -⟩ := Platform.taskRow_ok bound
      rw [disk, isId]
      exact Database.keeps_saved rowId (by rw [TaskRow.live, status]; rfl)
    -- what takes the row away is a release
    · intro id keeps unreleased
      have effective {answer : Outcome → Prop} {success : Outcome} (alive : event.crashIn ≠ some 0)
          (ending : r = .ok success) (isAnswer : answer success) :
          Effective (step config platform (reach config platform events) event).1 event answer := by
        rw [shown]
        subst ending
        cases ended with
        | ran whole survived => exact Or.inl isAnswer
        | died cut => exact Or.inr ⟨rfl, alive⟩
      cases effect.fate sound.disk keeps with
      | kept stays => exact Or.inl stays
      | acknowledged received command named flying alive ending =>
        exact absurd (.acknowledged position received command named flying
          (effective alive ending ⟨_, rfl⟩)) unreleased
      | purged received command stored isRow filter covered alive ending =>
        exact absurd (.purged position received command stored isRow filter covered
          (effective alive ending ⟨_, rfl⟩)) unreleased
      | wiped reset alive ending =>
        exact absurd (.wiped reset (effective alive ending rfl)) unreleased
      | cut received command found isRow spent =>
        exact absurd ⟨⟨broker, disk, _, _, rfl, received, command, found, isRow⟩, spent⟩
          (uncut id)
      | copied received command found isRow alive moved =>
        exact Or.inr ⟨⟨⟨broker, disk, _, _, position, received, command, found, isRow⟩, alive⟩,
          moved⟩
  ignored := by
    rintro events disk event ⟨sound, pays⟩ - shown
    refine ⟨drawn_concat events event ▸ sound.mono, pays.carry ?_ ?_⟩
    · intro t answered
      rw [shown] at answered
      cases answered
    · exact fun id keeps _ => Or.inl keeps
  recovered := by
    rintro events disk event r c outcome ⟨sound, pays⟩ ⟨fresh, -⟩ persistent recovery mute shown
    obtain ⟨⟨onDisk, -⟩, complete⟩ := (sound_preserved config platform).recovered
      ⟨sound, fun volatile => by rw [persistent] at volatile; cases volatile⟩ fresh persistent
      recovery mute shown
    have paysAfter : PaysUp config platform (events ++ [event]) c.disk := by
      refine pays.carry ?_ fun id keeps _ => Or.inl (recovery.keeps keeps)
      intro t answered
      rw [shown] at answered
      subst answered
      exact mute.elim
    exact ⟨⟨onDisk, paysAfter⟩, fun done => ⟨complete done, paysAfter⟩⟩
  fresh := by
    intro events disk event outcome _ _ volatile
    rw [persistent] at volatile
    cases volatile

/-- **Nothing that was accepted is lost**, at any crash point of any run in which no
DLQ_REPLAY is cut between its two commits: until it is acknowledged, purged or wiped, the
task or a copy of it has a live row or a dead letter row. -/
theorem owed_present {events : List Event} {t : String} (persistent : config.persistent = true)
    (fresh : FreshIds events)
    (uncut : Trace.EachStep (step config platform) System.initial
      (fun _ system event => ∀ id, ¬CutsReplay platform system event id) events)
    (owed : Owed config platform t events) :
    ∃ id, CopyOf config platform t events id ∧ (reach config platform events).disk.Keeps id := by
  have each : Trace.EachStep (step config platform) System.initial (UncutReplays platform)
      events := fresh.drawsFresh.and uncut
  have holds := (paysUp_preserved persistent).holds ⟨Database.sound_empty, paysUp_nil⟩ each
  generalize reach config platform events = system at holds ⊢
  cases system with
  | running broker disk => exact holds.2 t owed
  | stopped disk => exact holds.2 t owed

/-- The event can release a task: it is an ACK, a DLQ_PURGE or a reset. -/
def Event.mayRelease (event : Event) : Bool :=
  match event.action with
  | .command message => commandOf message = some .ack ∨ commandOf message = some .dlqPurge
  | .reset => true
  | _ => false

theorem Releases.mayRelease {system : System} {event : Event} {id : String}
    (releases : Releases config platform system event id) : event.mayRelease = true := by
  cases releases with
  | acknowledged running received command => simp [Event.mayRelease, received, command]
  | purged running received command => simp [Event.mayRelease, received, command]
  | wiped action => simp [Event.mayRelease, action]

/-- Events that cannot release a task leave it owed. -/
theorem Owed.append {t : String} {front back : List Event}
    (owed : Owed config platform t front) (harmless : ∀ event ∈ back, event.mayRelease = false) :
    Owed config platform t (front ++ back) := by
  induction back generalizing front with
  | nil => simpa using owed
  | cons event rest ih =>
    rw [List.append_cons]
    refine ih (.still owed fun id _ releases => ?_) fun other later =>
      harmless other (List.mem_cons_of_mem _ later)
    have absurd := harmless event (by simp)
    rw [releases.mayRelease] at absurd
    cases absurd

end Run

/-- A task is produced and fails three times. -/
def buriedRun : List Event :=
  [.at 2 (.consume "q" "w"), .at 3 (.nack (idAt 1)), .at 4 (.consume "q" "w"),
    .at 5 (.nack (idAt 1)), .at 6 (.consume "q" "w"), .at 7 (.nack (idAt 1))]

theorem produced_owed :
    Owed { persistent := true } .plain (idAt 1) [.at 0 .start, .at 1 (.produce "q" "p")] := by
  refine @Owed.accepted _ _ _ [.at 0 .start] (.at 1 (.produce "q" "p")) ?_
  exact Outcome.of_isProduced (by decide +kernel)

/-- A dead-lettered task is replayed, and the process dies between the two commits. -/
def lossRun : List Event :=
  [.at 0 .start, .at 1 (.produce "q" "p")] ++ (buriedRun ++ [.cutAt 8 1 (.dlqReplay (idAt 1))])

/-- **The lost task.**  It is owed, and neither table has a row left. -/
theorem replay_cut_loses_task :
    Owed { persistent := true } .plain (idAt 1) lossRun ∧
      ¬∃ id, CopyOf { persistent := true } .plain (idAt 1) lossRun id ∧
        (reach { persistent := true } .plain lossRun).disk.Keeps id := by
  refine ⟨produced_owed.append (by decide +kernel), ?_⟩
  have noTasks : (reach { persistent := true } .plain lossRun).disk.tasks.rows = [] :=
    List.length_eq_zero_iff.mp (by decide +kernel)
  have noDead : (reach { persistent := true } .plain lossRun).disk.deadLetterQueue.rows = [] :=
    List.length_eq_zero_iff.mp (by decide +kernel)
  rintro ⟨id, -, ⟨row, stored, -⟩ | ⟨row, stored, -⟩⟩
  · rw [← Table.mem_rows, noTasks] at stored
    cases stored
  · rw [← Table.mem_rows, noDead] at stored
    cases stored

/-- The same run with a replay that is not cut, and a crash right after it. -/
def savedRun : List Event :=
  [.at 0 .start, .at 1 (.produce "q" "p")] ++
    (buriedRun ++ [.at 8 (.dlqReplay (idAt 1)), .at 9 .crash])

theorem owed_present_after_replay :
    Owed { persistent := true } .plain (idAt 1) savedRun ∧
      ∃ id, CopyOf { persistent := true } .plain (idAt 1) savedRun id ∧
        (reach { persistent := true } .plain savedRun).disk.Keeps id := by
  have owed : Owed { persistent := true } .plain (idAt 1) savedRun :=
    produced_owed.append (by decide +kernel)
  refine ⟨owed, owed_present rfl (by decide +kernel) ?_ owed⟩
  rintro front event back split id ⟨-, cut⟩
  have survives : ∀ event ∈ savedRun, event.crashIn = none := by decide +kernel
  rw [survives event (by rw [split]; simp)] at cut
  cases cut

end DistroSync
