import DistroSync.Scenario

/-!
# Terminal outcomes are final

Once an ACK of a task is answered `ok`, or a NACK of it is answered `dead_lettered`,
no consumer gets the task again, across any number of crashes and recoveries.

The task is then *settled*: it is neither pending nor in flight, and its row, if there
is one, is not live.  Both halves are needed to keep either of them: the memory decides
which rows an action can mark as live, and the live rows decide what a recovery puts
into memory.  The one action that can bring a settled task back is the dashboard's
replay-all, when it finds it in the dead letter queue in memory (`RetriesInMemory`).
-/

namespace DistroSync

open Keyed Py

/-- The task is neither pending nor in flight. -/
def Ledger.Lacks (l : Ledger) (t : String) : Prop :=
  ∀ task, task ∈ l.pending ∨ task ∈ l.inFlight → task.taskId ≠ t

/-- No live row has the id. -/
def Database.Lacks (db : Database) (t : String) : Prop :=
  ∀ row ∈ db.tasks, row.taskId = t → row.live = false

/-- The event is an ACK of `t` that was answered `ok`, or a NACK of `t` that was answered
with the action `dead_lettered`. -/
inductive Settles (t : String) : Event × Outcome → Prop where
  | acknowledged {event : Event} {message : Message} {text : String}
      (received : event.action = .command message)
      (named : message.get "task_id" .null = .str t) :
      Settles t (event, .answered (.acknowledged text))
  | deadLettered {event : Event} {message : Message} {attempts : Nat} {text : String}
      (received : event.action = .command message)
      (named : message.get "task_id" .null = .str t) :
      Settles t (event, .answered (.negativeAcknowledged .deadLettered attempts text))

/-! ## One step -/

section Step

variable {t id : String} {l l' : Ledger}

theorem Moved.lacks {maxRetries : Nat} {retries : Prop}
    (moved : Moved id maxRetries retries l l') (never : ¬retries) (other : id ≠ t)
    (lacks : l.Lacks t) : l'.Lacks t := by
  cases moved with
  | still => exact lacks
  | created fresh unused =>
    rintro task (pending | flying)
    · rcases Multiset.mem_cons.mp pending with rfl | old
      · exact fresh ▸ other
      · exact lacks task (Or.inl old)
    · exact lacks task (Or.inr flying)
  | @delivered head rest workerId split =>
    rintro task (pending | flying)
    · exact lacks task (Or.inl (by rw [split]; exact Multiset.mem_cons_of_mem pending))
    · rcases Multiset.mem_cons.mp flying with rfl | old
      · exact lacks head (Or.inl (by rw [split]; exact Multiset.mem_cons_self _ _))
      · exact lacks task (Or.inr old)
  | acknowledged split =>
    rintro task (pending | flying)
    · exact lacks task (Or.inl pending)
    · exact lacks task (Or.inr (by rw [split]; exact Multiset.mem_cons_of_mem flying))
  | buried split =>
    rintro task (pending | flying)
    · exact lacks task (Or.inl pending)
    · exact lacks task (Or.inr (by rw [split]; exact Multiset.mem_cons_of_mem flying))
  | @requeued origin rest split left =>
    rintro task (pending | flying)
    · rcases Multiset.mem_cons.mp pending with rfl | old
      · exact lacks origin (Or.inr (by rw [split]; exact Multiset.mem_cons_self _ _))
      · exact lacks task (Or.inl old)
    · exact lacks task (Or.inr (by rw [split]; exact Multiset.mem_cons_of_mem flying))
  | evicted returns completed dead =>
    rintro task (pending | flying)
    · rcases (returns.mem_pending task).mp pending with old | ⟨origin, flying, -, rfl⟩
      · exact lacks task (Or.inl old)
      · exact lacks origin (Or.inr flying)
    · exact lacks task (Or.inr ((returns.mem_source task).mp flying).1)
  | retried may returns inFlight completed => exact absurd may never
  | purged fewer => exact lacks
  | cleared => simp [Ledger.Lacks]

theorem Database.Lacks.saveTask {db : Database} {row : TaskRow} (lacks : db.Lacks t)
    (other : row.taskId ≠ t) : (db.saveTask row).Lacks t := by
  intro row' stored isT
  rcases Table.mem_upsert.mp stored with rfl | ⟨old, -⟩
  · exact absurd isT other
  · exact lacks row' old isT

theorem Database.Lacks.updateTaskStatus {db : Database} {taskId : String} {status : TaskStatus}
    {attempts : Option Nat} {worker : Option (Option String)} {now : Rat} (lacks : db.Lacks t)
    (harmless : taskId ≠ t ∨ status.live = false) :
    (db.updateTaskStatus taskId status attempts worker now).Lacks t := by
  intro row stored isT
  rcases Database.mem_updateTaskStatus.mp stored with ⟨old, -⟩ | ⟨old, member, isId, rfl⟩
  · exact lacks row old isT
  · rcases harmless with other | settled
    · exact absurd (isId.symm.trans isT) other
    · exact settled

theorem DiskMoved.lacks {platform : Platform} {db db' : Database}
    (moved : DiskMoved platform id l db db') (other : id ≠ t) (memory : l.Lacks t)
    (lacks : db.Lacks t) : db'.Lacks t := by
  cases moved with
  | still => exact lacks
  | saved fresh stored unused => exact lacks.saveTask (fresh ▸ other)
  | marked known =>
    obtain ⟨task, here, rfl⟩ := known
    exact lacks.updateTaskStatus (Or.inl (memory task here))
  | buried known stores =>
    intro row stored isT
    exact lacks row (Table.mem_erase.mp stored).1 isT
  | deleted => exact lacks
  | @replayed taskId row fresh stored unused =>
    have deleted : (db.deleteDlq taskId).Lacks t := lacks
    exact deleted.saveTask (fresh ▸ other)
  | @purged name => cases name <;> exact lacks
  | cleared => simp [Database.Lacks]

end Step

/-! ## Whole runs -/

section Run

variable {config : Config} {platform : Platform} {t : String}

/-- The task is gone for good: it is not live in memory or in the database, and its id is
not drawn again. -/
structure Gone (used : List String) (t : String) (c : Core) : Prop where
  memory : c.queueManager.ledger.Lacks t
  disk : c.disk.Lacks t
  known : t ∈ used

/-- The task is among the first thousand dead letters in memory, which are the ones that the
dashboard's replay-all retries. -/
def RetriesInMemory (system : System) (t : String) : Prop :=
  ∃ broker disk, system = .running broker disk ∧
    t ∈ (broker.queueManager.deadLetterQueue.peek 1000).map Task.taskId

/-- Replay-all brings back what it lists, and nothing else. -/
theorem Ledger.Lacks.replayAll {qm qm' : QueueManager} {taken : List String}
    (lacks : qm.ledger.Lacks t)
    (ran : retryEach ((qm.deadLetterQueue.peek 1000).map Task.taskId) qm = (taken, qm'))
    (spared : t ∉ (qm.deadLetterQueue.peek 1000).map Task.taskId) :
    qm'.ledger.Lacks t := by
  have spec := (QueueManager.retryEach_retries
    ((qm.deadLetterQueue.peek 1000).map Task.taskId) qm).1
  rw [QueueManager.retryEach_peek, ran] at spec
  rintro task (pending | flying)
  · rcases (spec.returns.mem_pending task).mp pending with old | ⟨origin, -, isTaken, rfl⟩
    · exact lacks task (Or.inl old)
    · rintro rfl
      exact spared isTaken
  · rw [spec.inFlight] at flying
    exact lacks task (Or.inr flying)

/-- No other effect brings a settled task back. -/
theorem Gone.effect {env : Env} {broker : Broker} {disk : Database} {crashIn : Option Nat}
    {action : Action} {r : Except Stop Outcome} {c : Core} {used : List String}
    (gone : Gone used t (broker.core disk)) (sound : (broker.core disk).Sound config platform used)
    (persistent : config.persistent = true) (fresh : env.uuid.text ∉ used)
    (spared : action = .replayAll → ¬RetriesInMemory (.running broker disk) t)
    (effect : Effect platform env { broker, disk, crashIn } action r c) :
    Gone (used ++ [env.uuid.text]) t c := by
  have other : env.uuid.text ≠ t := fun same => fresh (same ▸ gone.known)
  have opened : broker.walStore ≠ none := by
    intro closed
    have store : broker.walStore.isSome = config.persistent := sound.store
    rw [closed, persistent] at store
    cases store
  refine ⟨?_, (effect.diskMoved sound.distinct).lacks other gone.memory gone.disk,
    List.mem_append_left _ gone.known⟩
  by_cases replays : action = .replayAll
  · subst replays
    cases effect with
    | replayAll ran =>
      exact gone.memory.replayAll ran fun listed => spared rfl ⟨broker, disk, rfl, listed⟩
  · refine (effect.moved sound.distinct).lacks ?_ other gone.memory
    rintro (closed | isReplayAll)
    · exact opened closed
    · exact replays isReplayAll

theorem Database.lacks_done (db : Database) (attempts : Option Nat)
    (worker : Option (Option String)) (now : Rat) :
    (db.updateTaskStatus t .done attempts worker now).Lacks t := by
  intro row stored isT
  rcases Database.mem_updateTaskStatus.mp stored with ⟨-, other⟩ | ⟨old, -, -, rfl⟩
  · exact absurd isT other
  · rfl

/-- An acknowledged task is gone. -/
theorem gone_of_acknowledged {env : Env} {m : Machine} {message : Message} {c : Core}
    {used : List String} {text : String} (sound : m.core.Sound config platform used)
    (after : c.Sound config platform (used ++ [env.uuid.text]))
    (persistent : config.persistent = true) (named : message.get "task_id" .null = .str t)
    (effect : Effect platform env m (.command message) (.ok (.answered (.acknowledged text))) c) :
    Gone (used ++ [env.uuid.text]) t c := by
  obtain ⟨id, task, isId, found, memory, disk⟩ := effect.of_acknowledged
  have isT : id = t := by
    rw [named] at isId
    cases isId
    rfl
  subst isT
  have distinct : m.broker.queueManager.Distinct := sound.distinct
  have completed : task.finish ∈ c.queueManager.ledger.completed := by
    rw [memory, QueueManager.ledger_acknowledge distinct found]
    simp
  have isTask : task.finish.taskId = id := by
    rw [Task.finish_taskId]
    exact Table.key_of_find? found
  constructor
  · rintro other (pending | flying)
    · exact isTask ▸ after.distinct.apart.pending_completed other pending _ completed
    · exact isTask ▸ after.distinct.apart.inFlight_completed other flying _ completed
  · rw [disk (sound.opened persistent)]
    exact Database.lacks_done m.disk none none env.time
  · exact isTask ▸ after.mem_used (Or.inr (Or.inr (Or.inl completed)))

/-- A dead-lettered task is gone. -/
theorem gone_of_deadLettered {env : Env} {m : Machine} {message : Message} {c : Core}
    {used : List String} {attempts : Nat} {text : String}
    (sound : m.core.Sound config platform used)
    (after : c.Sound config platform (used ++ [env.uuid.text]))
    (persistent : config.persistent = true) (named : message.get "task_id" .null = .str t)
    (effect : Effect platform env m (.command message)
      (.ok (.answered (.negativeAcknowledged .deadLettered attempts text))) c) :
    Gone (used ++ [env.uuid.text]) t c := by
  obtain ⟨id, task', isId, nacked, -, disk⟩ := effect.of_negativeAcknowledged
  have isT : id = t := by
    rw [named] at isId
    cases isId
    rfl
  subst isT
  obtain ⟨task, found, spec⟩ := QueueManager.negativeAcknowledge_some nacked
  have distinct : m.broker.queueManager.Distinct := sound.distinct
  have dead : task.bury env.time ∈ c.queueManager.ledger.dead := by
    rw [QueueManager.ledger_buried distinct found spec]
    simp
  have isTask : (task.bury env.time).taskId = id := by
    rw [Task.bury_taskId]
    exact Table.key_of_find? found
  constructor
  · rintro other (pending | flying)
    · exact isTask ▸ after.distinct.apart.pending_dead other pending _ dead
    · exact isTask ▸ after.distinct.apart.inFlight_dead other flying _ dead
  · obtain ⟨statements, binds, run⟩ := disk (sound.opened persistent)
    obtain ⟨row, rowId, -, rfl⟩ := nackStatements_deadLettered binds
    rw [run]
    intro row' stored isT
    have other : row'.taskId ≠ row.taskId := (Table.mem_erase.mp stored).2
    exact absurd (isT.trans (isTask.symm.trans (spec.taskId_eq.symm.trans rowId.symm))) other
  · exact isTask ▸ after.mem_used (Or.inr (Or.inr (Or.inr dead)))

/-- During the recovery phase: neither the rows to come nor what was brought back so far have
the id. -/
def Clear (t : String) (rows : List TaskRow) (c : Core) : Prop :=
  (∀ row ∈ rows, row.taskId ≠ t) ∧ c.queueManager.ledger.Lacks t ∧ c.disk.Lacks t

theorem Clear.recoverRow {env : Env} {row : TaskRow} {rest : List TaskRow} {payload : Json}
    {c : Core} (clear : Clear t (row :: rest) c) : Clear t rest (c.recoverRow env row payload) := by
  obtain ⟨others, memory, onDisk⟩ := clear
  have other : row.taskId ≠ t := others row (by simp)
  refine ⟨fun row' later => others row' (List.mem_cons_of_mem _ later), ?_,
    onDisk.updateTaskStatus (Or.inl other)⟩
  simp only [Core.recoverRow, QueueManager.ledger_enqueueRecovered]
  rintro task (pending | flying)
  · simp only [Multiset.mem_cons] at pending
    rcases pending with rfl | old
    · exact other
    · exact memory task (Or.inl old)
  · exact memory task (Or.inr flying)

/-- The recovery phase does not bring a settled task back. -/
theorem Gone.recovery {env : Env} {crashes : Prop} {disk : Database} {r : Except Stop Unit}
    {c : Core} (lacks : disk.Lacks t)
    (recovery : Recovery platform env crashes disk.loadPendingTasks (startCore config env disk)
      r c) :
    c.disk.Lacks t ∧ (r = .ok () → c.queueManager.ledger.Lacks t) := by
  have start : Clear t disk.loadPendingTasks (startCore config env disk) := by
    refine ⟨fun row pending isT => ?_, ?_, lacks⟩
    · obtain ⟨stored, live⟩ := Database.mem_loadPendingTasks.mp pending
      rw [lacks row stored isT] at live
      cases live
    · rintro task (pending | flying)
      · exact absurd pending (Multiset.notMem_zero task)
      · exact absurd flying (Multiset.notMem_zero task)
  obtain ⟨rest, reached, ⟨-, memory, onDisk⟩, same, complete⟩ := recovery.invariant start
    fun _ _ _ _ _ clear => clear.recoverRow
  refine ⟨same ▸ onDisk, fun done => ?_⟩
  rw [(complete done).2]
  exact memory

/-- The step condition: fresh ids, and no replay-all that takes the task. -/
def Spares (t : String) (events : List Event) (system : System) (event : Event) : Prop :=
  DrawsFresh events system event ∧ (event.action = .replayAll → ¬RetriesInMemory system t)

theorem gone_preserved (persistent : config.persistent = true) (t : String) :
    Preserved config platform (Spares t)
      (fun events c => c.Sound config platform (drawn events) ∧ Gone (drawn events) t c)
      (fun events disk => disk.Sound platform (drawn events) ∧ disk.Lacks t ∧
        t ∈ drawn events) where
  durable := by
    rintro events c ⟨sound, gone⟩
    exact ⟨sound.disk, gone.disk, gone.known⟩
  ran := by
    rintro events broker disk event r c outcome - ⟨sound, gone⟩ ⟨fresh, spared⟩ effect - -
    rw [drawn_concat]
    exact ⟨sound.effect fresh effect, gone.effect sound persistent fresh spared effect⟩
  ignored := by
    rintro events disk event ⟨sound, lacks, known⟩ - -
    rw [drawn_concat]
    exact ⟨sound.mono, lacks, List.mem_append_left _ known⟩
  recovered := by
    rintro events disk event r c outcome ⟨sound, lacks, known⟩ ⟨fresh, -⟩ persistent recovery mute
      shown
    obtain ⟨⟨onDisk, -⟩, complete⟩ := (sound_preserved config platform).recovered
      ⟨sound, fun volatile => by rw [persistent] at volatile; cases volatile⟩ fresh persistent
      recovery mute shown
    obtain ⟨stillLacks, memory⟩ := Gone.recovery lacks recovery
    have stillKnown : t ∈ drawn (events ++ [event]) := by
      rw [drawn_concat]
      exact List.mem_append_left _ known
    exact ⟨⟨onDisk, stillLacks, stillKnown⟩, fun done => ⟨complete done, memory done, stillLacks,
      stillKnown⟩⟩
  fresh := by
    intro events disk event outcome _ _ volatile
    rw [persistent] at volatile
    cases volatile

/-- The answer that settles a task leaves it gone. -/
theorem gone_of_settles {events : List Event} {event : Event}
    (persistent : config.persistent = true) (fresh : FreshIds (events ++ [event]))
    (settles : Settles t (event, (step config platform (reach config platform events) event).1)) :
    (reach config platform (events ++ [event])).Holds
      (fun c => c.Sound config platform (drawn (events ++ [event])) ∧
        Gone (drawn (events ++ [event])) t c)
      (fun disk => disk.Sound platform (drawn (events ++ [event])) ∧ disk.Lacks t ∧
        t ∈ drawn (events ++ [event])) := by
  have each := @FreshIds.drawsFresh config platform _ fresh
  have before := (sound_preserved config platform).holds
    ⟨Database.sound_empty, fun _ => rfl⟩ each.front
  rw [reach, Trace.after_concat]
  generalize shown : (step config platform (reach config platform events) event).1 = outcome
    at settles
  generalize pair : (event, outcome) = entry at settles
  cases settles with
  | acknowledged received named =>
    cases pair
    obtain ⟨broker, disk, broker', disk', position, next, -, effect⟩ := step_answered shown
    rw [position] at before
    rw [next, drawn_concat]
    have sound : (broker.core disk).Sound config platform (drawn events) := before
    have after := Core.Sound.effect (m := { broker, disk, crashIn := event.crashIn }) sound
      each.last effect
    rw [received] at effect
    exact ⟨after, gone_of_acknowledged sound after persistent named effect⟩
  | deadLettered received named =>
    cases pair
    obtain ⟨broker, disk, broker', disk', position, next, -, effect⟩ := step_answered shown
    rw [position] at before
    rw [next, drawn_concat]
    have sound : (broker.core disk).Sound config platform (drawn events) := before
    have after := Core.Sound.effect (m := { broker, disk, crashIn := event.crashIn }) sound
      each.last effect
    rw [received] at effect
    exact ⟨after, gone_of_deadLettered sound after persistent named effect⟩

/-- A settled task is gone for as long as no replay-all takes it out of the dead letter queue
in memory. -/
theorem gone_after_settles {front back : List Event} {event : Event}
    (persistent : config.persistent = true) (fresh : FreshIds (front ++ event :: back))
    (settles : Settles t (event, (step config platform (reach config platform front) event).1))
    (spared : ∀ first later last, back = first ++ later :: last → later.action = .replayAll →
      ¬RetriesInMemory (reach config platform (front ++ event :: first)) t) :
    (reach config platform (front ++ event :: back)).Holds
      (fun c => c.Sound config platform (drawn (front ++ event :: back)) ∧
        Gone (drawn (front ++ event :: back)) t c)
      (fun disk => disk.Sound platform (drawn (front ++ event :: back)) ∧ disk.Lacks t ∧
        t ∈ drawn (front ++ event :: back)) := by
  have drawsFresh := @FreshIds.drawsFresh config platform _ fresh
  rw [List.append_cons] at fresh ⊢
  have start := gone_of_settles persistent
    (fresh.sublist (List.sublist_append_left _ _ |>.map Event.id)) settles
  refine (gone_preserved persistent t).holds_from start fun first later last split => ?_
  refine ⟨drawsFresh _ later last (by rw [split]; simp), fun replays => ?_⟩
  rw [← List.append_cons]
  exact spared first later last split replays

/-- **Terminal outcomes are final.**  In a run of a persistent broker without replay-all,
with crashes anywhere, no CONSUME that comes after an ACK of `t` answered `ok`, or after a
NACK of `t` answered `dead_lettered`, returns `t`. -/
theorem settled_never_consumed {events : List Event} (persistent : config.persistent = true)
    (fresh : FreshIds events) (noReplayAll : ∀ event ∈ events, event.action ≠ .replayAll)
    {before later : List (Event × Outcome)} {entry : Event × Outcome}
    (split : history config platform events = before ++ entry :: later)
    (settles : Settles t entry) (event : Event) (delivery : Delivery)
    (consumed : (event, .answered (.consumed delivery)) ∈ later) : delivery.taskId ≠ t := by
  obtain ⟨settling, outcome⟩ := entry
  obtain ⟨between, rest, rfl⟩ := List.append_of_mem consumed
  have reordered : history config platform events =
      (before ++ (settling, outcome) :: between) ++
        (event, .answered (.consumed delivery)) :: rest := by
    rw [split]
    simp
  obtain ⟨whole, back, rfl, logged, answered⟩ := history_split reordered
  obtain ⟨front, mid, rfl, -, rfl⟩ := history_split logged
  have gone := gone_after_settles persistent
    (fresh.sublist (List.sublist_append_left _ _ |>.map Event.id)) settles
    fun first later last split replays => absurd replays (noReplayAll later (by simp [split]))
  obtain ⟨broker, disk, broker', disk', position, -, -, effect⟩ := step_answered answered
  rw [position] at gone
  obtain ⟨sound, gone⟩ := gone
  obtain ⟨message, received⟩ := effect.command_of_answered
  rw [received] at effect
  obtain ⟨queue, worker, task, -, taken, -, -, isTask, -⟩ := effect.of_consumed
  have distinct : broker.queueManager.Distinct := sound.distinct
  obtain ⟨head, tail, rfl, pending, -⟩ := QueueManager.ledger_dequeue_some distinct taken
  rw [isTask]
  refine gone.memory head (Or.inl ?_)
  rw [Broker.core_queueManager, pending]
  exact Multiset.mem_cons_self _ _

end Run

/-- Two tasks are produced, and the first one is consumed. -/
def beforeAck : List Event :=
  [.at 0 .start, .at 1 (.produce "q" "a"), .at 2 (.produce "q" "b"), .at 3 (.consume "q" "w")]

/-- The broker crashes and is started again, and another task is consumed. -/
def afterAck : List Event := [.at 5 .crash, .at 6 .start, .at 7 (.consume "*" "w")]

theorem settled_never_consumed_after_restart :
    (step { persistent := true } .plain (reach { persistent := true } .plain beforeAck)
        (.at 4 (.ack (idAt 1)))).1.isAcknowledged = true ∧
      ∀ event delivery, (event, .answered (.consumed delivery)) ∈
          Trace.trace (step { persistent := true } .plain)
            (step { persistent := true } .plain (reach { persistent := true } .plain beforeAck)
              (.at 4 (.ack (idAt 1)))).2 afterAck →
        delivery.taskId ≠ idAt 1 := by
  have acknowledged : (step { persistent := true } .plain
      (reach { persistent := true } .plain beforeAck)
      (.at 4 (.ack (idAt 1)))).1.isAcknowledged = true := by
    decide +kernel
  obtain ⟨text, answered⟩ := Outcome.of_isAcknowledged acknowledged
  have split := history_append_cons { persistent := true } .plain beforeAck
    (.at 4 (.ack (idAt 1))) afterAck
  refine ⟨acknowledged, settled_never_consumed rfl (by decide +kernel) ?_ split ?_⟩
  · simp [beforeAck, afterAck, Event.at, Action.produce, Action.consume, Action.ack, Action.send]
  · rw [answered]
    exact .acknowledged rfl rfl

end DistroSync
