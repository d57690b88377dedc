import DistroSync.Assignments
import DistroSync.FirstDelivery

/-!
# Wildcard consumers drain the broker

A CONSUME of `*` goes through the queues in the order of their creation and takes the head of
the first one that holds a task.  But it gives up if the name of that queue is falsy, and then
every later queue would be out of its reach.

No queue with a task ever has such a name: PRODUCE refuses it, the table stores no other, and
DLQ_REPLAY and the recovery phase take theirs from the table (`reach_addressed`).  So while
tasks are only taken and completed, the wildcard CONSUMEs are answered with the pending tasks
in their order, one by one and each once, and then with `empty` (`drained`).

Two things can get in between a task and its consumer.  A worker whose name is no text, or one
that SQLite cannot bind, makes the handler raise after the task has left its queue; and a task
that is nested too deeply for the response cannot be sent.  Either way the task is gone and
nobody is told, so the theorem asks for neither.
-/

namespace DistroSync

open Keyed Py

/-! ## Names that the wildcard does not skip -/

/-- The name of the task's queue is truthy. -/
def Task.Addressed (task : Task) : Prop := task.queueName.key.truthy = true

/-- No row has an empty name. -/
structure Database.Addressed (db : Database) : Prop where
  tasks : ∀ row ∈ db.tasks, row.queueName ≠ ""
  dead : ∀ row ∈ db.deadLetterQueue, row.queueName ≠ ""

/-- Every task in memory and in the tables has a name. -/
structure Core.Addressed (c : Core) : Prop where
  memory : ∀ task, c.queueManager.ledger.Has task → task.Addressed
  disk : c.disk.Addressed

/-- SQLite prints no number as an empty text. -/
def Platform.Prints (platform : Platform) : Prop := ∀ q, platform.realText q ≠ ""

theorem truthy_of_scalar? {value : Json} {scalar : Scalar} (truthy : value.truthy = true)
    (hashed : value.scalar? = some scalar) : scalar.key.truthy = true := by
  cases value with
  | null => cases truthy
  | bool b =>
    cases hashed
    cases b with
    | false => cases truthy
    | true => rfl
  | int i =>
    cases hashed
    simpa [Json.truthy, Scalar.key, Key.truthy] using truthy
  | float q =>
    cases hashed
    simpa [Json.truthy, Scalar.key, Key.truthy] using truthy
  | nonFinite x =>
    cases hashed
    rfl
  | str s =>
    cases hashed
    simpa [Json.truthy, Scalar.key, Key.truthy] using truthy
  | arr items => cases hashed
  | obj fields => cases hashed

/-- A truthy name is stored as a text that is not empty. -/
theorem Platform.Prints.textOf_ne {platform : Platform} (prints : platform.Prints)
    {queue : Scalar} {text : String} (truthy : queue.key.truthy = true)
    (stored : platform.textOf queue.toJson = .ok (some text)) : text ≠ "" := by
  cases queue with
  | null => cases truthy
  | bool b =>
    cases b <;> cases stored <;> decide
  | int i =>
    by_cases fits : sqliteInteger i
    · simp only [textOf, Scalar.toJson, if_pos fits] at stored
      cases stored
      intro empty
      have noDigits := congrArg String.length empty
      cases i <;> simp [toString, Int.repr] at noDigits
    · simp only [textOf, Scalar.toJson, if_neg fits] at stored
      cases stored
  | float q =>
    cases stored
    exact prints q
  | nonFinite x =>
    cases x <;> cases stored <;> decide
  | str s =>
    obtain ⟨-, same⟩ := eq_of_textOf_str stored
    cases same
    simpa [Scalar.key, Key.truthy] using truthy

theorem Platform.Prints.requiredTextOf_ne {platform : Platform} (prints : platform.Prints)
    {queue : Scalar} {text : String} (truthy : queue.key.truthy = true)
    (stored : platform.requiredTextOf queue.toJson = .ok text) : text ≠ "" := by
  unfold requiredTextOf at stored
  split at stored
  · cases stored
  · cases stored
  · rename_i name bound
    cases stored
    exact prints.textOf_ne truthy bound

section

variable {platform : Platform} {env : Env} {m : Machine} {action : Action}
  {r : Except Stop Outcome} {c : Core}

/-- The id that is drawn goes to a new task of this queue. -/
structure Minted (platform : Platform) (env : Env) (m : Machine) (c : Core) (queue : Scalar) :
    Prop where
  /-- The name was checked, or comes from the dead letter table. -/
  address : queue.key.truthy = true ∨ ∃ row ∈ m.disk.deadLetterQueue, queue = .str row.queueName
  memory : ∃ payload,
    c.queueManager = m.broker.queueManager.enqueue env.uuid.text env.time queue payload
  tasks : ∀ row ∈ c.disk.tasks,
    row ∈ m.disk.tasks ∨ platform.requiredTextOf queue.toJson = .ok row.queueName

/-- An action that makes no task of the id that it draws might as well draw another one. -/
theorem Effect.minted_or_redrawn (effect : Effect platform env m action r c) (uuid : Uuid) :
    (∃ queue, Minted platform env m c queue) ∨
      Effect platform { env with uuid } m action r c := by
  cases effect with
  | @produce message queue r c command admitted named hashed persisted =>
    refine Or.inl ⟨queue, Or.inl (truthy_of_scalar? named hashed), ⟨_, persisted.memory.1⟩, ?_⟩
    intro row stored
    rcases persisted.disk_cases with same | ⟨-, -, -, statements, binds, run⟩
    · rw [same] at stored
      exact Or.inl stored
    · obtain ⟨saved, bound, rfl⟩ := Exec.of_map_eq_ok binds
      rw [run] at stored
      rcases Table.mem_upsert.mp stored with rfl | ⟨old, -⟩
      · exact Or.inr (Platform.taskRow_ok bound).2.2.2.2.2
      · exact Or.inl old
  | @replayCut message row payload r connection command opened found decodes unsaved =>
    exact Or.inl ⟨_, Or.inr ⟨row, Platform.mem_of_namedRow found, rfl⟩, ⟨_, rfl⟩,
      fun row stored => Or.inl stored⟩
  | @replay message row payload saved command opened found decodes binds alive =>
    refine Or.inl ⟨_, Or.inr ⟨row, Platform.mem_of_namedRow found, rfl⟩, ⟨_, rfl⟩, ?_⟩
    intro other stored
    rcases Table.mem_upsert.mp stored with rfl | ⟨old, -⟩
    · exact Or.inr (Platform.taskRow_ok binds).2.2.2.2.2
    · exact Or.inl old
  | quiet idle silent => exact Or.inr (.quiet idle silent)
  | consumeEmpty command hashed taken => exact Or.inr (.consumeEmpty command hashed taken)
  | consumeUnhashable command admitted hashed taken unhashable =>
    exact Or.inr (.consumeUnhashable command admitted hashed taken unhashable)
  | consume command admitted hashed taken consumer persisted =>
    exact Or.inr (.consume command admitted hashed taken consumer persisted)
  | register command hashed known => exact Or.inr (.register command hashed known)
  | heartbeat command hashed => exact Or.inr (.heartbeat command hashed)
  | ackAborted command admitted named found fails =>
    exact Or.inr (.ackAborted command admitted named found fails)
  | ack command admitted named found passes persisted =>
    exact Or.inr (.ack command admitted named found passes persisted)
  | nackAborted command admitted named nacked fails =>
    exact Or.inr (.nackAborted command admitted named nacked fails)
  | nack command admitted named nacked passes persisted =>
    exact Or.inr (.nack command admitted named nacked passes persisted)
  | replayDied command opened found spent => exact Or.inr (.replayDied command opened found spent)
  | replayDropped command opened found fails =>
    exact Or.inr (.replayDropped command opened found fails)
  | retry command closed named found => exact Or.inr (.retry command closed named found)
  | purge command opened counted persisted =>
    exact Or.inr (.purge command opened counted persisted)
  | purgeMemory command closed purged => exact Or.inr (.purgeMemory command closed purged)
  | evict ran ending => exact Or.inr (.evict ran ending)
  | reset persisted => exact Or.inr (.reset persisted)
  | replayAll ran => exact Or.inr (.replayAll ran)
  | crashNobody => exact Or.inr .crashNobody
  | crashWorker active => exact Or.inr (.crashWorker active)
  | crash => exact Or.inr .crash
  | start => exact Or.inr .start

/-- A task or a row of an action that makes no new task was there before, under the same name. -/
theorem Effect.queueName_origin (distinct : m.broker.queueManager.Distinct)
    (redrawn : ∀ uuid, Effect platform { env with uuid } m action r c) :
    (∀ task, c.queueManager.ledger.Has task →
      ∃ origin, m.broker.queueManager.ledger.Has origin ∧ origin.queueName = task.queueName) ∧
    ∀ row ∈ c.disk.tasks, ∃ origin ∈ m.disk.tasks, origin.queueName = row.queueName := by
  -- a task cannot have both of two ids, so that at least one of the two draws did not make it
  have apart : (Uuid.numbered 0).text ≠ (Uuid.numbered 1).text := by decide
  refine ⟨fun task inside => ?_, fun row stored => ?_⟩
  · rcases ((redrawn (.numbered 0)).moved distinct).origin inside with
      zeroth | ⟨origin, old, -, same, -⟩
    · rcases ((redrawn (.numbered 1)).moved distinct).origin inside with
        first | ⟨origin, old, -, same, -⟩
      · exact absurd (zeroth.symm.trans first) apart
      · exact ⟨origin, old, same⟩
    · exact ⟨origin, old, same⟩
  · rcases ((redrawn (.numbered 0)).diskMoved distinct).origin stored with
      zeroth | ⟨origin, old, -, same, -⟩
    · rcases ((redrawn (.numbered 1)).diskMoved distinct).origin stored with
        first | ⟨origin, old, -, same, -⟩
      · exact absurd (zeroth.symm.trans first) apart
      · exact ⟨origin, old, same⟩
    · exact ⟨origin, old, same⟩

/-- **Every action leaves every task with a name.** -/
theorem Effect.addressed (effect : Effect platform env m action r c) (prints : platform.Prints)
    (addressed : (m.broker.core m.disk).Addressed) (distinct : m.broker.queueManager.Distinct) :
    c.Addressed := by
  have dead : ∀ row ∈ c.disk.deadLetterQueue, row.queueName ≠ "" := by
    intro row stored
    rcases effect.buried row stored with old | ⟨-, task, flying, -, named⟩
    · exact addressed.disk.dead row old
    · exact prints.requiredTextOf_ne (addressed.memory task (Or.inr (Or.inl flying))) named
  by_cases minted : ∃ queue, Minted platform env m c queue
  · obtain ⟨queue, address, ⟨payload, memory⟩, tasks⟩ := minted
    have truthy : queue.key.truthy = true := by
      rcases address with truthy | ⟨row, stored, rfl⟩
      · exact truthy
      · simpa [Scalar.key, Key.truthy] using addressed.disk.dead row stored
    refine ⟨fun task inside => ?_, fun row stored => ?_, dead⟩
    · rw [memory, QueueManager.ledger_enqueue] at inside
      rcases inside with pending | elsewhere
      · simp only [Multiset.mem_cons] at pending
        rcases pending with rfl | old
        · exact truthy
        · exact addressed.memory task (Or.inl old)
      · exact addressed.memory task (Or.inr elsewhere)
    · rcases tasks row stored with old | named
      · exact addressed.disk.tasks row old
      · exact prints.requiredTextOf_ne truthy named
  · obtain ⟨memory, tasks⟩ := Effect.queueName_origin distinct
      fun uuid => (effect.minted_or_redrawn uuid).resolve_left minted
    refine ⟨fun task inside => ?_, fun row stored => ?_, dead⟩
    · obtain ⟨origin, old, same⟩ := memory task inside
      have named := addressed.memory origin old
      unfold Task.Addressed at named ⊢
      rwa [← same]
    · obtain ⟨origin, old, same⟩ := tasks row stored
      rw [← same]
      exact addressed.disk.tasks origin old

end

/-! ## Every task of every run has a name -/

section

variable {config : Config} {platform : Platform}

/-- During the recovery phase: the rows that are still to come have names, and so has every task
so far. -/
def Addressing (rows : List TaskRow) (c : Core) : Prop :=
  (∀ row ∈ rows, row.queueName ≠ "") ∧ c.Addressed

theorem Addressing.recoverRow {env : Env} {row : TaskRow} {rest : List TaskRow} {payload : Json}
    {c : Core} (addressing : Addressing (row :: rest) c) :
    Addressing rest (c.recoverRow env row payload) := by
  obtain ⟨rows, memory, onDisk⟩ := addressing
  refine ⟨fun row' later => rows row' (List.mem_cons_of_mem _ later), ?_, ?_, onDisk.dead⟩
  · intro task inside
    simp only [Core.recoverRow, QueueManager.ledger_enqueueRecovered] at inside
    rcases inside with pending | elsewhere
    · simp only [Multiset.mem_cons] at pending
      rcases pending with rfl | old
      · simpa [Task.Addressed, Scalar.key, Key.truthy] using rows row List.mem_cons_self
      · exact memory task (Or.inl old)
    · exact memory task (Or.inr elsewhere)
  · intro row' stored
    rcases Database.mem_updateTaskStatus.mp stored with ⟨old, -⟩ | ⟨origin, old, -, rfl⟩
    · exact onDisk.tasks row' old
    · exact onDisk.tasks origin old

theorem Recovery.addressed {env : Env} {crashes : Prop} {disk : Database} {r : Except Stop Unit}
    {c : Core} (addressed : disk.Addressed)
    (recovery : Recovery platform env crashes disk.loadPendingTasks (startCore config env disk)
      r c) :
    c.disk.Addressed ∧ (r = .ok () → c.Addressed) := by
  have start : Addressing disk.loadPendingTasks (startCore config env disk) := by
    refine ⟨fun row live => addressed.tasks row (Database.mem_loadPendingTasks.mp live).1, ?_,
      addressed⟩
    rintro task (none | none | none) <;> exact absurd none (Multiset.notMem_zero task)
  obtain ⟨rest, reached, ⟨-, done⟩, same, complete⟩ := recovery.invariant start
    fun _ _ _ _ _ addressing => addressing.recoverRow
  refine ⟨same ▸ done.disk, fun whole => ?_⟩
  rw [(complete whole).2]
  exact done

theorem addressed_preserved (prints : platform.Prints) :
    Preserved config platform DrawsFresh
      (fun events c => c.Sound config platform (drawn events) ∧ c.Addressed)
      (fun events disk => (disk.Sound platform (drawn events) ∧
        (config.persistent = false → disk = {})) ∧ disk.Addressed) where
  durable := by
    rintro events c ⟨sound, addressed⟩
    exact ⟨⟨sound.disk, sound.volatile⟩, addressed.disk⟩
  ran := by
    rintro events broker disk event r c outcome - ⟨sound, addressed⟩ fresh effect - -
    rw [drawn_concat]
    exact ⟨sound.effect fresh effect, effect.addressed prints addressed sound.distinct⟩
  ignored := by
    rintro events disk event ⟨⟨sound, volatile⟩, addressed⟩ - -
    rw [drawn_concat]
    exact ⟨⟨sound.mono, volatile⟩, addressed⟩
  recovered := by
    rintro events disk event r c outcome ⟨sound, addressed⟩ fresh persistent recovery mute shown
    obtain ⟨stillSound, complete⟩ := (sound_preserved config platform).recovered sound fresh
      persistent recovery mute shown
    obtain ⟨onDisk, memory⟩ := recovery.addressed addressed
    exact ⟨⟨stillSound, onDisk⟩, fun done => ⟨complete done, memory done⟩⟩
  fresh := by
    rintro events disk event outcome ⟨sound, addressed⟩ fresh volatile mute shown
    refine ⟨(sound_preserved config platform).fresh sound fresh volatile mute shown, ?_, addressed⟩
    rintro task (none | none | none) <;> exact absurd none (Multiset.notMem_zero task)

/-- **Every task has a name that the wildcard does not skip**, in every reachable state. -/
theorem reach_addressed (prints : platform.Prints) {events : List Event}
    (fresh : FreshIds events) :
    (reach config platform events).Holds
      (fun c => c.Sound config platform (drawn events) ∧ c.Addressed)
      (fun disk => (disk.Sound platform (drawn events) ∧
        (config.persistent = false → disk = {})) ∧ disk.Addressed) :=
  (addressed_preserved prints).holds
    ⟨⟨Database.sound_empty, fun _ => rfl⟩,
      fun row stored => absurd stored (Table.not_mem_empty row),
      fun row stored => absurd stored (Table.not_mem_empty row)⟩ fresh.drawsFresh

end

/-! ## The order of the wildcard -/

namespace QueueManager

variable {qm : QueueManager}

/-- Without a pending task the wildcard finds nothing. -/
theorem dequeue_wildcard_nil (none : qm.pending = []) (workerId : Json) :
    qm.dequeue (.str "*") workerId = (.none, qm) := by
  have empty : qm.firstNonempty = .none := by
    unfold firstNonempty
    rw [Option.map_eq_none_iff, List.find?_eq_none]
    intro entry inside
    have tasks := List.flatMap_eq_nil_iff.mp none entry inside
    simp [tasks]
  unfold dequeue
  rw [if_pos rfl, empty]

/-- Otherwise it takes the first of them, unless the name of its queue is falsy. -/
theorem dequeue_wildcard_cons {head : Task} {rest : List Task} (homed : qm.Homed)
    (pending : qm.pending = head :: rest) (named : head.Addressed) (workerId : Json) :
    ∃ qm', qm.dequeue (.str "*") workerId = (some (head.deliver workerId), qm') ∧
      qm'.pending = rest := by
  -- the queues before the one that is found hold no tasks, so that its head is the first task
  have found : ∃ entry, qm.queues.rows.find? (fun entry => !entry.2.isEmpty) = some entry := by
    by_contra all
    have nothing : qm.queues.rows.find? (fun entry => !entry.2.isEmpty) = none :=
      Option.eq_none_iff_forall_ne_some.mpr fun entry isEntry => all ⟨entry, isEntry⟩
    rw [List.find?_eq_none] at nothing
    have empty : qm.pending = [] := List.flatMap_eq_nil_iff.mpr fun entry inside => by
      simpa using nothing entry inside
    rw [pending] at empty
    cases empty
  obtain ⟨⟨name, tasks⟩, first⟩ := found
  obtain ⟨nonempty, before, after, split, skipped⟩ := List.find?_eq_some_iff_append.mp first
  have skip : before.flatMap Prod.snd = [] := List.flatMap_eq_nil_iff.mpr fun entry inside => by
    simpa using skipped entry inside
  have laid : qm.pending = tasks ++ after.flatMap Prod.snd := by
    unfold QueueManager.pending
    rw [split, List.flatMap_append, List.flatMap_cons, skip, List.nil_append]
  cases tasks with
  | nil => simp at nonempty
  | cons task others =>
    rw [pending, List.cons_append] at laid
    obtain ⟨rfl, rest_eq⟩ := List.cons.inj laid
    have row : qm.queues.find? name = some (name, head :: others) := by
      refine Table.find?_eq_some.mpr ⟨?_, rfl⟩
      show (name, head :: others) ∈ qm.queues.rows
      rw [split]
      exact List.mem_append_right _ List.mem_cons_self
    have queue : qm.deque name = head :: others := by
      unfold deque
      rw [row]
      rfl
    have truthy : name.truthy = true := by
      rw [← homed name head (by simp [queue])]
      exact named
    have pops : qm.dequeue (.str "*") workerId = qm.popLeft name workerId := by
      unfold dequeue firstNonempty
      rw [if_pos rfl, first]
      exact if_pos truthy
    rw [pops]
    unfold popLeft
    rw [queue]
    refine ⟨_, rfl, ?_⟩
    have popped : (qm.queues.put (name, others)).rows = before ++ (name, others) :: after :=
      Table.rows_put_of_split split rfl
    show (qm.queues.put (name, others)).rows.flatMap Prod.snd = rest
    rw [popped, List.flatMap_append, List.flatMap_cons, skip, List.nil_append, rest_eq]

end QueueManager

/-! ## Draining -/

/-- A pending task in the answer to the CONSUME that takes it. -/
def Task.delivery (task : Task) : Delivery where
  taskId := task.taskId
  queueName := task.queueName
  payload := task.payload
  attempts := task.attempts + 1

/-- `_send_response` can write the answer that hands the task out. -/
def Task.Sendable (wire : Wire) (task : Task) : Prop :=
  wire.Sendable ((Response.consumed task.delivery).toJson wire)

/-- What the client gets to read: the answer of the handler, if there is one and
`_send_response` can write it. -/
def Outcome.reply? (wire : Wire) : Outcome → Option Response
  | .answered response => if wire.Sendable (response.toJson wire) then some response else none
  | _ => none

theorem Outcome.reply?_of_sendable {wire : Wire} {response : Response}
    (sendable : wire.Sendable (response.toJson wire)) :
    (Outcome.answered response).reply? wire = some response := if_pos sendable

/-- The answers to `n` CONSUMEs that take the pending tasks in their order. -/
def drain (pending : List Task) (n : Nat) : List (Option Response) :=
  (pending.take n).map (fun task => some (.consumed task.delivery)) ++
    List.replicate (n - pending.length) (some .empty)

@[simp] theorem drain_zero (pending : List Task) : drain pending 0 = [] := by
  simp [drain]

@[simp] theorem drain_one_nil : drain [] 1 = [some .empty] := by
  simp [drain]

@[simp] theorem drain_one_cons (task : Task) (rest : List Task) :
    drain (task :: rest) 1 = [some (.consumed task.delivery)] := by
  simp [drain]

theorem drain_succ (pending : List Task) (n : Nat) :
    drain pending (n + 1) = drain pending 1 ++ drain (pending.drop 1) n := by
  cases pending with
  | nil => simp [drain, List.replicate_succ]
  | cons task rest =>
    rw [drain_one_cons]
    simp [drain]

namespace Event

/-- The event is a CONSUME. -/
def consumes (event : Event) : Bool :=
  match event.action with
  | .command message => decide (commandOf message = some .consume)
  | _ => false

/-- A wildcard CONSUME of a worker that is named by a text, which SQLite can bind if there is a
store; or a command that neither adds tasks to the queues nor takes any.  A worker that is named
otherwise would take its task and then raise. -/
inductive Drains (config : Config) (platform : Platform) : Event → Prop where
  | wildcard {message : Message} {worker : String} {env : Env}
      (command : commandOf message = some .consume)
      (anywhere : message.get "queue" .null = .str "*")
      (named : message.get "worker_id" .null = .str worker) (nonempty : worker ≠ "")
      (binds : config.persistent = true → platform.Binds worker) :
      Drains config platform { action := .command message, env }
  | other {message : Message} {env : Env}
      (command : commandOf message ≠ some .produce ∧ commandOf message ≠ some .consume ∧
        commandOf message ≠ some .nack ∧ commandOf message ≠ some .dlqReplay) :
      Drains config platform { action := .command message, env }

end Event

section

variable {wire : Wire} {env : Env} {m : Machine} {message : Message} {r : Except Stop Outcome}
  {c : Core}

/-- A wildcard CONSUME is answered with the first pending task. -/
theorem Effect.of_wildcard {worker : String}
    (effect : Effect wire.platform env m (.command message) r c) (whole : m.crashIn = none)
    (homed : m.broker.queueManager.Homed)
    (addressed : ∀ task ∈ m.broker.queueManager.pending, task.Addressed)
    (sendable : ∀ task ∈ m.broker.queueManager.pending, task.Sendable wire)
    (command : commandOf message = some .consume)
    (anywhere : message.get "queue" .null = .str "*")
    (named : message.get "worker_id" .null = .str worker) (nonempty : worker ≠ "")
    (binds : m.broker.walStore.isSome = true → wire.platform.Binds worker) :
    [(outcomeOf r).reply? wire] = drain m.broker.queueManager.pending 1 ∧
      c.queueManager.pending = m.broker.queueManager.pending.drop 1 := by
  have admits : Admits wire.platform env m message .consume := by
    refine ⟨?_, ?_, .str "*", ?_⟩
    · rw [anywhere]
      rfl
    · simpa [named, Json.truthy] using nonempty
    · rw [anywhere]
      rfl
  obtain ⟨queue, hashed, consumes⟩ := effect.of_consume command admits
  obtain rfl : queue = .str "*" := by
    rw [anywhere] at hashed
    exact (Option.some.inj hashed).symm
  cases pending : m.broker.queueManager.pending with
  | nil =>
    rw [QueueManager.dequeue_wildcard_nil pending] at consumes
    cases consumes with
    | empty =>
      rw [drain_one_nil]
      exact ⟨congrArg (fun reply => [reply])
        (Outcome.reply?_of_sendable (Wire.sendable_empty wire)), pending⟩
  | cons head rest =>
    obtain ⟨qm', first, left⟩ := QueueManager.dequeue_wildcard_cons homed pending
      (addressed head (by simp [pending])) (message.get "worker_id" .null)
    rw [first] at consumes
    cases consumes with
    | unhashable unhashable =>
      rw [named] at unhashable
      cases unhashable
    | assigned consumer persisted =>
      refine ⟨?_, (congrArg QueueManager.pending persisted.memory.1).trans left⟩
      -- the worker can be bound, so the store does not refuse
      have returned : r = .ok (.answered (.consumed head.delivery)) := by
        cases persisted with
        | off absent => rfl
        | died present _ spent =>
          rw [whole] at spent
          cases spent
        | refused present fails =>
          have bound := (binds present).textOf
          rw [named] at fails
          simp [Platform.optionalTextOf, Json.isNone, bound, Except.map] at fails
        | committed present _ alive => rfl
      rw [returned, drain_one_cons]
      exact congrArg (fun reply => [reply])
        (Outcome.reply?_of_sendable (sendable head (by simp [pending])))

variable {config : Config} {broker : Broker} {disk : Database} {event : Event}

/-- What one event of a draining run does. -/
theorem Event.Drains.step (drains : event.Drains config wire.platform)
    (opened : broker.walStore.isSome = config.persistent) (homed : broker.queueManager.Homed)
    (addressed : ∀ task ∈ broker.queueManager.pending, task.Addressed)
    (sendable : ∀ task ∈ broker.queueManager.pending, task.Sendable wire) :
    ∃ outcome broker' disk',
      DistroSync.step config wire.platform (.running broker disk) event =
        (outcome, .running broker' disk') ∧
      (if event.consumes then [outcome.reply? wire] else []) =
        drain broker.queueManager.pending (if event.consumes then 1 else 0) ∧
      broker'.queueManager.pending =
        broker.queueManager.pending.drop (if event.consumes then 1 else 0) := by
  cases drains with
  | @wildcard message worker env command anywhere named nonempty binds =>
    have consumes : Event.consumes { action := .command message, env } = true := by
      simp [Event.consumes, command]
    obtain ⟨r, broker', disk', steps, effect⟩ :=
      @step_effect_running config wire.platform broker disk
        { action := .command message, env } rfl (by intro isCrash; cases isCrash)
    rw [consumes]
    exact ⟨_, _, _, steps, effect.of_wildcard rfl homed addressed sendable command anywhere
      named nonempty fun present => binds (opened.symm.trans present)⟩
  | @other message env command =>
    have consumes : Event.consumes { action := .command message, env } = false := by
      simp only [Event.consumes, decide_eq_false_iff_not]
      exact command.2.1
    obtain ⟨r, broker', disk', steps, effect⟩ :=
      @step_effect_running config wire.platform broker disk
        { action := .command message, env } rfl (by intro isCrash; cases isCrash)
    refine ⟨_, _, _, steps, ?_, ?_⟩
    · rw [consumes]
      exact (drain_zero _).symm
    · rw [consumes]
      show broker'.queueManager.queues.rows.flatMap Prod.snd = _
      have same : broker'.queueManager.queues = broker.queueManager.queues :=
        effect.queues_of_other command
      rw [same]
      rfl

/-- The answers to the CONSUMEs of a run, as their clients get them. -/
def consumeAnswers (config : Config) (wire : Wire) (system : System) (run : List Event) :
    List (Option Response) :=
  ((Trace.trace (DistroSync.step config wire.platform) system run).filter fun entry =>
    entry.1.consumes).map fun entry => entry.2.reply? wire

theorem consumeAnswers_cons (system : System) (event : Event) (rest : List Event) :
    consumeAnswers config wire system (event :: rest) =
      (if event.consumes then [(step config wire.platform system event).1.reply? wire] else []) ++
        consumeAnswers config wire (step config wire.platform system event).2 rest := by
  unfold consumeAnswers
  rw [Trace.trace, List.filter_cons]
  split_ifs <;> rfl

/-- **Wildcard consumers drain the broker.**  After any history with distinct ids, and as long as
the commands are wildcard CONSUMEs of workers that are named by texts, and such as leave the
queues alone, the CONSUMEs are answered with the pending tasks in the order of the queues, each
once, and after the last one with `empty`.  Every pending task has to be one that
`_send_response` can write: PRODUCE accepts payloads that are nested too deeply for that, and
the CONSUME that takes such a task is not answered at all. -/
theorem drained (prints : wire.platform.Prints) {past run : List Event}
    (fresh : FreshIds (past ++ run)) (up : reach config wire.platform past = .running broker disk)
    (sendable : ∀ task ∈ broker.queueManager.pending, task.Sendable wire)
    (draining : ∀ event ∈ run, event.Drains config wire.platform) :
    consumeAnswers config wire (.running broker disk) run =
        drain broker.queueManager.pending (run.countP Event.consumes) ∧
      ∃ broker' disk', reach config wire.platform (past ++ run) = .running broker' disk' ∧
        broker'.queueManager.pending =
          broker.queueManager.pending.drop (run.countP Event.consumes) := by
  induction run generalizing past broker disk with
  | nil =>
    rw [List.append_nil, List.countP_nil, drain_zero]
    exact ⟨rfl, broker, disk, up, rfl⟩
  | cons event rest ih =>
    have homed := @reach_homed config wire.platform past fresh.front
    have addressed := @reach_addressed config wire.platform prints past fresh.front
    rw [up] at homed addressed
    have sound : (broker.core disk).Sound config wire.platform (drawn past) := addressed.1
    obtain ⟨outcome, broker', disk', steps, answer, left⟩ :=
      (draining event List.mem_cons_self).step sound.store homed.2
        (fun task inside => addressed.2.memory task (Or.inl inside)) sendable
    have regroup : past ++ event :: rest = past ++ [event] ++ rest := by simp
    have next : reach config wire.platform (past ++ [event]) = .running broker' disk' := by
      rw [reach_concat, up, steps]
    have still : ∀ task ∈ broker'.queueManager.pending, task.Sendable wire := by
      intro task inside
      rw [left] at inside
      exact sendable task (List.mem_of_mem_drop inside)
    obtain ⟨answers, broker'', disk'', done, remains⟩ := ih (regroup ▸ fresh) next still
      fun other inside => draining other (List.mem_cons_of_mem _ inside)
    rw [consumeAnswers_cons, steps, answer, answers, left, regroup, List.countP_cons]
    refine ⟨?_, broker'', disk'', done, ?_⟩
    · -- one answer less to go if the event is a CONSUME
      split_ifs
      · exact (drain_succ _ _).symm
      · simp
    · rw [remains, left, List.drop_drop, Nat.add_comm]

end

/-- A task comes back after a worker failed on it, in front of a task of another queue. -/
def stockedPast : List Event :=
  [.at 0 .start, .at 1 (.produce "q" "x"), .at 2 (.produce "p" "y"), .at 3 (.produce "q" "z"),
    .at 4 (.consume "q" "w"), .at 5 (.nack (idAt 1))]

/-- Two workers ask for anything. -/
def drainingRun : List Event :=
  [.at 6 (.consume "*" "w"), .at 7 (.ack (idAt 1)), .at 8 (.consume "*" "v"),
    .at 9 (.consume "*" "w"), .at 10 (.consume "*" "v")]

theorem drained_stocked :
    ∃ broker disk,
      reach { persistent := true } .plain stockedPast = .running broker disk ∧
      broker.queueManager.pending.map Task.taskId = [idAt 1, idAt 3, idAt 2] ∧
      consumeAnswers { persistent := true } .plain (.running broker disk) drainingRun =
        drain broker.queueManager.pending 4 := by
  obtain ⟨broker, disk, up, passed⟩ :=
    System.of_passes (show (reach { persistent := true } .plain stockedPast).passes
      (fun broker _ => decide (broker.queueManager.pending.map Task.taskId =
        [idAt 1, idAt 3, idAt 2] ∧ ∀ task ∈ broker.queueManager.pending,
          Wire.plain.Sendable ((Response.consumed task.delivery).toJson .plain))) = true by
      decide +kernel)
  obtain ⟨pending, sendable⟩ := of_decide_eq_true passed
  have draining : ∀ event ∈ drainingRun, event.Drains { persistent := true } .plain := by
    simp only [drainingRun, List.mem_cons, List.not_mem_nil, or_false]
    rintro event (rfl | rfl | rfl | rfl | rfl)
    · exact .wildcard rfl rfl rfl (by decide) fun _ => by decide +kernel
    · exact .other (by decide)
    · exact .wildcard rfl rfl rfl (by decide) fun _ => by decide +kernel
    · exact .wildcard rfl rfl rfl (by decide) fun _ => by decide +kernel
    · exact .wildcard rfl rfl rfl (by decide) fun _ => by decide +kernel
  have prints : Platform.plain.Prints := by
    intro q
    simp [Platform.plain, JsonText.write]
  exact ⟨broker, disk, up, pending,
    (@drained .plain { persistent := true } broker disk prints _ _ (by decide +kernel) up sendable
      draining).1⟩

end DistroSync
