import DistroSync.ErrorAtomicity
import DistroSync.Payload
import DistroSync.QueueView
import DistroSync.Recovery
import DistroSync.Responses

/-!
# First deliveries are in order

Tasks do not stay in the order in which they were enqueued: a failed or evicted task
returns to the front of its queue, a retried one goes to the back, and a start rebuilds
all queues from the rows of the table.  What survives all this is the order of the tasks
that were not delivered yet.

The proof follows one task `a` from the moment it is enqueued, and says what can be ahead
of it: only tasks with ids that were drawn before, because everything that is put at the
front of a queue was delivered from it earlier.  In the table the same is said by
`created_at`, which is what a start sorts by.

The table stores the name of a queue as a text.  A queue that is named by a number has
another name after a restart, and a task that waits in it is overtaken by the tasks that
are enqueued under the number; so the names have to be strings.  There are two more ways to
lose a place in the queue.  A task whose row could not be saved, because SQLite does not bind
the name or `json.dumps` does not get through the payload, is in no table when the process
dies.  And a task whose delivery raises, in the handler or in `_send_response`, has left its
queue and reached nobody.
-/

namespace DistroSync

open Keyed Py

variable {platform : Platform} {system : System} {events : List Event} {event : Event} {env : Env}
  {m : Machine} {action : Action} {r : Except Stop Outcome} {c : Core} {q : Key} {a : String}
  {old : List String} {task : Task}

/-! ## Changes of the queues -/

namespace QueueManager

/-- A change of the pending queues and the tasks in flight that takes nothing from a queue. -/
inductive Shift (qm qm' : QueueManager) : Prop where
  /-- Tasks may leave flight. -/
  | settled (deques : ∀ name, qm'.deque name = qm.deque name)
      (inFlight : ∀ task ∈ qm'.inFlight, task ∈ qm.inFlight)
  /-- A task goes to the back of its queue. -/
  | pushed (task : Task) (deques : ∀ name, qm'.deque name = (qm.append task).deque name)
      (inFlight : qm'.inFlight = qm.inFlight)
  /-- A task in flight goes back to the front of its queue. -/
  | returned (task : Task) (flying : task ∈ qm.inFlight)
      (deques : ∀ name, qm'.deque name = (qm.appendLeft task.release).deque name)
      (inFlight : ∀ task ∈ qm'.inFlight, task ∈ qm.inFlight)

/-- Any number of such changes. -/
abbrev Shifts : QueueManager → QueueManager → Prop := Relation.ReflTransGen Shift

section Shifts

variable {qm qm' : QueueManager}

theorem Shift.refl (qm : QueueManager) : Shift qm qm := .settled (fun _ => rfl) fun _ => id

/-- Only the queues and the tasks in flight matter. -/
theorem deque_congr (same : qm'.queues = qm.queues) (name : Key) :
    qm'.deque name = qm.deque name := by
  unfold deque
  rw [same]

theorem deque_appendLeft_congr (same : qm'.queues = qm.queues) (task : Task) (name : Key) :
    (qm'.appendLeft task).deque name = (qm.appendLeft task).deque name := by
  rw [deque_appendLeft, deque_appendLeft, deque_congr same]

theorem enqueue_shift (qm : QueueManager) (taskId : String) (now : Rat) (queueName : Scalar)
    (payload : Json) : Shift qm (qm.enqueue taskId now queueName payload) :=
  .pushed { taskId, queueName, payload, createdAt := now } (fun _ => rfl) (append_inFlight qm _)

theorem dequeue_none_shift {queueName : Scalar} {workerId : Json}
    (taken : qm.dequeue queueName workerId = (none, qm')) : Shift qm qm' := by
  rcases dequeue_none taken with rfl | ⟨created, rfl⟩
  · exact .refl _
  · exact .settled (deque_ensureQueue qm created) fun task flying => by
      rwa [ensureQueue_inFlight] at flying

theorem acknowledge_shift (qm : QueueManager) (id : String) : Shift qm (qm.acknowledge id).2 := by
  unfold acknowledge
  split
  · exact .refl _
  · exact .settled (fun _ => rfl) fun task flying => (Table.mem_erase.mp flying).1

/-- A NACK is one change of the queues, whichever way the task goes. -/
theorem Nacked.shift {now : Rat} {task' : Task} {action : NackAction} (flying : task ∈ qm.inFlight)
    (nacked : Nacked qm now task action task' qm') :
    Shift qm qm' := by
  cases nacked with
  | buried exhausted =>
    exact .settled (fun _ => rfl) fun other inside => (Table.mem_erase.mp inside).1
  | requeued left =>
    refine .returned task flying (fun name => deque_appendLeft_congr (by rfl) _ name) ?_
    intro other inside
    rw [appendLeft_inFlight] at inside
    exact (Table.mem_erase.mp inside).1

theorem requeueById_shift (qm : QueueManager) (id : String) : Shift qm (qm.requeueById id).2 := by
  unfold requeueById
  split
  · exact .refl _
  · rename_i task found
    refine .returned task (Table.mem_of_find? found)
      (fun name => deque_appendLeft_congr (by rfl) _ name) ?_
    intro other inside
    simp only [appendLeft_inFlight] at inside
    exact (Table.mem_erase.mp inside).1

theorem requeueAll_shifts (ids : List String) (qm : QueueManager) :
    Shifts qm (requeueAll ids qm).2 := by
  induction ids generalizing qm with
  | nil => exact .refl
  | cons id rest ih => exact .head (requeueById_shift qm id) (ih _)

theorem evictEach_shifts (order : SetOrder) (workers : List WorkerInfo) (registry : WorkerRegistry)
    (qm : QueueManager) : Shifts qm (evictEach order workers (registry, qm)).2.2 := by
  induction workers generalizing registry qm with
  | nil => exact .refl
  | cons worker rest ih =>
    unfold evictEach
    split
    · exact (requeueAll_shifts _ qm).trans (ih _ _)
    · exact .refl

theorem retry_shift (qm : QueueManager) (id : String) : Shift qm (qm.retry id).2 := by
  unfold retry retryBegin
  cases qm.deadLetterQueue.tasks.find? id with
  | none => exact .refl _
  | some task =>
    refine .pushed task.revive (fun name => ?_) (append_inFlight _ _)
    change (QueueManager.append _ task.revive).deque name = _
    rw [deque_append, deque_append]
    rfl

theorem retryEach_shifts (ids : List String) (qm : QueueManager) :
    Shifts qm (retryEach ids qm).2 := by
  induction ids generalizing qm with
  | nil => exact .refl
  | cons id rest ih => exact .head (retry_shift qm id) (ih _)

theorem Homed.shift (homed : qm.Homed) (shift : Shift qm qm') : qm'.Homed := by
  intro name task inside
  cases shift with
  | settled deques inFlight =>
    rw [deques] at inside
    exact homed name task inside
  | pushed pushed deques inFlight =>
    rw [deques] at inside
    exact homed.append pushed name task inside
  | returned back flying deques inFlight =>
    rw [deques] at inside
    exact homed.appendLeft back.release name task inside

theorem Homed.shifts (homed : qm.Homed) (shifts : Shifts qm qm') : qm'.Homed := by
  induction shifts with
  | refl => exact homed
  | tail _ shift ih => exact ih.shift shift

end Shifts

end QueueManager

/-- The response that hands out the task. -/
def Task.handOut (task : Task) : Response :=
  .consumed
    { taskId := task.taskId
      queueName := task.queueName
      payload := task.payload
      attempts := task.attempts }

/-- What an action can do to the order of the tasks. -/
inductive Reorders (platform : Platform) (env : Env) (m : Machine) (action : Action)
    (r : Except Stop Outcome) (qm : QueueManager) : Prop where
  | shifted (shifts : QueueManager.Shifts m.broker.queueManager qm)
  /-- A CONSUME takes a task, and says so unless the process dies or it raises. -/
  | taken {message : Message} {queue : Scalar} {task : Task} (received : action = .command message)
      (command : commandOf message = some .consume)
      (dequeued : m.broker.queueManager.dequeue queue (message.get "worker_id" .null) =
        (some task, qm))
      (shown : r = .ok (.answered task.handOut) ∨
        r = .error .crashed ∨ Interrupted platform env m message .consume)
  | cleared (reset : action = .reset) (empty : ∀ name, qm.deque name = [])

/-- **Every action reorders the tasks in one of three ways.** -/
theorem Effect.reorders (effect : Effect platform env m action r c) :
    Reorders platform env m action r c.queueManager := by
  have still : Reorders platform env m action r m.broker.queueManager := .shifted .refl
  cases effect with
  | produce command admitted named hashed persisted =>
    rw [persisted.memory.1]
    exact .shifted (.single (QueueManager.enqueue_shift _ _ _ _ _))
  | consumeEmpty command hashed taken =>
    exact .shifted (.single (QueueManager.dequeue_none_shift taken))
  | consumeUnhashable command admitted hashed taken unhashable =>
    -- the task is gone from its queue, and the handler raises
    exact .taken rfl command taken
      (Or.inr (Or.inr ⟨_, _, _, hashed, taken, Or.inl unhashable⟩))
  | consume command admitted hashed taken consumer persisted =>
    rw [persisted.memory.1]
    refine .taken rfl command taken ?_
    cases persisted with
    | off absent => exact Or.inl rfl
    | died present binds spent => exact Or.inr (Or.inl rfl)
    | refused present fails =>
      have unbound := (optionalTextOf_error_iff admitted.2.1).mp (map_error_iff.mp ⟨_, fails⟩)
      exact Or.inr (Or.inr ⟨_, _, _, hashed, taken, Or.inr ⟨present, unbound⟩⟩)
    | committed present binds alive => exact Or.inl rfl
  | ackAborted command admitted named found fails =>
    exact .shifted (.single (QueueManager.acknowledge_shift _ _))
  | ack command admitted named found passes persisted =>
    rw [persisted.memory.1]
    exact .shifted (.single (QueueManager.acknowledge_shift _ _))
  | nackAborted command admitted named nacked fails =>
    obtain ⟨task, found, spec⟩ := QueueManager.negativeAcknowledge_some nacked
    exact .shifted (.single (spec.shift (Table.mem_of_find? found)))
  | nack command admitted named nacked passes persisted =>
    obtain ⟨task, found, spec⟩ := QueueManager.negativeAcknowledge_some nacked
    rw [persisted.memory.1]
    exact .shifted (.single (spec.shift (Table.mem_of_find? found)))
  | replayCut command opened found decodes unsaved =>
    exact .shifted (.single (QueueManager.enqueue_shift _ _ _ _ _))
  | replay command opened found decodes binds alive =>
    exact .shifted (.single (QueueManager.enqueue_shift _ _ _ _ _))
  | retry command closed named found =>
    exact .shifted (.single (QueueManager.retry_shift _ _))
  | purge command opened counted persisted =>
    rw [persisted.memory.1]
    exact still
  | purgeMemory command closed purged =>
    exact .shifted (.single (.settled (fun _ => rfl) fun _ => id))
  | @evict order result registry qm r ran ending =>
    have shifts := QueueManager.evictEach_shifts order
      (m.broker.workerRegistry.deadWorkers env.time) (m.broker.workerRegistry.dropDead env.time)
      m.broker.queueManager
    unfold evictDeadWorkers at ran
    rw [ran] at shifts
    exact .shifted shifts
  | reset persisted =>
    rw [persisted.memory.1]
    exact .cleared rfl fun _ => rfl
  | replayAll ran =>
    have shifts := QueueManager.retryEach_shifts
      ((m.broker.queueManager.deadLetterQueue.peek 1000).map Task.taskId) m.broker.queueManager
    rw [ran] at shifts
    exact .shifted shifts
  | _ => exact still

/-! ## Behind older tasks only -/

namespace QueueManager

/-- The task `a` waits in the queue `q`, the tasks ahead of it have ids of `old`, and so have the
tasks of `q` in flight, which may be put in front of it. -/
structure Waits (q : Key) (a : String) (old : List String) (qm : QueueManager) : Prop where
  pending : ∃ ahead task behind, qm.deque q = ahead ++ task :: behind ∧ task.taskId = a ∧
    ∀ other ∈ ahead, other.taskId ∈ old
  inFlight : ∀ task ∈ qm.inFlight, task.queueName.key = q → task.taskId ∈ old

variable {q : Key} {a : String} {old : List String} {qm qm' : QueueManager}

/-- **What waits behind older tasks only still does after any change but a delivery.** -/
theorem Waits.shift (waits : qm.Waits q a old) (shift : Shift qm qm') : qm'.Waits q a old := by
  obtain ⟨⟨ahead, task, behind, tasks, isA, older⟩, inFlight⟩ := waits
  cases shift with
  | settled deques fewer =>
    exact ⟨⟨ahead, task, behind, (deques q).trans tasks, isA, older⟩,
      fun other flying => inFlight other (fewer other flying)⟩
  | pushed pushed deques same =>
    refine ⟨?_, same ▸ inFlight⟩
    rw [deques, deque_append]
    split_ifs with own
    · exact ⟨ahead, task, behind ++ [pushed], by simp [tasks], isA, older⟩
    · exact ⟨ahead, task, behind, tasks, isA, older⟩
  | returned back flying deques fewer =>
    refine ⟨?_, fun other inside => inFlight other (fewer other inside)⟩
    rw [deques, deque_appendLeft]
    split_ifs with own
    · refine ⟨back.release :: ahead, task, behind, by simp [tasks], isA, ?_⟩
      intro other inside
      rcases List.mem_cons.mp inside with rfl | earlier
      · exact inFlight back flying own.symm
      · exact older other earlier
    · exact ⟨ahead, task, behind, tasks, isA, older⟩

theorem Waits.shifts (waits : qm.Waits q a old) (shifts : Shifts qm qm') : qm'.Waits q a old := by
  induction shifts with
  | refl => exact waits
  | tail _ shift ih => exact ih.shift shift

/-- The task that `dequeue` takes is the head of a queue. -/
theorem dequeue_some_deques {queueName : Scalar} {workerId : Json}
    (taken : qm.dequeue queueName workerId = (some task, qm')) :
    ∃ name head rest, qm.deque name = head :: rest ∧ task = head.deliver workerId ∧
      qm'.deque name = rest ∧ ∀ other ≠ name, qm'.deque other = qm.deque other := by
  obtain ⟨origin, name, created, popped⟩ := dequeue_some taken
  have same (name : Key) : origin.deque name = qm.deque name := by
    rcases created with rfl | ⟨created, rfl⟩
    · rfl
    · exact deque_ensureQueue qm created name
  obtain ⟨head, rest, tasks, isTask, rfl⟩ := popLeft_some popped
  refine ⟨name, head, rest, (same name).symm.trans tasks, isTask, deque_put_self origin name rest,
    fun other ne => ?_⟩
  exact (deque_put_of_ne origin name rest ne).trans (same other)

/-- A CONSUME takes `a` itself, or something that was ahead of it, or from another queue. -/
theorem Waits.dequeue (waits : qm.Waits q a old) (homed : qm.Homed) {queueName : Scalar}
    {workerId : Json} (taken : qm.dequeue queueName workerId = (some task, qm')) :
    task.taskId = a ∨ qm'.Waits q a old := by
  obtain ⟨name, head, rest, tasks, isTask, popped, others⟩ := dequeue_some_deques taken
  obtain ⟨⟨ahead, waiting, behind, split, isA, older⟩, inFlight⟩ := waits
  have flies : qm'.inFlight = qm.inFlight.put task := dequeue_some_inFlight taken
  by_cases own : name = q
  · subst own
    cases ahead with
    | nil =>
      rw [List.nil_append, tasks] at split
      obtain ⟨rfl, -⟩ := List.cons.inj split
      rw [isTask]
      exact Or.inl isA
    | cons first ahead =>
      rw [List.cons_append, tasks] at split
      obtain ⟨rfl, rfl⟩ := List.cons.inj split
      refine Or.inr ⟨⟨ahead, waiting, behind, popped, isA,
        fun other inside => older other (List.mem_cons_of_mem _ inside)⟩, ?_⟩
      intro other flying isQ
      rw [flies] at flying
      rcases Table.mem_put.mp flying with rfl | ⟨earlier, -⟩
      · rw [isTask]
        exact older head List.mem_cons_self
      · exact inFlight other earlier isQ
  · refine Or.inr ⟨⟨ahead, waiting, behind, (others q (Ne.symm own)).trans split, isA, older⟩, ?_⟩
    intro other flying isQ
    rw [flies] at flying
    rcases Table.mem_put.mp flying with rfl | ⟨earlier, -⟩
    · have home := homed name head (by simp [tasks])
      rw [isTask] at isQ
      exact absurd (home.symm.trans isQ) own
    · exact inFlight other earlier isQ

end QueueManager

/-! ## The rows in the order of their creation -/

/-- The row was not replaced, only its status was changed. -/
structure TaskRow.Same (row row' : TaskRow) : Prop where
  taskId : row'.taskId = row.taskId
  queueName : row'.queueName = row.queueName
  createdAt : row'.createdAt = row.createdAt

/-- No row is new, and the live rows stay live unless they are `exempt`. -/
structure RowsKept (exempt : String → Prop) (db db' : Database) : Prop where
  origin : ∀ row' ∈ db'.tasks, ∃ row ∈ db.tasks, row.Same row'
  stays : ∀ row ∈ db.tasks, row.live = true → ¬exempt row.taskId →
    ∃ row' ∈ db'.tasks, row'.live = true ∧ row.Same row'

section Rows

variable {exempt : String → Prop} {db db' db'' : Database}

theorem RowsKept.of_tasks (same : db'.tasks = db.tasks) : RowsKept exempt db db' where
  origin row stored := ⟨row, same ▸ stored, rfl, rfl, rfl⟩
  stays row stored live _ := ⟨row, same.symm ▸ stored, live, rfl, rfl, rfl⟩

theorem RowsKept.trans (kept : RowsKept exempt db db') (further : RowsKept exempt db' db'') :
    RowsKept exempt db db'' where
  origin row'' stored := by
    obtain ⟨row', there, ⟨id', name', created'⟩⟩ := further.origin row'' stored
    obtain ⟨row, here, ⟨id, name, created⟩⟩ := kept.origin row' there
    exact ⟨row, here, id'.trans id, name'.trans name, created'.trans created⟩
  stays row stored live spared := by
    obtain ⟨row', there, live', ⟨id, name, created⟩⟩ := kept.stays row stored live spared
    obtain ⟨row'', where', live'', ⟨id', name', created'⟩⟩ :=
      further.stays row' there live' (id ▸ spared)
    exact ⟨row'', where', live'', id'.trans id, name'.trans name, created'.trans created⟩

/-- A row keeps its queue and its time, and stays live unless it is exempt. -/
theorem RowsKept.updateTaskStatus {taskId : String} {status : TaskStatus} {attempts : Option Nat}
    {worker : Option (Option String)} {now : Rat} (harmless : status.live = true ∨ exempt taskId) :
    RowsKept exempt db (db.updateTaskStatus taskId status attempts worker now) where
  origin row stored := by
    rcases Database.mem_updateTaskStatus.mp stored with ⟨old, -⟩ | ⟨origin, old, -, rfl⟩
    · exact ⟨row, old, rfl, rfl, rfl⟩
    · exact ⟨origin, old, rfl, rfl, rfl⟩
  stays row stored live spared := by
    by_cases same : row.taskId = taskId
    · refine ⟨_, Database.mem_updateTaskStatus.mpr (Or.inr ⟨row, stored, same, rfl⟩), ?_,
        rfl, rfl, rfl⟩
      exact harmless.resolve_right (same ▸ spared)
    · exact ⟨row, Database.mem_updateTaskStatus.mpr (Or.inl ⟨stored, same⟩), live, rfl, rfl, rfl⟩

theorem RowsKept.addToDlq {row : DlqRow} (harmless : exempt row.taskId) :
    RowsKept exempt db (db.addToDlq row) where
  origin other stored := ⟨other, (Table.mem_erase.mp stored).1, rfl, rfl, rfl⟩
  stays other stored live spared := by
    have apart : other.taskId ≠ row.taskId := fun same => spared (same ▸ harmless)
    exact ⟨other, Table.mem_erase.mpr ⟨stored, apart⟩, live, rfl, rfl, rfl⟩

theorem RowsKept.restored (now : Rat) (rows : List TaskRow) (db : Database) :
    RowsKept exempt db (rows.foldl (Database.restoreRow now) db) := by
  induction rows generalizing db with
  | nil => exact .of_tasks rfl
  | cons row rest ih => exact (RowsKept.updateTaskStatus (Or.inl rfl)).trans (ih _)

end Rows

/-- The action may give the id it draws to a new task. -/
def Action.Creates : Action → Prop
  | .command message =>
    commandOf message = some .produce ∨ commandOf message = some .dlqReplay
  | _ => False

/-- A new task went to the back of its queue. -/
def Created (env : Env) (m : Machine) (queue : Scalar) (payload : Json) (c : Core) : Prop :=
  c.queueManager = m.broker.queueManager.enqueue env.uuid.text env.time queue payload

/-- A new task went to the back of its queue, and its row into the table. -/
structure Saved (platform : Platform) (env : Env) (m : Machine) (queue : Scalar) (payload : Json)
    (c : Core) : Prop where
  created : Created env m queue payload c
  stored : ∃ row, platform.taskRow (env.task queue payload) env.time = .ok row ∧
    c.disk.tasks = m.disk.tasks.upsert row

/-- What an action can do to the rows of `tasks`. -/
inductive RowsMoved (platform : Platform) (env : Env) (m : Machine) (action : Action) (c : Core) :
    Prop where
  | saved {queue : Scalar} {payload : Json} (creates : action.Creates)
      (saved : Saved platform env m queue payload c)
      (opened : m.broker.walStore.isSome = true)
  | kept (kept : RowsKept (fun id => m.broker.queueManager.inFlight.find? id ≠ none) m.disk c.disk)
  | cleared (reset : action = .reset) (empty : c.disk = {})

/-- **Every action changes the rows in one of three ways.** -/
theorem Effect.rowsMoved (effect : Effect platform env m action r c) :
    RowsMoved platform env m action c := by
  cases effect with
  | produce command admitted named hashed persisted =>
    rcases persisted.disk_cases with same | ⟨opened, -, -, statements, binds, run⟩
    · exact .kept (.of_tasks (congrArg Database.tasks same))
    · obtain ⟨row, bound, rfl⟩ := Exec.of_map_eq_ok binds
      refine .saved (Or.inl command) ⟨persisted.memory.1, row, bound, ?_⟩ opened
      exact congrArg Database.tasks run
  | consume command admitted hashed taken consumer persisted =>
    refine .kept (persisted.disk_elim (.of_tasks rfl) fun statements binds => ?_)
    obtain ⟨text, -, rfl⟩ := Exec.of_map_eq_ok binds
    exact .updateTaskStatus (Or.inl rfl)
  | ack command admitted named found passes persisted =>
    refine .kept (persisted.disk_elim (.of_tasks rfl) fun statements binds => ?_)
    cases binds
    exact .updateTaskStatus (Or.inr (by simp [found]))
  | @nack message id action task qm r c command admitted named nacked passes persisted =>
    obtain ⟨origin, found, spec⟩ := QueueManager.negativeAcknowledge_some nacked
    refine .kept (persisted.disk_elim (.of_tasks rfl) fun statements binds => ?_)
    cases action with
    | deadLettered =>
      obtain ⟨row, isTask, -, rfl⟩ := nackStatements_deadLettered binds
      have isId : row.taskId = id :=
        isTask.trans (spec.taskId_eq.trans (Table.key_of_find? found))
      exact .addToDlq (by simp [isId, found])
    | requeued =>
      cases binds
      exact .updateTaskStatus (Or.inl rfl)
  | replay command opened found decodes binds alive =>
    exact .saved (Or.inr command) ⟨rfl, _, binds, rfl⟩ opened
  | purge command opened counted persisted =>
    refine .kept (persisted.disk_elim (.of_tasks rfl) fun statements binds => ?_)
    obtain ⟨name, -, rfl⟩ := Exec.of_map_eq_ok binds
    cases name <;> exact .of_tasks rfl
  | reset persisted =>
    rcases persisted.disk_cases with same | ⟨-, -, -, statements, binds, run⟩
    · exact .kept (.of_tasks (congrArg Database.tasks same))
    · cases binds
      exact .cleared rfl run
  | _ => exact .kept (.of_tasks rfl)

/-- The row of `a` is live and in the queue `q`, and the rows that are not younger have ids of
`old`. -/
structure Database.Orders (q : Key) (a : String) (since : Rat) (old : List String)
    (db : Database) : Prop where
  waits : ∃ row ∈ db.tasks, row.live = true ∧ row.taskId = a ∧ Key.str row.queueName = q ∧
    row.createdAt = since
  younger : ∀ row ∈ db.tasks, row.taskId = a ∨ row.taskId ∈ old ∨ since < row.createdAt

section Orders

variable {q : Key} {a : String} {since : Rat} {old : List String} {db db' : Database}

theorem Database.Orders.kept {exempt : String → Prop} (orders : db.Orders q a since old)
    (kept : RowsKept exempt db db') (spared : ¬exempt a) : db'.Orders q a since old where
  waits := by
    obtain ⟨row, stored, live, rfl, isQ, created⟩ := orders.waits
    obtain ⟨row', stored', live', ⟨id, name, same⟩⟩ := kept.stays row stored live spared
    exact ⟨row', stored', live', id, name ▸ isQ, same.trans created⟩
  younger row' stored := by
    obtain ⟨row, there, ⟨id, -, created⟩⟩ := kept.origin row' stored
    rw [id, created]
    exact orders.younger row there

/-- A row that is saved later is restored later. -/
theorem Database.Orders.upsert {row : TaskRow} (orders : db.Orders q a since old)
    (other : row.taskId ≠ a) (later : since < row.createdAt)
    (tasks : db'.tasks = db.tasks.upsert row) : db'.Orders q a since old where
  waits := by
    obtain ⟨waiting, stored, live, rfl, isQ, created⟩ := orders.waits
    refine ⟨waiting, ?_, live, rfl, isQ, created⟩
    rw [tasks]
    exact Table.mem_upsert.mpr (Or.inr ⟨stored, other.symm⟩)
  younger row' stored := by
    rw [tasks] at stored
    rcases Table.mem_upsert.mp stored with rfl | ⟨earlier, -⟩
    · exact Or.inr (Or.inr later)
    · exact orders.younger row' earlier

/-- A start puts `a` behind the rows that are not younger. -/
theorem Database.Orders.recovered {config : Config} (orders : db.Orders q a since old) :
    (Broker.recovered config platform env db).queueManager.Waits q a old where
  pending := by
    obtain ⟨row, stored, live, isA, isQ, created⟩ := orders.waits
    have pending : row ∈ db.loadPendingTasks := mem_loadPendingTasks.mpr ⟨stored, live⟩
    obtain ⟨ahead, behind, split⟩ := List.append_of_mem pending
    have sorted := List.pairwise_insertionSort (fun a b : TaskRow => a.createdAt ≤ b.createdAt)
      (db.tasks.rows.filter TaskRow.live)
    have apart := db.nodup_loadPendingTasks
    change db.loadPendingTasks.Pairwise _ at sorted
    rw [split] at sorted apart
    refine ⟨(ahead.filter fun row => Key.str row.queueName = q).map (TaskRow.task platform env),
      row.task platform env,
      (behind.filter fun row => Key.str row.queueName = q).map (TaskRow.task platform env),
      ?_, isA, ?_⟩
    · refine (QueueManager.deque_foldl_restoreTask _ _ q).trans ?_
      rw [split]
      simp only [List.filter_append, List.filter_cons, isQ, decide_true, if_true, List.map_append,
        List.map_cons]
      rfl
    · intro other inside
      obtain ⟨early, chosen, rfl⟩ := List.mem_map.mp inside
      have member := (List.mem_filter.mp chosen).1
      have before : early.createdAt ≤ row.createdAt :=
        (List.pairwise_append.mp sorted).2.2 early member row List.mem_cons_self
      have distinct : early.taskId ≠ row.taskId := by
        rw [List.map_append, List.map_cons, List.nodup_append] at apart
        exact apart.2.2 _ (List.mem_map_of_mem member) _ List.mem_cons_self
      have known : early ∈ db.tasks := by
        have inAll : early ∈ db.loadPendingTasks := by
          rw [split]
          exact List.mem_append_left _ member
        exact (mem_loadPendingTasks.mp inAll).1
      rcases orders.younger early known with isEarly | isOld | later
      · exact absurd (isEarly.trans isA.symm) distinct
      · exact isOld
      · exact absurd before (not_le.mpr (created ▸ later))
  inFlight task flying := by
    have none : (Broker.recovered config platform env db).queueManager.inFlight = Table.empty :=
      QueueManager.inFlight_foldl_restoreTask _ _
    rw [none] at flying
    exact absurd flying (Table.not_mem_empty task)

end Orders

/-! ## Runs -/

/-- The task that CONSUME returned. -/
def Outcome.delivered? : Outcome → Option String
  | .answered (.consumed delivery) => some delivery.taskId
  | _ => none

theorem Outcome.of_delivered? {outcome : Outcome} {t : String}
    (shown : outcome.delivered? = some t) :
    ∃ delivery, outcome = .answered (.consumed delivery) ∧ delivery.taskId = t := by
  unfold delivered? at shown
  split at shown
  · exact ⟨_, rfl, Option.some.inj shown⟩
  · cases shown

/-- The task waits in the queue: in its deque, or in a live row while there is no process. -/
def System.Queued (t : String) (q : Key) : System → Prop
  | .running broker _ => ∃ task ∈ broker.queueManager.deque q, task.taskId = t
  | .stopped disk => ∃ row ∈ disk.tasks, row.live = true ∧ row.taskId = t ∧
      Key.str row.queueName = q

/-- After the run `events`, the PRODUCE or DLQ_REPLAY `event` puts a new task into `q`. -/
def Enqueues (config : Config) (platform : Platform) (events : List Event) (event : Event)
    (q : Key) : Prop :=
  event.action.Creates ∧ (reach config platform (events ++ [event])).Queued event.id q

/-- `created_at` increases in the order in which the tasks are enqueued. -/
def Chronological (config : Config) (platform : Platform) (events : List Event) : Prop :=
  ∀ front mid rest : List Event, ∀ first second : Event, ∀ q q' : Key,
    events = front ++ first :: mid ++ second :: rest →
    Enqueues config platform front first q →
    Enqueues config platform (front ++ first :: mid) second q' →
    first.env.time < second.env.time

theorem Chronological.front {config : Config} {later : List Event}
    (chronological : Chronological config platform (events ++ later)) :
    Chronological config platform events := by
  intro front mid rest first second q q' split
  exact chronological front mid (rest ++ later) first second q q' (by simp [split])

/-- No CONSUME raises in its handler after it took its task. -/
def Uninterrupted (platform : Platform) : System → Event → Prop
  | .running broker disk, event =>
    ∀ message, event.action = .command message → commandOf message = some .consume →
      ¬Interrupted platform event.env { broker, disk, crashIn := event.crashIn } message .consume
  | .stopped _, _ => True

section Runs

variable {config : Config} {platform : Platform}

/-- Every task is in its own queue. -/
theorem Effect.homed (homed : m.broker.queueManager.Homed)
    (effect : Effect platform env m action r c) :
    c.queueManager.Homed := by
  cases effect.reorders with
  | shifted shifts => exact homed.shifts shifts
  | taken received command dequeued shown => exact homed.dequeue dequeued
  | cleared reset empty =>
    intro name task inside
    rw [empty] at inside
    cases inside

/-- No action puts a task into the queue of another. -/
theorem homed_preserved :
    Preserved config platform DrawsFresh
      (fun events c => c.Sound config platform (drawn events) ∧ c.queueManager.Homed)
      (fun events disk => disk.Sound platform (drawn events) ∧
        (config.persistent = false → disk = {})) := by
  have empty (env : Env) (disk : Database) : (startCore config env disk).queueManager.Homed := by
    intro name task inside
    cases inside
  refine .ofMemory (fun fresh => fresh) ?_ ?_ ?_
  · intro events broker disk event r c _ _ homed _ effect
    exact effect.homed homed
  · intro events disk event c _ _ _ recovery
    obtain ⟨rest, reached, homed, -, complete⟩ :=
      recovery.invariant (P := fun _ c => c.queueManager.Homed) (empty _ _)
        fun row rest payload c _ homed => (homed.append _).congr rfl
    rw [(complete rfl).2]
    exact homed
  · intro events disk event _ _
    exact empty _ _

theorem reach_homed {events : List Event} (fresh : FreshIds events) :
    (reach config platform events).Holds
      (fun c => c.Sound config platform (drawn events) ∧ c.queueManager.Homed)
      (fun disk => disk.Sound platform (drawn events) ∧
        (config.persistent = false → disk = {})) :=
  homed_preserved.holds ⟨Database.sound_empty, fun _ => rfl⟩ fresh.drawsFresh

theorem Scalar.eq_str_of_key {queue : Scalar} {name : String} (isText : queue.key = .str name) :
    queue = .str name := by
  cases queue <;> simp_all [Scalar.key]

section Created

variable {env : Env} {m : Machine} {queue : Scalar} {payload : Json} {c : Core}
  {used : List String}

/-- A new task is behind all that are known. -/
theorem Created.waits (created : Created env m queue payload c)
    (sound : m.core.Sound config platform used) :
    c.queueManager.Waits queue.key env.uuid.text used where
  pending := by
    refine ⟨m.broker.queueManager.deque queue.key, env.task queue payload, [], ?_, rfl, ?_⟩
    · rw [created]
      exact QueueManager.deque_append_self _ (env.task queue payload)
    · intro other inside
      exact sound.mem_used (Or.inl ((QueueManager.mem_pending _).mpr ⟨_, inside⟩))
  inFlight task flying _ := by
    rw [created] at flying
    have earlier : task ∈ m.broker.queueManager.inFlight := by
      have same := QueueManager.append_inFlight m.broker.queueManager (env.task queue payload)
      exact same ▸ flying
    exact sound.mem_used (Or.inr (Or.inl earlier))

/-- The new task is the only one of its id. -/
theorem Created.task_named (created : Created env m queue payload c)
    (sound : m.core.Sound config platform used) (isNew : env.uuid.text ∉ used) :
    c.queueManager.ledger.Each env.uuid.text fun name _ => name.key = queue.key := by
  rw [created, QueueManager.ledger_enqueue]
  rintro task (pending | flying | dead) isId
  · simp only [Multiset.mem_cons] at pending
    rcases pending with rfl | old
    · rfl
    · exact absurd (isId ▸ sound.mem_used (Or.inl old)) isNew
  · exact absurd (isId ▸ sound.mem_used (Or.inr (Or.inl flying))) isNew
  · exact absurd (isId ▸ sound.mem_used (Or.inr (Or.inr (Or.inr dead)))) isNew

/-- The row that was saved. -/
theorem Saved.row (saved : Saved platform env m queue payload c) :
    ∃ row, c.disk.tasks = m.disk.tasks.upsert row ∧ row.taskId = env.uuid.text ∧
      row.live = true ∧ row.createdAt = env.time ∧
      platform.requiredTextOf queue.toJson = .ok row.queueName := by
  obtain ⟨row, binds, tasks⟩ := saved.stored
  obtain ⟨isId, -, status, -, created, named⟩ := Platform.taskRow_ok binds
  exact ⟨row, tasks, isId, by rw [TaskRow.live, status]; rfl, created, named⟩

/-- A text is stored as it is. -/
theorem Saved.row_named (saved : Saved platform env m queue payload c) {name : String}
    (isText : queue.key = .str name) :
    c.disk.Each env.uuid.text fun text _ => Key.str text = queue.key := by
  obtain ⟨row, tasks, isId, -, -, named⟩ := saved.row
  intro other stored isOther
  rw [tasks] at stored
  rcases Table.mem_upsert.mp stored with rfl | ⟨-, differs⟩
  · cases Scalar.eq_str_of_key isText
    obtain ⟨-, same⟩ := Platform.eq_of_requiredTextOf_str named
    exact congrArg Key.str same
  · exact absurd (isOther.trans isId.symm) differs

theorem Saved.orders (saved : Saved platform env m queue payload c)
    (sound : m.core.Sound config platform used)
    (named : c.disk.Each env.uuid.text fun text _ => Key.str text = q) :
    c.disk.Orders q env.uuid.text env.time used := by
  obtain ⟨row, tasks, isId, live, created, -⟩ := saved.row
  have present : row ∈ c.disk.tasks := by
    rw [tasks]
    exact Table.mem_upsert.mpr (Or.inl rfl)
  refine ⟨⟨row, present, live, isId, named row present isId, created⟩, fun other stored => ?_⟩
  rw [tasks] at stored
  rcases Table.mem_upsert.mp stored with rfl | ⟨earlier, -⟩
  · exact Or.inl isId
  · exact Or.inr (Or.inl (sound.disk.tasks other earlier).1)

end Created

theorem Action.Creates.not_other {message : Message} {command : Command}
    (creates : (Action.command message).Creates) (named : commandOf message = some command) :
    command = .produce ∨ command = .dlqReplay := by
  rcases creates with isProduce | isReplay
  · exact Or.inl (Option.some.inj (named.symm.trans isProduce))
  · exact Or.inr (Option.some.inj (named.symm.trans isReplay))

/-- The only place where a new id can be is the queue it was enqueued to. -/
theorem Core.Sound.key_of_enqueued {queue : Scalar} {payload : Json} {used : List String}
    (sound : c.Sound config platform used) (isNew : env.uuid.text ∉ used)
    (isId : task.taskId = env.uuid.text)
    (inside : task ∈ (c.queueManager.enqueue env.uuid.text env.time queue payload).deque q) :
    queue.key = q := by
  change task ∈ (c.queueManager.append (env.task queue payload)).deque q at inside
  rw [QueueManager.deque_append] at inside
  split_ifs at inside with own
  · exact own.symm
  · have known := sound.mem_used (Or.inl ((QueueManager.mem_pending _).mpr ⟨q, inside⟩))
    exact absurd (isId ▸ known) isNew

/-- The action is a PRODUCE of a task that cannot be saved: SQLite does not bind the name of
the queue, or the store cannot write the payload. -/
def Action.Unsavable (platform : Platform) (queue : Scalar) (action : Action) : Prop :=
  ∃ message, action = .command message ∧ commandOf message = some .produce ∧
    (message.get "queue" .null).scalar? = some queue ∧
    ((∃ e, platform.requiredTextOf (message.get "queue" .null) = .error e) ∨
      ¬platform.Writes (message.get "task" .null))

/-- A task with a new id comes from a PRODUCE or DLQ_REPLAY.  Nothing but a crash keeps it
from saving its row, if it can be saved. -/
theorem Effect.created_of_pending {used : List String} (effect : Effect platform env m action r c)
    (creates : action.Creates) (sound : m.core.Sound config platform used)
    (isNew : env.uuid.text ∉ used) (survived : r ≠ .error .crashed)
    (inside : task ∈ c.queueManager.deque q) (isId : task.taskId = env.uuid.text) :
    ∃ queue payload, queue.key = q ∧ Created env m queue payload c ∧
      (m.broker.walStore.isSome = true → Saved platform env m queue payload c ∨
        c.disk = m.disk ∧ action.Unsavable platform queue) := by
  have noTask (same : c.queueManager = m.broker.queueManager) : False := by
    rw [same] at inside
    have known := sound.mem_used (Or.inl ((QueueManager.mem_pending _).mpr ⟨q, inside⟩))
    exact isNew (isId ▸ known)
  cases effect with
  | quiet idle silent => exact (noTask rfl).elim
  | @produce message queue r c command admitted named hashed persisted =>
    have isQ : queue.key = q := by
      rw [persisted.memory.1] at inside
      exact sound.key_of_enqueued isNew isId inside
    refine ⟨queue, _, isQ, persisted.memory.1, fun opened => ?_⟩
    cases persisted with
    | off absent =>
      rw [show m.broker.walStore = none from absent] at opened
      cases opened
    | died present binds spent => exact absurd rfl survived
    | refused present fails =>
      have unbound := (taskRow_error_iff hashed).mp (map_error_iff.mp ⟨_, fails⟩)
      exact Or.inr ⟨rfl, message, rfl, command, hashed, unbound⟩
    | committed present binds alive =>
      obtain ⟨row, bound, rfl⟩ := Exec.of_map_eq_ok binds
      exact Or.inl ⟨rfl, row, bound, rfl⟩
  | replayDied command opened found spent => exact absurd rfl survived
  | replayDropped command opened found fails => exact (noTask rfl).elim
  | replayCut command opened found decodes unsaved =>
    exact absurd (sound.disk.died_of_unsaved found decodes unsaved).1 survived
  | replay command opened found decodes binds alive =>
    exact ⟨_, _, sound.key_of_enqueued isNew isId inside, rfl,
      fun _ => Or.inl ⟨rfl, _, binds, rfl⟩⟩
  | @retry message id dead command closed named found =>
    -- a retried task keeps its id
    have returns := (QueueManager.retry_retries m.broker.queueManager id).returns
    have pending := (returns.mem_pending task).mp ((QueueManager.mem_pending _).mpr ⟨q, inside⟩)
    rcases pending with old | ⟨origin, old, -, rfl⟩
    · exact absurd (isId ▸ sound.mem_used (Or.inl old)) isNew
    · have known := sound.mem_used (Or.inr (Or.inr (Or.inr old)))
      have same : origin.taskId = env.uuid.text := isId
      exact absurd (same ▸ known) isNew
  | _ =>
    first
      | exact creates.elim
      | rcases creates.not_other ‹commandOf _ = some _› with other | other <;> cases other

/-- The same for a row with a new id. -/
theorem Effect.saved_of_row {row : TaskRow} {used : List String}
    (effect : Effect platform env m action r c) (sound : m.core.Sound config platform used)
    (isNew : env.uuid.text ∉ used) (stored : row ∈ c.disk.tasks)
    (isId : row.taskId = env.uuid.text) :
    m.broker.walStore.isSome = true ∧ ∃ queue payload, Saved platform env m queue payload c := by
  cases effect.rowsMoved with
  | saved creates saved opened => exact ⟨opened, _, _, saved⟩
  | kept kept =>
    obtain ⟨old, known, same⟩ := kept.origin row stored
    have drawn := (sound.disk.tasks old known).1
    rw [← same.taskId, isId] at drawn
    exact absurd drawn isNew
  | cleared reset empty =>
    rw [empty] at stored
    exact absurd stored (Table.not_mem_empty row)

/-- The task `a` of the queue `q` was never delivered: it waits behind older tasks. -/
structure Undelivered (config : Config) (q : Key) (a : String) (since : Rat) (old : List String)
    (c : Core) : Prop where
  waits : c.queueManager.Waits q a old
  orders : config.persistent = true → c.disk.Orders q a since old

/-- The task `a` is in the queue `q` wherever it is. -/
structure Named (q : Key) (a : String) (c : Core) : Prop where
  memory : c.queueManager.ledger.Each a fun name _ => name.key = q
  rows : c.disk.Each a fun text _ => Key.str text = q

/-- The queue can be found again after a restart: its name is a text that SQLite binds. -/
def Restorable (platform : Platform) (q : Key) : Prop :=
  ∃ name, q = .str name ∧ platform.Binds name

/-- If the event is a PRODUCE, the store can write its payload. -/
def Event.Storable (platform : Platform) (event : Event) : Prop :=
  ∀ message, event.action = .command message → commandOf message = some .produce →
    platform.Writes (message.get "task" .null)

theorem Event.Storable.not_unsavable {queue : Scalar} (storable : event.Storable platform)
    (restorable : Restorable platform queue.key) :
    ¬event.action.Unsavable platform queue := by
  rintro ⟨message, received, command, hashed, ⟨e, unbound⟩ | unwritten⟩
  · obtain ⟨name, isText, binds⟩ := restorable
    cases Scalar.eq_str_of_key isText
    rw [Json.eq_str_of_scalar? hashed, binds.requiredTextOf] at unbound
    cases unbound
  · exact unwritten (storable message received command)

/-- What is known of a new task.  In memory it waits behind all others of its queue; in the
table it does so if it could be saved. -/
structure Enqueued (config : Config) (platform : Platform) (event : Event) (q : Key)
    (old : List String) (c : Core) : Prop where
  waits : c.queueManager.Waits q event.id old
  orders : config.persistent = true → event.Storable platform →
    c.disk.Orders q event.id event.env.time old
  named : Named q event.id c

/-- A new task waits behind all others of its queue, in memory and in the table. -/
theorem Enqueues.holds (fresh : FreshIds (events ++ [event]))
    (restorable : config.persistent = true → Restorable platform q)
    (enqueues : Enqueues config platform events event q) :
    (reach config platform (events ++ [event])).Holds
      (Enqueued config platform event q (drawn events))
      (fun disk => config.persistent = true ∧
        disk.Orders q event.id event.env.time (drawn events) ∧
        disk.Each event.id fun text _ => Key.str text = q) := by
  obtain ⟨creates, queued⟩ := enqueues
  have drawsFresh := @FreshIds.drawsFresh config platform _ fresh
  have isNew : event.env.uuid.text ∉ drawn events := drawsFresh.last
  have before := (sound_preserved config platform).holds
    ⟨Database.sound_empty, fun _ => rfl⟩ drawsFresh.front
  rw [reach_concat] at queued ⊢
  have transition := step_transition config platform (reach config platform events) event
  generalize reach config platform events = system at *
  generalize (step config platform system event).1 = outcome at transition
  generalize (step config platform system event).2 = next at transition queued ⊢
  cases transition with
  | @ran broker broker' disk disk' r effect whole survived =>
    obtain ⟨task, inside, isId⟩ := queued
    obtain ⟨queue, payload, rfl, created, saved⟩ :=
      effect.created_of_pending creates before isNew survived inside isId
    -- a row that could not be saved has no wrong name
    have named : disk'.Each event.id fun text _ => Key.str text = queue.key := by
      cases persistent : config.persistent with
      | true =>
        obtain ⟨name, isText, -⟩ := restorable persistent
        rcases saved (Core.Sound.opened before persistent) with saved | ⟨same, -⟩
        · exact saved.row_named isText
        · intro row stored isId
          rw [show disk' = disk from same] at stored
          have known := (before.disk.tasks row stored).1
          rw [isId] at known
          exact absurd known isNew
      | false =>
        have after := Core.Sound.effect (m := { broker, disk, crashIn := event.crashIn }) before
          isNew effect
        intro row stored
        rw [show disk' = {} from after.volatile persistent] at stored
        exact absurd stored (Table.not_mem_empty row)
    refine ⟨created.waits before, fun persistent storable => ?_,
      created.task_named before isNew, named⟩
    have saved := (saved (Core.Sound.opened before persistent)).resolve_right
      fun failed => storable.not_unsavable (restorable persistent) failed.2
    exact saved.orders before named
  | @died broker disk r c effect cut =>
    obtain ⟨row, stored, live, isId, isQ⟩ := queued
    obtain ⟨opened, queue, payload, saved⟩ := effect.saved_of_row before isNew stored isId
    have named : c.disk.Each event.id fun text _ => Key.str text = q := by
      intro other known isOther
      rw [c.disk.tasks.eq_of_key_eq known stored (isOther.trans isId.symm)]
      exact isQ
    exact ⟨before.store.symm.trans opened, saved.orders before named, named⟩
  | ignored other =>
    obtain ⟨row, stored, live, isId, isQ⟩ := queued
    have known := (before.1.tasks row stored).1
    rw [isId] at known
    exact absurd known isNew
  | started starts whole recovery fresh =>
    rw [starts] at creates
    exact creates.elim
  | failed starts recovery fresh why =>
    rw [starts] at creates
    exact creates.elim

/-- A waiting task is not in flight. -/
theorem QueueManager.Waits.not_inFlight {qm : QueueManager} (waits : qm.Waits q a old)
    (distinct : qm.Distinct) :
    qm.inFlight.find? a = none := by
  obtain ⟨ahead, task, behind, tasks, rfl, -⟩ := waits.pending
  refine Table.find?_eq_none.mpr fun flying inside same => ?_
  have pending : task ∈ qm.pending := (mem_pending qm).mpr ⟨q, by simp [tasks]⟩
  exact distinct.apart.pending_inFlight task pending flying inside same.symm

/-- A reset leaves no task in the queues. -/
theorem Effect.deque_of_reset (effect : Effect platform env m .reset r c) (name : Key) :
    c.queueManager.deque name = [] := by
  cases effect with
  | reset persisted =>
    rw [persisted.memory.1]
    rfl

/-- The rows stay in order, unless a reset deletes them. -/
theorem Effect.orders {since : Rat} (effect : Effect platform env m action r c)
    (distinct : m.broker.queueManager.Distinct) (waits : m.broker.queueManager.Waits q a old)
    (orders : m.disk.Orders q a since old) (other : env.uuid.text ≠ a)
    (later : ∀ queue payload, action.Creates → Saved platform env m queue payload c →
      since < env.time) :
    c.disk.Orders q a since old ∨ action = .reset ∧ c.disk = {} := by
  cases effect.rowsMoved with
  | @saved queue payload creates saved opened =>
    obtain ⟨row, tasks, isId, -, time, -⟩ := saved.row
    refine Or.inl (orders.upsert (isId ▸ other) ?_ tasks)
    rw [time]
    exact later queue payload creates saved
  | kept kept =>
    exact Or.inl (orders.kept kept (not_not.mpr (waits.not_inFlight distinct)))
  | cleared reset empty => exact Or.inr ⟨reset, empty⟩

/-- **One step.**  A task that was never delivered goes on waiting behind older tasks, unless the
step delivers it or resets the broker. -/
theorem Undelivered.step {since : Rat} (known : (reach config platform events).Holds
      (fun c => c.Sound config platform (drawn events) ∧ c.queueManager.Homed)
      (fun disk => disk.Sound platform (drawn events) ∧ (config.persistent = false → disk = {})))
    (waiting : (reach config platform events).Holds (Undelivered config q a since old)
      (fun disk => config.persistent = true ∧ disk.Orders q a since old)) (other : event.id ≠ a)
    (whole : config.persistent = false → event.crashIn = none ∧ event.action ≠ .crash)
    (uninterrupted : Uninterrupted platform (reach config platform events) event)
    (later : config.persistent = true → ∀ q', Enqueues config platform events event q' →
      since < event.env.time) (undelivered :
      (DistroSync.step config platform (reach config platform events) event).1.delivered? ≠ some a)
    (unremoved : event.action = .reset → (reach config platform (events ++ [event])).Queued a q) :
    (reach config platform (events ++ [event])).Holds (Undelivered config q a since old)
      (fun disk => config.persistent = true ∧ disk.Orders q a since old) := by
  unfold Enqueues at later
  rw [reach_concat] at later unremoved ⊢
  have transition := step_transition config platform (reach config platform events) event
  generalize reach config platform events = system at *
  cases system with
  | running broker disk =>
    generalize (DistroSync.step config platform (.running broker disk) event).1 = outcome
      at transition undelivered
    generalize (DistroSync.step config platform (.running broker disk) event).2 = next
      at transition later unremoved ⊢
    obtain ⟨sound, homed⟩ := known
    obtain ⟨waits, orders⟩ := waiting
    -- the event leaves the process up, or ends it
    cases transition with
    | @ran broker broker' disk disk' r effect alive survived =>
      have goesOn : event.action ≠ .reset := by
        intro reset
        obtain ⟨task, inside, -⟩ := unremoved reset
        rw [reset] at effect
        have none : broker'.queueManager.deque q = [] := effect.deque_of_reset q
        rw [none] at inside
        cases inside
      constructor
      · cases effect.reorders with
        | shifted shifts => exact waits.shifts shifts
        | @taken message queue task received command dequeued shown =>
          rcases waits.dequeue homed dequeued with isA | waits
          · rcases shown with rfl | dead | raised
            · exact absurd (congrArg some isA) undelivered
            · exact absurd dead survived
            · exact absurd raised (uninterrupted message received command)
          · exact waits
        | cleared reset empty => exact absurd reset goesOn
      · intro persistent
        refine (effect.orders sound.distinct waits (orders persistent) other ?_).resolve_right
          fun both => goesOn both.1
        intro queue payload creates saved
        refine later persistent queue.key ⟨creates, event.env.task queue payload, ?_, rfl⟩
        have memory : broker'.queueManager = _ := saved.created
        rw [memory]
        have last := QueueManager.deque_append_self broker.queueManager
          (event.env.task queue payload)
        exact last ▸ List.mem_append_right _ List.mem_cons_self
    | @died broker disk r c effect cut =>
      have persistent : config.persistent = true := by
        by_contra volatile
        obtain ⟨alive, lives⟩ := whole (Bool.eq_false_iff.mpr volatile)
        rcases cut with dies | dead
        · exact dies alive
        · exact effect.survives alive lives dead
      refine ⟨persistent, ?_⟩
      refine (effect.orders sound.distinct waits (orders persistent) other ?_).resolve_right ?_
      · intro queue payload creates saved
        obtain ⟨row, tasks, isId, live, -, named⟩ := saved.row
        refine later persistent (.str row.queueName) ⟨creates, row, ?_, live, isId, rfl⟩
        rw [tasks]
        exact Table.mem_upsert.mpr (Or.inl rfl)
      · rintro ⟨reset, empty⟩
        obtain ⟨row, stored, -⟩ := unremoved reset
        rw [empty] at stored
        exact Table.not_mem_empty row stored
  | stopped disk =>
    obtain ⟨persistent, orders⟩ := waiting
    -- a start restores the rows in the order of their times
    have written : disk.Written platform := fun row stored => (known.1.tasks row stored).2.2
    have restored (rows : List TaskRow) :
        (rows.foldl (Database.restoreRow event.env.time) disk).Orders q a since old := by
      have kept : RowsKept (fun _ => False) disk _ := .restored event.env.time rows disk
      exact orders.kept kept not_false
    by_cases starts : event.action = .start
    · cases cut : event.crashIn with
      | none =>
        rw [step_start_whole persistent written starts cut]
        exact ⟨orders.recovered, fun _ => restored _⟩
      | some k =>
        rw [step_start_cut persistent written starts cut]
        exact ⟨persistent, restored _⟩
    · generalize (DistroSync.step config platform (.stopped disk) event).1 = outcome at transition
      generalize (DistroSync.step config platform (.stopped disk) event).2 = next at transition ⊢
      cases transition with
      | ignored other => exact ⟨persistent, orders⟩
      | started isStart whole recovery fresh => exact absurd isStart starts
      | failed isStart recovery fresh why => exact absurd isStart starts

theorem System.Holds.and {I I' : Core → Prop} {D D' : Database → Prop} (left : system.Holds I D)
    (right : system.Holds I' D') :
    system.Holds (fun c => I c ∧ I' c) (fun disk => D disk ∧ D' disk) := by
  cases system with
  | running broker disk => exact ⟨left, right⟩
  | stopped disk => exact ⟨left, right⟩

theorem System.Holds.imp {I I' : Core → Prop} {D D' : Database → Prop} (holds : system.Holds I D)
    (running : ∀ c, I c → I' c) (stopped : ∀ disk, D disk → D' disk) :
    system.Holds I' D' := by
  cases system with
  | running broker disk => exact running _ holds
  | stopped disk => exact stopped _ holds

/-- What is waiting is in the queue, or will be after the start. -/
theorem Undelivered.queued {since : Rat} (waiting : system.Holds (Undelivered config q a since old)
      (fun disk => config.persistent = true ∧ disk.Orders q a since old)) :
    system.Queued a q := by
  cases system with
  | running broker disk =>
    obtain ⟨ahead, task, behind, tasks, isA, -⟩ := waiting.waits.pending
    have tasks : broker.queueManager.deque q = ahead ++ task :: behind := tasks
    exact ⟨task, by simp [tasks], isA⟩
  | stopped disk =>
    obtain ⟨row, stored, live, isA, isQ, -⟩ := waiting.2.waits
    exact ⟨row, stored, live, isA, isQ⟩

/-- After the run `events`, the reset `event` removes the task from the queue. -/
def ResetRemoves (config : Config) (platform : Platform) (events : List Event) (event : Event)
    (t : String) (q : Key) : Prop :=
  event.action = .reset ∧ (reach config platform events).Queued t q ∧
    ¬(reach config platform (events ++ [event])).Queued t q

/-- **Whole runs.**  From the moment it is enqueued, a task waits behind older tasks until it is
delivered or a reset removes it. -/
theorem undelivered_of_enqueued {front back : List Event} {a : Event}
    (fresh : FreshIds (front ++ a :: back)) (whole : config.persistent = false →
      ∀ event ∈ front ++ a :: back, event.crashIn = none ∧ event.action ≠ .crash)
    (chronological : config.persistent = true → Chronological config platform (front ++ a :: back))
    (restorable : config.persistent = true → Restorable platform q)
    (storable : config.persistent = true → a.Storable platform)
    (uninterrupted : Trace.EachStep (step config platform) System.initial
      (fun _ system event => Uninterrupted platform system event) (front ++ a :: back))
    (enqueued : Enqueues config platform front a q)
    (spared : ∀ early event late, back = early ++ event :: late →
      (step config platform (reach config platform (front ++ a :: early)) event).1.delivered? ≠
          some a.id ∧
        ¬ResetRemoves config platform (front ++ a :: early) event a.id q) :
    (reach config platform (front ++ a :: back)).Holds
      (Undelivered config q a.id a.env.time (drawn front))
      (fun disk => config.persistent = true ∧ disk.Orders q a.id a.env.time (drawn front)) := by
  induction back using List.reverseRecOn with
  | nil =>
    refine (enqueued.holds fresh restorable).imp (fun c task => ?_) fun _ all => ⟨all.1, all.2.1⟩
    exact ⟨task.waits, fun persistent => task.orders persistent (storable persistent)⟩
  | append_singleton back event ih =>
    rw [← List.cons_append, ← List.append_assoc] at fresh whole chronological uninterrupted ⊢
    have shorter : FreshIds (front ++ a :: back) := fresh.sublist
      ((List.sublist_append_left _ _).map Event.id)
    have isNew : event.id ∉ drawn (front ++ a :: back) :=
      (@FreshIds.drawsFresh config platform _ fresh).last
    have waiting := ih shorter
      (fun volatile event inside => whole volatile event (List.mem_append_left _ inside))
      (fun persistent => (chronological persistent).front) uninterrupted.front
      (fun early event' late split => spared early event' (late ++ [event]) (by simp [split]))
    obtain ⟨undelivered, unremoved⟩ := spared back event [] rfl
    refine Undelivered.step (reach_homed shorter) waiting (fun same => isNew ?_)
      (fun volatile => whole volatile event (by simp)) uninterrupted.last
      (fun persistent q' enqueues => ?_) undelivered fun reset => ?_
    · rw [same]
      simp [drawn]
    · exact chronological persistent front back [] a event q q' (by simp) enqueued enqueues
    · by_contra removed
      exact unremoved ⟨reset, Undelivered.queued waiting, removed⟩

/-- A task stays in the queue that it was enqueued to. -/
theorem named_of_enqueued {front back : List Event} {b : Event}
    (fresh : FreshIds (front ++ b :: back))
    (restorable : config.persistent = true → Restorable platform q)
    (enqueued : Enqueues config platform front b q) :
    (reach config platform (front ++ b :: back)).Holds (Named q b.id)
      (fun disk => disk.Each b.id fun text _ => Key.str text = q) := by
  have restores : Restores platform (fun text _ => Key.str text = q)
      (fun name _ => name.key = q) := fun _ _ _ isQ _ => isQ
  rw [List.append_cons] at fresh ⊢
  have shorter : FreshIds (front ++ [b]) := fresh.sublist
    ((List.sublist_append_left _ _).map Event.id)
  have known : b.id ∈ drawn (front ++ [b]) := by simp [drawn]
  have start := (reach_sound shorter).and (enqueued.holds shorter restorable)
  have kept := (each_preserved restores b.id).holds_from
    (start.imp (fun c all => ⟨all.1, all.2.named.memory, all.2.named.rows, known⟩)
      fun disk all => ⟨all.1, all.2.2.2, known⟩) fresh.drawsFresh_after
  exact kept.imp (fun c all => ⟨all.2.1, all.2.2.1⟩) fun disk all => all.2.1

/-- The head of the queue of a waiting task is that task, or older. -/
theorem QueueManager.Waits.head {qm : QueueManager} {head : Task} {rest : List Task}
    (waits : qm.Waits q a old) (tasks : qm.deque q = head :: rest) :
    head.taskId = a ∨ head.taskId ∈ old := by
  obtain ⟨ahead, task, behind, split, isA, older⟩ := waits.pending
  rw [tasks] at split
  cases ahead with
  | nil =>
    obtain ⟨rfl, -⟩ := List.cons.inj split
    exact Or.inl isA
  | cons first ahead =>
    obtain ⟨rfl, -⟩ := List.cons.inj split
    exact Or.inr (older head List.mem_cons_self)

/-- **What the handlers return is in the order of the queue.**  A task that CONSUME returns was
enqueued after `a` only if `a` was returned before, or a reset removed it. -/
theorem returned_in_order {front mid rest : List Event} {a b c : Event}
    (fresh : FreshIds (front ++ a :: mid ++ b :: rest)) (whole : config.persistent = false →
      ∀ event ∈ front ++ a :: mid ++ b :: rest, event.crashIn = none ∧ event.action ≠ .crash)
    (chronological : config.persistent = true →
      Chronological config platform (front ++ a :: mid ++ b :: rest))
    (restorable : config.persistent = true → Restorable platform q)
    (storable : config.persistent = true → a.Storable platform)
    (uninterrupted : Trace.EachStep (step config platform) System.initial
      (fun _ system event => Uninterrupted platform system event) (front ++ a :: mid ++ b :: rest))
    (first : Enqueues config platform front a q)
    (second : Enqueues config platform (front ++ a :: mid) b q) (delivered : (step config platform
      (reach config platform (front ++ a :: mid ++ b :: rest)) c).1.delivered? = some b.id) :
    ∃ early event late, mid ++ b :: rest = early ++ event :: late ∧
      ((step config platform (reach config platform (front ++ a :: early)) event).1.delivered? =
          some a.id ∨
        ResetRemoves config platform (front ++ a :: early) event a.id q) := by
  by_contra spared
  have regroup : front ++ a :: mid ++ b :: rest = front ++ a :: (mid ++ b :: rest) := by simp
  have waiting := undelivered_of_enqueued (regroup ▸ fresh) (regroup ▸ whole)
    (regroup ▸ chronological) restorable storable (regroup ▸ uninterrupted) first
    fun early event late split => ⟨fun shown => spared ⟨early, event, late, split, Or.inl shown⟩,
      fun removes => spared ⟨early, event, late, split, Or.inr removes⟩⟩
  rw [← regroup] at waiting
  have named := named_of_enqueued fresh restorable second
  have homed := @reach_homed config platform _ fresh
  have isNew : b.id ∉ drawn (front ++ a :: mid) :=
    @FreshIds.drawsFresh config platform _ fresh (front ++ a :: mid) b rest rfl
  -- the task that `c` delivers is the head of its queue, which is the one where `a` waits
  obtain ⟨delivery, answered, isB⟩ := Outcome.of_delivered? delivered
  obtain ⟨broker, disk, broker', disk', position, -, -, effect⟩ := step_answered answered
  rw [position] at waiting named homed
  obtain ⟨message, received⟩ := effect.command_of_answered
  rw [received] at effect
  obtain ⟨queue, worker, task, -, dequeued, -, -, isTask, -⟩ := effect.of_consumed
  obtain ⟨name, head, later, tasks, rfl, -⟩ := QueueManager.dequeue_some_deques dequeued
  have isHead : head.taskId = b.id := isTask.symm.trans isB
  have inside : head ∈ broker.queueManager.deque name := by
    have tasks : broker.queueManager.deque name = head :: later := tasks
    simp [tasks]
  have isQ : head.queueName.key = q := named.memory head
    (Or.inl ((QueueManager.mem_pending _).mpr ⟨name, inside⟩)) isHead
  have isName : name = q := (homed.2 name head inside).symm.trans isQ
  subst isName
  rcases waiting.waits.head tasks with isA | isOld
  · exact isNew (by simp [drawn, ← isHead, isA])
  · exact isNew (by
      rw [← isHead]
      simp only [drawn, List.map_append, List.mem_append]
      exact Or.inl isOld)

/-! ## Deliveries on the wire -/

/-- The task that CONSUME returned, if `_send_response` could write the response. -/
def Outcome.handed? (wire : Wire) : Outcome → Option String
  | .answered (.consumed delivery) =>
    if wire.Sendable ((Response.consumed delivery).toJson wire) then some delivery.taskId
    else none
  | _ => none

/-- The message of a command. -/
def Action.message? : Action → Option Message
  | .command message => some message
  | _ => none

/-- If the event is a CONSUME and there is a task for it, `_send_response` can write the response
that hands it out. -/
def Deliverable (wire : Wire) : System → Event → Prop
  | .running broker _, event =>
    ∀ message ∈ event.action.message?, commandOf message = some .consume →
      ∀ queue ∈ (message.get "queue" .null).scalar?,
        ∀ task ∈ (broker.queueManager.dequeue queue (message.get "worker_id" .null)).1,
          wire.Sendable (task.handOut.toJson wire)
  | .stopped _, _ => True

/-- What CONSUME returns is the task that it took. -/
theorem Effect.handOut_of_consumed {message : Message} {delivery : Delivery}
    (effect : Effect platform env m (.command message) (.ok (.answered (.consumed delivery))) c) :
    ∃ queue task, commandOf message = some .consume ∧
      (message.get "queue" .null).scalar? = some queue ∧
      m.broker.queueManager.dequeue queue (message.get "worker_id" .null) =
        (some task, c.queueManager) ∧ task.handOut = .consumed delivery := by
  cases effect with
  | quiet idle silent => exact silent.elim
  | consume command admitted hashed taken consumer persisted =>
    have memory := persisted.memory.1
    have same := persisted.of_ok.1
    cases same
    exact ⟨_, _, command, hashed, memory ▸ taken, rfl⟩
  | replayCut command opened found decodes unsaved => cases unsaved
  | _ => rename_i persisted; cases persisted.of_ok.1

theorem Outcome.delivered?_of_handed? {wire : Wire} {outcome : Outcome} {t : String}
    (handed : outcome.handed? wire = some t) : outcome.delivered? = some t := by
  unfold handed? at handed
  split at handed
  · split_ifs at handed
    exact handed
  · cases handed

/-- Where the response can be written, what is returned is handed out. -/
theorem handed?_of_delivered? {wire : Wire} {t : String}
    (deliverable : Deliverable wire system event)
    (delivered : (step config wire.platform system event).1.delivered? = some t) :
    (step config wire.platform system event).1.handed? wire = some t := by
  obtain ⟨delivery, answered, isTask⟩ := Outcome.of_delivered? delivered
  obtain ⟨broker, disk, broker', disk', position, -, -, effect⟩ := step_answered answered
  obtain ⟨message, received⟩ := effect.command_of_answered
  rw [received] at effect
  rw [position] at deliverable
  obtain ⟨queue, task, command, hashed, taken, isDelivery⟩ := effect.handOut_of_consumed
  have sendable : wire.Sendable (task.handOut.toJson wire) :=
    deliverable message (by rw [received]; rfl) command queue hashed task (by rw [taken]; rfl)
  rw [isDelivery] at sendable
  rw [answered]
  exact (if_pos sendable).trans (congrArg some isTask)

/-- **First deliveries are in the order of the queue.**  In every run in which a persistent broker
enqueues in the order of `created_at`, a volatile one does not die, and no CONSUME raises after
it took its task, neither in its handler nor in `_send_response`: if a task `a` and later a task
`b` are enqueued to the same queue, and `b` is handed out, then `a` was handed out before, or a
reset removed it.  Where there is a store, it has to be able to save `a`: the name of the queue
is a text that SQLite binds, and `json.dumps` can write the payload. -/
theorem first_deliveries_in_order {wire : Wire} {front mid rest : List Event} {a b c : Event}
    {q : Key} (fresh : FreshIds (front ++ a :: mid ++ b :: rest))
    (whole : config.persistent = false →
      ∀ event ∈ front ++ a :: mid ++ b :: rest, event.crashIn = none ∧ event.action ≠ .crash)
    (chronological : config.persistent = true →
      Chronological config wire.platform (front ++ a :: mid ++ b :: rest))
    (restorable : config.persistent = true → Restorable wire.platform q)
    (storable : config.persistent = true → a.Storable wire.platform)
    (handsOver : Trace.EachStep (step config wire.platform) System.initial
      (fun _ system event => Uninterrupted wire.platform system event ∧
        Deliverable wire system event) (front ++ a :: mid ++ b :: rest))
    (first : Enqueues config wire.platform front a q)
    (second : Enqueues config wire.platform (front ++ a :: mid) b q)
    (handed : (step config wire.platform
      (reach config wire.platform (front ++ a :: mid ++ b :: rest)) c).1.handed? wire =
        some b.id) :
    ∃ early event late, mid ++ b :: rest = early ++ event :: late ∧
      ((step config wire.platform
          (reach config wire.platform (front ++ a :: early)) event).1.handed? wire = some a.id ∨
        ResetRemoves config wire.platform (front ++ a :: early) event a.id q) := by
  obtain ⟨early, event, late, split, shown⟩ := returned_in_order fresh whole chronological
    restorable storable (handsOver.mono fun _ _ _ both => both.1) first second
    (Outcome.delivered?_of_handed? handed)
  refine ⟨early, event, late, split, shown.imp_left fun delivered => ?_⟩
  have regroup : front ++ a :: mid ++ b :: rest = front ++ a :: early ++ event :: late := by
    rw [List.append_assoc, List.cons_append, split, List.append_assoc, List.cons_append]
  exact handed?_of_delivered? (handsOver _ event late regroup).2 delivered

/-- A clock that only goes forward is more than is needed. -/
theorem Chronological.of_increasing
    (increasing : (events.map fun event => event.env.time).Pairwise (· < ·)) :
    Chronological config platform events := by
  rintro front mid rest first second q q' rfl - -
  rw [List.map_append, List.map_append] at increasing
  exact (List.pairwise_append.mp increasing).2.2 _ (by simp) _ (by simp)

/-- A worker that is named by a text which SQLite binds does not interrupt its CONSUME. -/
theorem Uninterrupted.of_named
    (named : ∀ message, event.action = .command message → commandOf message = some .consume →
      ∃ worker, message.get "worker_id" .null = .str worker ∧ platform.Binds worker)
    (system : System) :
    Uninterrupted platform system event := by
  cases system with
  | stopped disk => trivial
  | running broker disk =>
    intro message received command
    obtain ⟨worker, isWorker, binds⟩ := named message received command
    exact not_interrupted_of_named isWorker fun _ => binds

end Runs

instance (t : String) (q : Key) (system : System) : Decidable (system.Queued t q) :=
  match system with
  | .running broker _ =>
    inferInstanceAs (Decidable (∃ task ∈ broker.queueManager.deque q, task.taskId = t))
  | .stopped disk =>
    inferInstanceAs (Decidable (∃ row ∈ disk.tasks.rows, row.live = true ∧ row.taskId = t ∧
      Key.str row.queueName = q))

/-- A PRODUCE to the queue named by the number one. -/
def Action.produceToOne : Action := .send "PRODUCE" [("queue", .int 1), ("task", .str "p")]

/-- A task is produced to the queue `1`, the broker restarts, and another one is produced to the
queue `1`. -/
def numberedRun : List Event :=
  [.at 0 .start] ++ .at 1 .produceToOne :: [.at 2 .crash, .at 3 .start] ++
    .at 4 .produceToOne :: []

/-- **A queue that is named by a number.**  The row of the first task has the text `'1'` for a
queue, and recovery puts it into the queue of that name; the second one is alone in the queue
`1` and is delivered, while the first one never was. -/
theorem numbered_queue_overtakes :
    FreshIds numberedRun ∧ Chronological { persistent := true } .plain numberedRun ∧
      Enqueues { persistent := true } .plain [.at 0 .start] (.at 1 .produceToOne) (.num 1) ∧
      Enqueues { persistent := true } .plain
        ([.at 0 .start] ++ .at 1 .produceToOne :: [.at 2 .crash, .at 3 .start])
        (.at 4 .produceToOne) (.num 1) ∧
      (step { persistent := true } .plain (reach { persistent := true } .plain numberedRun)
        (.at 5 (.send "CONSUME" [("queue", .int 1), ("worker_id", .str "w")]))).1.delivered? =
          some (idAt 4) ∧
      (∀ entry ∈ history { persistent := true } .plain numberedRun,
        entry.2.delivered? ≠ some (idAt 1)) ∧
      ∀ event ∈ numberedRun, event.action ≠ .reset := by
  refine ⟨by decide +kernel, .of_increasing (by decide +kernel),
    ⟨Or.inl (by decide +kernel), by decide +kernel⟩,
    ⟨Or.inl (by decide +kernel), by decide +kernel⟩, by decide +kernel, by decide +kernel, ?_⟩
  simp [numberedRun, Event.at, Action.produceToOne, Action.send]

/-- Two tasks are enqueued and the broker restarts; the older one fails, returns to the front of
the queue and is delivered again. -/
def orderedRun : List Event :=
  [.at 0 .start] ++ .at 1 (.produce "q" "p") :: [] ++
    .at 2 (.produce "q" "p") :: [.at 3 .crash, .at 4 .start, .at 5 (.consume "q" "w"),
      .at 6 (.nack (idAt 1)), .at 7 (.consume "*" "w")]

instance (wire : Wire) (system : System) (event : Event) :
    Decidable (Deliverable wire system event) :=
  match system with
  | .running broker _ =>
    inferInstanceAs (Decidable (∀ message ∈ event.action.message?,
      commandOf message = some .consume → ∀ queue ∈ (message.get "queue" .null).scalar?,
        ∀ task ∈ (broker.queueManager.dequeue queue (message.get "worker_id" .null)).1,
          wire.Sendable (task.handOut.toJson wire)))
  | .stopped _ => isTrue trivial

/-- The younger one is delivered after that. -/
theorem first_deliveries_in_order_restarted :
    (step { persistent := true } .plain (reach { persistent := true } .plain orderedRun)
        (.at 8 (.consume "q" "w"))).1.handed? .plain = some (idAt 2) ∧
      ∃ early event late,
        [] ++ .at 2 (.produce "q" "p") :: [.at 3 .crash, .at 4 .start, .at 5 (.consume "q" "w"),
          .at 6 (.nack (idAt 1)), .at 7 (.consume "*" "w")] = early ++ event :: late ∧
        ((step { persistent := true } .plain (reach { persistent := true } .plain
            ([.at 0 .start] ++ .at 1 (.produce "q" "p") :: early)) event).1.handed? .plain =
              some (idAt 1) ∨
          ResetRemoves { persistent := true } .plain
            ([.at 0 .start] ++ .at 1 (.produce "q" "p") :: early) event (idAt 1) (.str "q")) := by
  have handed : (step { persistent := true } .plain
      (reach { persistent := true } .plain orderedRun) (.at 8 (.consume "q" "w"))).1.handed?
        .plain = some (idAt 2) := by decide +kernel
  have deliverable : Trace.EachStep (step { persistent := true } .plain) System.initial
      (fun _ system event => Deliverable .plain system event) orderedRun :=
    Trace.eachStep_of_all (by decide +kernel)
  have uninterrupted : Trace.EachStep (step { persistent := true } .plain) System.initial
      (fun _ system event => Uninterrupted .plain system event) orderedRun := by
    refine Trace.EachStep.of_mem fun event inside => ?_
    simp only [orderedRun, List.cons_append, List.nil_append, List.mem_cons, List.not_mem_nil,
      or_false] at inside
    rcases inside with rfl | rfl | rfl | rfl | rfl | rfl | rfl | rfl <;>
      refine Uninterrupted.of_named ?_ <;> rintro message ⟨⟩ command <;>
      first | exact ⟨"w", rfl, by decide +kernel⟩ | cases command
  refine ⟨handed, @first_deliveries_in_order _ .plain _ _ _ _ _ _ _ (by decide +kernel) nofun
    (fun _ => .of_increasing (by decide +kernel)) (fun _ => ⟨"q", rfl, by decide +kernel⟩)
    (fun _ => ?_) (uninterrupted.and deliverable)
    ⟨Or.inl (by decide +kernel), by decide +kernel⟩
    ⟨Or.inl (by decide +kernel), by decide +kernel⟩ handed⟩
  rintro message ⟨⟩ -
  decide +kernel

end DistroSync
