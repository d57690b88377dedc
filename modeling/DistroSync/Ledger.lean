import DistroSync.Server

/-!
# Where the tasks are

The containers of a queue manager as multisets of tasks.  Every operation moves one
task, or creates or drops some; stated on the ledger the moves are equations, in
which positions and counters no longer appear.

The equations for dictionaries assume `Distinct`, that no id occurs twice in the whole
ledger: storing a task under an id that is in use would drop the task it replaces.
The operations keep `Distinct`, given that new ids are new; what happens to the ids
is read off the same equations.
-/

namespace DistroSync

open Keyed Py

variable {task task' : Task} {now : Rat} {workerId : Json} {queueName : Scalar}
  {action : NackAction} {first second : String → Prop}

/-- The tasks of a queue manager, by container. -/
@[ext] structure Ledger where
  pending : Multiset Task
  inFlight : Multiset Task
  completed : Multiset Task
  dead : Multiset Task

namespace Ledger

/-- The ids of all tasks. -/
def ids (l : Ledger) : Multiset String :=
  l.pending.map Task.taskId + l.inFlight.map Task.taskId + l.completed.map Task.taskId +
    l.dead.map Task.taskId

end Ledger

namespace Task

/-- A task as `acknowledge` stores it. -/
def finish (task : Task) : Task := { task with status := .done }

/-- A task as `DeadLetterQueue.add` stores it. -/
def bury (task : Task) (now : Rat) : Task :=
  { task with status := .deadLettered, deadLetteredAt := some now }

/-- A task as `DeadLetterQueue.retry` puts it back into its queue. -/
def revive (task : Task) : Task :=
  { task with status := .pending, attempts := 0, assignedWorker := .null }

@[simp] theorem finish_taskId (task : Task) : task.finish.taskId = task.taskId := rfl

@[simp] theorem bury_taskId (task : Task) (now : Rat) : (task.bury now).taskId = task.taskId := rfl

@[simp] theorem revive_taskId (task : Task) : task.revive.taskId = task.taskId := rfl

end Task

namespace QueueManager

/-- The pending tasks, queue by queue. -/
def pending (qm : QueueManager) : List Task := qm.queues.rows.flatMap Prod.snd

/-- The tasks of the queue manager, by container. -/
def ledger (qm : QueueManager) : Ledger where
  pending := qm.pending
  inFlight := qm.inFlight.rows
  completed := qm.completed.rows
  dead := qm.deadLetterQueue.tasks.rows

/-- No id occurs twice. -/
def Distinct (qm : QueueManager) : Prop := qm.ledger.ids.Nodup

/-! ## Pending queues -/

section Pending

variable (qm : QueueManager) (name : Key)

/-- A task is pending if it is in one of the queues. -/
theorem mem_pending : task ∈ qm.pending ↔ ∃ name, task ∈ qm.deque name := by
  simp only [pending, List.mem_flatMap]
  constructor
  · rintro ⟨entry, stored, inside⟩
    refine ⟨entry.1, ?_⟩
    have found : qm.queues.find? entry.1 = some entry := Table.find?_of_mem stored
    simpa [deque, found] using inside
  · rintro ⟨name, inside⟩
    cases found : qm.queues.find? name with
    | none => simp [deque, found] at inside
    | some entry =>
      exact ⟨entry, Table.mem_of_find? found, by simpa [deque, found] using inside⟩

/-- The tasks that are pending in other queues. -/
def elsewhere : List Task := (qm.queues.erase name).rows.flatMap Prod.snd

theorem coe_flatMap_of_coe_eq {rows rows' : List NamedDeque}
    (same : (rows : Multiset NamedDeque) = rows') :
    (rows.flatMap Prod.snd : Multiset Task) = (rows'.flatMap Prod.snd : List Task) :=
  Multiset.coe_eq_coe.mpr ((Multiset.coe_eq_coe.mp same).flatMap_right _)

/-- The pending tasks are those of one queue and those elsewhere. -/
theorem coe_pending :
    (qm.pending : Multiset Task) = (qm.deque name : Multiset Task) + qm.elsewhere name := by
  cases found : qm.queues.find? name with
  | none =>
    simp [pending, deque, elsewhere, found, Table.erase_eq_self found]
  | some entry =>
    have split := coe_flatMap_of_coe_eq (Table.coe_rows_of_find? found)
    simpa [pending, deque, elsewhere, found] using split

theorem coe_pending_put (tasks : List Task) :
    (({ qm with queues := qm.queues.put (name, tasks) } : QueueManager).pending : Multiset Task) =
      (tasks : Multiset Task) + qm.elsewhere name := by
  have split := coe_flatMap_of_coe_eq (Table.coe_rows_put qm.queues (name, tasks))
  simpa [pending, elsewhere] using split

theorem coe_pending_ensureQueue :
    ((qm.ensureQueue name).pending : Multiset Task) = qm.pending := by
  unfold ensureQueue
  cases found : qm.queues.find? name with
  | some entry => rfl
  | none =>
    have before := coe_pending qm name
    have after := coe_pending_put qm name []
    simp only [deque, found, Option.map_none, Option.getD_none] at before
    simpa [before] using after

end Pending

/-! ## Frames of the queue operations -/

section Frames

variable (qm : QueueManager) (name : Key) (task : Task)

@[simp] theorem ensureQueue_inFlight : (qm.ensureQueue name).inFlight = qm.inFlight := by
  unfold ensureQueue
  split <;> rfl

@[simp] theorem ensureQueue_completed : (qm.ensureQueue name).completed = qm.completed := by
  unfold ensureQueue
  split <;> rfl

@[simp] theorem ensureQueue_deadLetterQueue :
    (qm.ensureQueue name).deadLetterQueue = qm.deadLetterQueue := by
  unfold ensureQueue
  split <;> rfl

@[simp] theorem ensureQueue_maxRetries : (qm.ensureQueue name).maxRetries = qm.maxRetries := by
  unfold ensureQueue
  split <;> rfl

@[simp] theorem ledger_ensureQueue : (qm.ensureQueue name).ledger = qm.ledger := by
  simp [ledger, coe_pending_ensureQueue]

@[simp] theorem append_deadLetterQueue : (qm.append task).deadLetterQueue = qm.deadLetterQueue := by
  simp [append]

@[simp] theorem append_maxRetries : (qm.append task).maxRetries = qm.maxRetries := by
  simp [append]

@[simp] theorem ledger_append :
    (qm.append task).ledger = { qm.ledger with pending := task ::ₘ qm.ledger.pending } := by
  have after := coe_pending_put (qm.ensureQueue task.queueName.key) task.queueName.key
    (qm.deque task.queueName.key ++ [task])
  have before := coe_pending (qm.ensureQueue task.queueName.key) task.queueName.key
  rw [coe_pending_ensureQueue, deque_ensureQueue] at before
  ext1
  · simp only [ledger, append, deque_ensureQueue, after, before]
    rw [← Multiset.coe_add, Multiset.coe_singleton, ← Multiset.singleton_add]
    abel
  · simp [ledger, append]
  · simp [ledger, append]
  · simp [ledger, append]

@[simp] theorem appendLeft_deadLetterQueue :
    (qm.appendLeft task).deadLetterQueue = qm.deadLetterQueue := by
  simp [appendLeft]

@[simp] theorem appendLeft_maxRetries : (qm.appendLeft task).maxRetries = qm.maxRetries := by
  simp [appendLeft]

@[simp] theorem ledger_appendLeft :
    (qm.appendLeft task).ledger = { qm.ledger with pending := task ::ₘ qm.ledger.pending } := by
  have after := coe_pending_put (qm.ensureQueue task.queueName.key) task.queueName.key
    (task :: qm.deque task.queueName.key)
  have before := coe_pending (qm.ensureQueue task.queueName.key) task.queueName.key
  rw [coe_pending_ensureQueue, deque_ensureQueue] at before
  ext1
  · simp only [ledger, appendLeft, deque_ensureQueue, after, before]
    rw [← Multiset.cons_coe, Multiset.cons_add]
  · simp [ledger, appendLeft]
  · simp [ledger, appendLeft]
  · simp [ledger, appendLeft]

end Frames

/-! ## Distinct ids -/

namespace Distinct

variable {qm : QueueManager}

/-- What distinct ids mean for two tasks of different containers. -/
structure Apart (l : Ledger) : Prop where
  pending : (l.pending.map Task.taskId).Nodup
  pending_inFlight : ∀ a ∈ l.pending, ∀ b ∈ l.inFlight, a.taskId ≠ b.taskId
  pending_completed : ∀ a ∈ l.pending, ∀ b ∈ l.completed, a.taskId ≠ b.taskId
  pending_dead : ∀ a ∈ l.pending, ∀ b ∈ l.dead, a.taskId ≠ b.taskId
  inFlight_completed : ∀ a ∈ l.inFlight, ∀ b ∈ l.completed, a.taskId ≠ b.taskId
  inFlight_dead : ∀ a ∈ l.inFlight, ∀ b ∈ l.dead, a.taskId ≠ b.taskId

private theorem ne_of_disjoint {s t : Multiset Task}
    (disjoint : Disjoint (s.map Task.taskId) (t.map Task.taskId)) :
    ∀ a ∈ s, ∀ b ∈ t, a.taskId ≠ b.taskId := by
  intro a inS b inT same
  exact Multiset.disjoint_left.mp disjoint (Multiset.mem_map_of_mem _ inS)
    (same ▸ Multiset.mem_map_of_mem _ inT)

/-- Distinct ids, container by container. -/
theorem apart (distinct : qm.Distinct) : Apart qm.ledger := by
  unfold Distinct Ledger.ids at distinct
  simp only [Multiset.nodup_add, Multiset.disjoint_add_left] at distinct
  obtain ⟨⟨⟨pending, -, pf⟩, -, pc, fc⟩, -, ⟨pd, fd⟩, -⟩ := distinct
  exact ⟨pending, ne_of_disjoint pf, ne_of_disjoint pc, ne_of_disjoint pd, ne_of_disjoint fc,
    ne_of_disjoint fd⟩

/-- No other pending task has the id of the one that is taken out. -/
theorem ne_of_pending {other : Task} {rest : Multiset Task} (distinct : qm.Distinct)
    (split : qm.ledger.pending = task ::ₘ rest) (inside : other ∈ rest) :
    other.taskId ≠ task.taskId := by
  have nodup := distinct.apart.pending
  rw [split, Multiset.map_cons, Multiset.nodup_cons] at nodup
  intro same
  exact nodup.1 (same ▸ Multiset.mem_map_of_mem _ inside)

/-- An in-flight task is not in the dead letter queue. -/
theorem dead_absent {id : String} (distinct : qm.Distinct)
    (found : qm.inFlight.find? id = some task) :
    qm.deadLetterQueue.tasks.find? task.taskId = none := by
  rw [Table.find?_eq_none]
  intro other stored clash
  exact distinct.apart.inFlight_dead task (Table.mem_of_find? found) other stored clash.symm

end Distinct

/-! ## The operations -/

section Operations

variable {qm qm' : QueueManager}

theorem ledger_enqueue (qm : QueueManager) (taskId : String) (now : Rat) (queueName : Scalar)
    (payload : Json) :
    (qm.enqueue taskId now queueName payload).ledger =
      { qm.ledger with
        pending := { taskId, queueName, payload, createdAt := now } ::ₘ qm.ledger.pending } :=
  ledger_append qm _

theorem ledger_enqueueRecovered (qm : QueueManager) (queueName : Scalar) (taskId : String)
    (now : Rat) (payload : Json) (attempts : Nat) :
    (qm.enqueueRecovered queueName taskId now payload attempts).ledger =
      { qm.ledger with
        pending := { taskId, queueName, payload, createdAt := now, attempts } ::ₘ
          qm.ledger.pending } :=
  ledger_append qm _

@[simp] theorem enqueue_deadLetterQueue (qm : QueueManager) (taskId : String) (now : Rat)
    (queueName : Scalar) (payload : Json) :
    (qm.enqueue taskId now queueName payload).deadLetterQueue = qm.deadLetterQueue :=
  append_deadLetterQueue qm _

@[simp] theorem enqueue_maxRetries (qm : QueueManager) (taskId : String) (now : Rat)
    (queueName : Scalar) (payload : Json) :
    (qm.enqueue taskId now queueName payload).maxRetries = qm.maxRetries :=
  append_maxRetries qm _

@[simp] theorem enqueueRecovered_maxRetries (qm : QueueManager) (queueName : Scalar)
    (taskId : String) (now : Rat) (payload : Json) (attempts : Nat) :
    (qm.enqueueRecovered queueName taskId now payload attempts).maxRetries = qm.maxRetries :=
  append_maxRetries qm _

/-- A delivery takes the head of a queue. -/
theorem popLeft_some {name : Key} (taken : qm.popLeft name workerId = (some task, qm')) :
    ∃ head rest, qm.deque name = head :: rest ∧ task = head.deliver workerId ∧
      qm' = { qm with
        queues := qm.queues.put (name, rest)
        inFlight := qm.inFlight.put task
        totalDequeued := qm.totalDequeued + 1 } := by
  unfold popLeft at taken
  cases tasks : qm.deque name with
  | nil =>
    rw [tasks] at taken
    cases taken
  | cons head rest =>
    rw [tasks] at taken
    cases taken
    exact ⟨head, rest, rfl, rfl, rfl⟩

theorem popLeft_none {name : Key} (taken : qm.popLeft name workerId = (none, qm')) :
    qm.deque name = [] ∧ qm' = qm := by
  unfold popLeft at taken
  cases tasks : qm.deque name with
  | nil =>
    rw [tasks] at taken
    cases taken
    exact ⟨rfl, rfl⟩
  | cons head rest =>
    rw [tasks] at taken
    cases taken

/-- Both kinds of `dequeue` are a `popLeft`, possibly after creating the queue. -/
theorem dequeue_some (taken : qm.dequeue queueName workerId = (some task, qm')) :
    ∃ qm₀ name, (qm₀ = qm ∨ ∃ created, qm₀ = qm.ensureQueue created) ∧
      qm₀.popLeft name workerId = (some task, qm') := by
  unfold dequeue at taken
  split at taken
  · cases first : qm.firstNonempty with
    | none =>
      rw [first] at taken
      cases taken
    | some target =>
      rw [first] at taken
      simp only at taken
      split at taken
      · exact ⟨qm, target, Or.inl rfl, taken⟩
      · cases taken
  · exact ⟨_, _, Or.inr ⟨_, rfl⟩, taken⟩

/-- A `dequeue` that finds nothing may still create the queue it asked for. -/
theorem dequeue_none (taken : qm.dequeue queueName workerId = (none, qm')) :
    qm' = qm ∨ ∃ created, qm' = qm.ensureQueue created := by
  unfold dequeue at taken
  split at taken
  · cases first : qm.firstNonempty with
    | none =>
      rw [first] at taken
      cases taken
      exact Or.inl rfl
    | some target =>
      rw [first] at taken
      simp only at taken
      split at taken
      · exact Or.inl (popLeft_none taken).2
      · cases taken
        exact Or.inl rfl
  · exact Or.inr ⟨_, (popLeft_none taken).2⟩

theorem ledger_dequeue_none (taken : qm.dequeue queueName workerId = (none, qm')) :
    qm'.ledger = qm.ledger := by
  rcases dequeue_none taken with rfl | ⟨created, rfl⟩
  · rfl
  · exact ledger_ensureQueue qm created

/-- A delivered task moves from pending to in flight. -/
theorem ledger_dequeue_some (distinct : qm.Distinct)
    (taken : qm.dequeue queueName workerId = (some task, qm')) :
    ∃ head rest, task = head.deliver workerId ∧ qm.ledger.pending = head ::ₘ rest ∧
      qm'.ledger =
        { qm.ledger with pending := rest, inFlight := task ::ₘ qm.ledger.inFlight } := by
  obtain ⟨qm₀, name, origin, popped⟩ := dequeue_some taken
  obtain ⟨head, rest, tasks, rfl, rfl⟩ := popLeft_some popped
  have same : qm₀.ledger = qm.ledger := by
    rcases origin with rfl | ⟨created, rfl⟩
    · rfl
    · exact ledger_ensureQueue qm created
  have before : qm₀.ledger.pending = head ::ₘ ((rest : Multiset Task) + qm₀.elsewhere name) := by
    change (qm₀.pending : Multiset Task) = _
    rw [coe_pending qm₀ name, tasks, ← Multiset.cons_coe, Multiset.cons_add]
  have absent : qm₀.inFlight.find? (head.deliver workerId).taskId = none := by
    rw [Table.find?_eq_none]
    intro other inFlight clash
    have inLedger : other ∈ qm.ledger.inFlight := same ▸ inFlight
    have headIn : head ∈ qm.ledger.pending := by
      rw [← same, before]
      exact Multiset.mem_cons_self _ _
    exact distinct.apart.pending_inFlight head headIn other inLedger clash.symm
  refine ⟨head, _, rfl, same ▸ before, ?_⟩
  rw [← same]
  ext1
  · exact coe_pending_put qm₀ name rest
  · exact Table.coe_rows_put_of_absent absent
  · rfl
  · rfl

theorem dequeue_maxRetries {result : Option Task}
    (taken : qm.dequeue queueName workerId = (result, qm')) : qm'.maxRetries = qm.maxRetries := by
  cases result with
  | none =>
    rcases dequeue_none taken with rfl | ⟨created, rfl⟩
    · rfl
    · simp
  | some task =>
    obtain ⟨qm₀, name, origin, popped⟩ := dequeue_some taken
    obtain ⟨head, rest, tasks, rfl, rfl⟩ := popLeft_some popped
    rcases origin with rfl | ⟨created, rfl⟩
    · rfl
    · exact ensureQueue_maxRetries qm created

theorem dequeue_deadLetterQueue {result : Option Task}
    (taken : qm.dequeue queueName workerId = (result, qm')) :
    qm'.deadLetterQueue = qm.deadLetterQueue := by
  cases result with
  | none =>
    rcases dequeue_none taken with rfl | ⟨created, rfl⟩
    · rfl
    · simp
  | some task =>
    obtain ⟨qm₀, name, origin, popped⟩ := dequeue_some taken
    obtain ⟨head, rest, tasks, rfl, rfl⟩ := popLeft_some popped
    rcases origin with rfl | ⟨created, rfl⟩
    · rfl
    · exact ensureQueue_deadLetterQueue qm created

/-- Taking a task out of flight. -/
theorem inFlight_of_find? {id : String} (found : qm.inFlight.find? id = some task) :
    qm.ledger.inFlight = task ::ₘ ((qm.inFlight.erase id).rows : Multiset Task) :=
  Table.coe_rows_of_find? found

/-- An acknowledged task moves from in flight to completed. -/
theorem ledger_acknowledge (distinct : qm.Distinct) {id : String}
    (found : qm.inFlight.find? id = some task) :
    (qm.acknowledge id).2.ledger =
      { qm.ledger with
        inFlight := ((qm.inFlight.erase id).rows : Multiset Task)
        completed := task.finish ::ₘ qm.ledger.completed } := by
  have absent : qm.completed.find? task.taskId = none := by
    rw [Table.find?_eq_none]
    intro other stored clash
    exact distinct.apart.inFlight_completed task (Table.mem_of_find? found) other stored clash.symm
  unfold acknowledge
  rw [found]
  ext1
  · rfl
  · rfl
  · exact Table.coe_rows_put_of_absent absent
  · rfl

@[simp] theorem acknowledge_maxRetries (qm : QueueManager) (id : String) :
    (qm.acknowledge id).2.maxRetries = qm.maxRetries := by
  unfold acknowledge
  split <;> rfl

@[simp] theorem acknowledge_deadLetterQueue (qm : QueueManager) (id : String) :
    (qm.acknowledge id).2.deadLetterQueue = qm.deadLetterQueue := by
  unfold acknowledge
  split <;> rfl

/-- The two ways a NACK of an in-flight task ends. -/
inductive Nacked (qm : QueueManager) (now : Rat) (task : Task) :
    NackAction → Task → QueueManager → Prop where
  | buried {total : Nat} (exhausted : qm.maxRetries ≤ task.attempts ∨ task.status = .deadLettered) :
      Nacked qm now task .deadLettered { task with status := .deadLettered }
        { qm with
          inFlight := qm.inFlight.erase task.taskId
          deadLetterQueue := qm.deadLetterQueue.add now { task with status := .deadLettered }
          totalNacked := qm.totalNacked + 1
          totalDeadLettered := total }
  | requeued (left : task.attempts < qm.maxRetries) :
      Nacked qm now task .requeued task
        (({ qm with
            inFlight := qm.inFlight.erase task.taskId
            totalNacked := qm.totalNacked + 1 } : QueueManager).appendLeft task.release)

/-- A NACK finds its task in flight, or does nothing. -/
theorem negativeAcknowledge_cases {id : String} {result : Option (NackAction × Task)}
    (nacked : qm.negativeAcknowledge now id = (result, qm')) :
    (qm.inFlight.find? id = none ∧ result = none ∧ qm' = qm) ∨
      ∃ task action task', qm.inFlight.find? id = some task ∧ result = some (action, task') ∧
        Nacked qm now task action task' qm' := by
  unfold negativeAcknowledge nackBegin at nacked
  cases found : qm.inFlight.find? id with
  | none =>
    rw [found] at nacked
    cases nacked
    exact Or.inl ⟨rfl, rfl, rfl⟩
  | some task =>
    rw [found] at nacked
    have isId : task.taskId = id := Table.key_of_find? found
    subst isId
    refine Or.inr ?_
    by_cases exhausted : qm.maxRetries ≤ task.attempts
    · simp only [exhausted, if_true, nackFinish] at nacked
      cases nacked
      exact ⟨task, _, _, rfl, rfl, .buried (Or.inl exhausted)⟩
    · by_cases dead : task.status = .deadLettered
      · simp only [exhausted, if_false, nackFinish, dead, if_true] at nacked
        cases nacked
        refine ⟨task, _, _, rfl, rfl, ?_⟩
        have same : ({ task with status := .deadLettered } : Task) = task := by rw [← dead]
        have buried := @Nacked.buried qm now task qm.totalDeadLettered (Or.inr dead)
        rw [same] at buried
        exact buried
      · simp only [exhausted, if_false, nackFinish, dead] at nacked
        cases nacked
        exact ⟨task, _, _, rfl, rfl, .requeued (by omega)⟩

theorem negativeAcknowledge_some {id : String}
    (nacked : qm.negativeAcknowledge now id = (some (action, task'), qm')) :
    ∃ task, qm.inFlight.find? id = some task ∧ Nacked qm now task action task' qm' := by
  rcases negativeAcknowledge_cases nacked with ⟨-, absurd, -⟩ | ⟨task, _, _, found, same, spec⟩
  · cases absurd
  · cases same
    exact ⟨task, found, spec⟩

theorem Nacked.taskId_eq (nacked : Nacked qm now task action task' qm') :
    task'.taskId = task.taskId := by
  cases nacked <;> rfl

theorem Nacked.attempts_eq (nacked : Nacked qm now task action task' qm') :
    task'.attempts = task.attempts := by
  cases nacked <;> rfl

theorem Nacked.queueName_eq (nacked : Nacked qm now task action task' qm') :
    task'.queueName = task.queueName := by
  cases nacked <;> rfl

theorem Nacked.payload_eq (nacked : Nacked qm now task action task' qm') :
    task'.payload = task.payload := by
  cases nacked <;> rfl

theorem Nacked.deadLetterQueue_eq (nacked : Nacked qm now task .deadLettered task' qm') :
    qm'.deadLetterQueue = qm.deadLetterQueue.add now task' := by
  cases nacked
  rfl

theorem Nacked.maxRetries_eq (nacked : Nacked qm now task action task' qm') :
    qm'.maxRetries = qm.maxRetries := by
  cases nacked with
  | buried exhausted => rfl
  | requeued left => exact appendLeft_maxRetries _ _

/-- A buried task moves from in flight to the dead letter queue. -/
theorem ledger_buried (distinct : qm.Distinct) {id : String}
    (found : qm.inFlight.find? id = some task)
    (nacked : Nacked qm now task .deadLettered task' qm') :
    qm'.ledger =
      { qm.ledger with
        inFlight := ((qm.inFlight.erase id).rows : Multiset Task)
        dead := task.bury now ::ₘ qm.ledger.dead } := by
  have isId : task.taskId = id := Table.key_of_find? found
  subst isId
  have absent := distinct.dead_absent found
  cases nacked with
  | buried exhausted =>
    ext1
    · rfl
    · rfl
    · rfl
    · exact Table.coe_rows_put_of_absent absent

/-- A released task moves from in flight to pending. -/
theorem ledger_requeued {id : String} (found : qm.inFlight.find? id = some task)
    (nacked : Nacked qm now task .requeued task' qm') :
    qm'.ledger =
      { qm.ledger with
        pending := task.release ::ₘ qm.ledger.pending
        inFlight := ((qm.inFlight.erase id).rows : Multiset Task) } := by
  have isId : task.taskId = id := Table.key_of_find? found
  subst isId
  cases nacked with
  | requeued left =>
    rw [ledger_appendLeft]
    rfl

/-- Either way the task leaves the flight. -/
theorem Nacked.ledger_inFlight {id : String} (nacked : Nacked qm now task action task' qm')
    (found : qm.inFlight.find? id = some task) :
    qm'.ledger.inFlight = ((qm.inFlight.erase id).rows : Multiset Task) := by
  have isId : task.taskId = id := Table.key_of_find? found
  subst isId
  cases nacked with
  | buried exhausted => rfl
  | requeued left => rw [ledger_appendLeft]; rfl

/-- An evicted task goes back to pending with its attempts. -/
theorem ledger_requeueById {id : String} (found : qm.inFlight.find? id = some task) :
    (qm.requeueById id).2.ledger =
      { qm.ledger with
        pending := task.release ::ₘ qm.ledger.pending
        inFlight := ((qm.inFlight.erase id).rows : Multiset Task) } := by
  unfold requeueById
  rw [found]
  exact ledger_appendLeft _ _

theorem requeueById_of_absent {id : String} (absent : qm.inFlight.find? id = none) :
    qm.requeueById id = (false, qm) := by
  simp [requeueById, absent]

theorem requeueById_maxRetries (qm : QueueManager) (id : String) :
    (qm.requeueById id).2.maxRetries = qm.maxRetries := by
  unfold requeueById
  split
  · rfl
  · exact appendLeft_maxRetries _ _

theorem ledger_retryFinish (qm : QueueManager) (task : Task) :
    (qm.retryFinish task).ledger =
      { qm.ledger with pending := task.revive ::ₘ qm.ledger.pending } :=
  ledger_append qm task.revive

/-- A retried task moves from the dead letter queue to pending. -/
theorem ledger_retry {id : String} (found : qm.deadLetterQueue.tasks.find? id = some task) :
    (qm.retry id).2.ledger =
      { qm.ledger with
        pending := task.revive ::ₘ qm.ledger.pending
        dead := ((qm.deadLetterQueue.tasks.erase id).rows : Multiset Task) } := by
  simp only [retry, retryBegin, found]
  exact ledger_retryFinish _ task

theorem retry_of_absent {id : String} (absent : qm.deadLetterQueue.tasks.find? id = none) :
    qm.retry id = (false, qm) := by
  simp [retry, retryBegin, absent]

theorem retry_maxRetries (qm : QueueManager) (id : String) :
    (qm.retry id).2.maxRetries = qm.maxRetries := by
  cases found : qm.deadLetterQueue.tasks.find? id with
  | none => rw [retry_of_absent found]
  | some task =>
    simp only [retry, retryBegin, found]
    exact append_maxRetries _ task.revive

end Operations

/-! ## The loops

`requeueAll` and `retryEach` run an operation over a list of ids; what they do is said by
the set of ids they reach. -/

end QueueManager

namespace Ledger

variable {source : Ledger → Multiset Task} {f : Task → Task} {l l' l'' : Ledger}

/-- The tasks of the container `source` with an id in `taken` go back to pending, changed
by `f`. -/
structure Returns (source : Ledger → Multiset Task) (f : Task → Task) (taken : String → Prop)
    (l l' : Ledger) : Prop where
  mem_pending : ∀ task, task ∈ l'.pending ↔ task ∈ l.pending ∨
    ∃ origin ∈ source l, taken origin.taskId ∧ task = f origin
  mem_source : ∀ task, task ∈ source l' ↔ task ∈ source l ∧ ¬taken task.taskId
  ids : l'.ids = l.ids

theorem Returns.nothing {taken : String → Prop} (none : ∀ task ∈ source l, ¬taken task.taskId) :
    Returns source f taken l l where
  mem_pending := by
    intro task
    constructor
    · exact Or.inl
    · rintro (old | ⟨origin, inside, isTaken, -⟩)
      · exact old
      · exact absurd isTaken (none origin inside)
  mem_source := by
    intro task
    exact ⟨fun inside => ⟨inside, none task inside⟩, And.left⟩
  ids := rfl

/-- Two rounds return what either of them takes. -/
theorem Returns.trans (before : Returns source f first l l')
    (after : Returns source f second l' l'') :
    Returns source f (fun id => first id ∨ second id) l l'' where
  mem_pending := by
    intro task
    rw [after.mem_pending, before.mem_pending]
    constructor
    · rintro ((old | ⟨origin, inside, taken, rfl⟩) | ⟨origin, inside, taken, rfl⟩)
      · exact Or.inl old
      · exact Or.inr ⟨origin, inside, Or.inl taken, rfl⟩
      · exact Or.inr ⟨origin, ((before.mem_source origin).mp inside).1, Or.inr taken, rfl⟩
    · rintro (old | ⟨origin, inside, taken, rfl⟩)
      · exact Or.inl (Or.inl old)
      · by_cases early : first origin.taskId
        · exact Or.inl (Or.inr ⟨origin, inside, early, rfl⟩)
        · exact Or.inr ⟨origin, (before.mem_source origin).mpr ⟨inside, early⟩,
            taken.resolve_left early, rfl⟩
  mem_source := by
    intro task
    rw [after.mem_source, before.mem_source]
    tauto
  ids := after.ids.trans before.ids

theorem Returns.congr (spec : Returns source f first l l') (same : ∀ id, first id ↔ second id) :
    Returns source f second l l' := by
  have equal : first = second := funext fun id => propext (same id)
  exact equal ▸ spec

/-- One row of the table behind the container goes back. -/
theorem Returns.one {table : TaskTable} {id : String} (found : table.find? id = some task)
    (before : source l = table.rows) (after : source l' = ((table.erase id).rows : Multiset Task))
    (pending : l'.pending = f task ::ₘ l.pending) (ids : l'.ids = l.ids) :
    Returns source f (fun other => other = id) l l' where
  mem_pending := by
    intro other
    rw [pending, Multiset.mem_cons, before]
    constructor
    · rintro (rfl | old)
      · exact Or.inr ⟨task, Table.mem_of_find? found, Table.key_of_find? found, rfl⟩
      · exact Or.inl old
    · rintro (old | ⟨origin, inside, isId, rfl⟩)
      · exact Or.inr old
      · have isTask := table.eq_of_key_eq inside (Table.mem_of_find? found)
          (isId.trans (Table.key_of_find? found).symm)
        exact Or.inl (by rw [isTask])
  mem_source := by
    intro other
    rw [after, before]
    exact Table.mem_erase
  ids := ids

end Ledger

namespace QueueManager

section Loops

variable {qm qm' qm'' : QueueManager}

/-- The in-flight tasks in `taken` go back to pending, and nothing else happens. -/
structure Requeues (taken : String → Prop) (qm qm' : QueueManager) : Prop where
  returns : Ledger.Returns Ledger.inFlight Task.release taken qm.ledger qm'.ledger
  completed : qm'.ledger.completed = qm.ledger.completed
  deadLetterQueue : qm'.deadLetterQueue = qm.deadLetterQueue
  maxRetries : qm'.maxRetries = qm.maxRetries

theorem Requeues.refl (qm : QueueManager) : Requeues (fun _ => False) qm qm :=
  ⟨.nothing (by simp), rfl, rfl, rfl⟩

theorem Requeues.trans (before : Requeues first qm qm') (after : Requeues second qm' qm'') :
    Requeues (fun id => first id ∨ second id) qm qm'' where
  returns := before.returns.trans after.returns
  completed := after.completed.trans before.completed
  deadLetterQueue := after.deadLetterQueue.trans before.deadLetterQueue
  maxRetries := after.maxRetries.trans before.maxRetries

theorem Requeues.congr (spec : Requeues first qm qm') (same : ∀ id, first id ↔ second id) :
    Requeues second qm qm' :=
  { spec with returns := spec.returns.congr same }

theorem requeueById_requeues (qm : QueueManager) (id : String) :
    Requeues (fun other => other = id) qm (qm.requeueById id).2 := by
  cases found : qm.inFlight.find? id with
  | none =>
    rw [requeueById_of_absent found]
    exact ⟨.nothing (Table.find?_eq_none.mp found), rfl, rfl, rfl⟩
  | some task =>
    have ledger := ledger_requeueById found
    have split := inFlight_of_find? found
    refine ⟨.one found rfl (by rw [ledger]) (by rw [ledger]) ?_, by rw [ledger], ?_,
      requeueById_maxRetries qm id⟩
    · rw [ledger]
      simp only [Ledger.ids, split, Multiset.map_cons, Task.release_taskId, Multiset.cons_add,
        Multiset.add_cons]
    · unfold requeueById
      rw [found]
      exact appendLeft_deadLetterQueue _ _

/-- An eviction puts back every listed task that is still in flight. -/
theorem requeueAll_requeues (ids : List String) (qm : QueueManager) :
    Requeues (fun id => id ∈ ids) qm (requeueAll ids qm).2 := by
  induction ids generalizing qm with
  | nil => exact (Requeues.refl qm).congr (by simp)
  | cons id rest ih =>
    exact ((requeueById_requeues qm id).trans (ih (qm.requeueById id).2)).congr (by simp)

/-- The workers an eviction pass gets to: it stops at the first id that cannot be sliced. -/
def processed (workers : List WorkerInfo) : List WorkerInfo :=
  workers.takeWhile fun worker => worker.workerId.toJson.sliceable

/-- **What an eviction pass does after its critical section.**  The tasks tracked for the
workers it gets to go back to pending; it changes no worker. -/
theorem evictEach_spec (order : SetOrder) (workers : List WorkerInfo) (registry : WorkerRegistry)
    (qm : QueueManager) :
    Requeues (fun id => ∃ worker ∈ processed workers, id ∈ worker.inFlightTasks) qm
        (evictEach order workers (registry, qm)).2.2 ∧
      (evictEach order workers (registry, qm)).2.1.workers = registry.workers ∧
      ((evictEach order workers (registry, qm)).1 = .ok () ↔ processed workers = workers) := by
  induction workers generalizing registry qm with
  | nil =>
    exact ⟨(Requeues.refl qm).congr (by simp [processed]), rfl, by simp [evictEach, processed]⟩
  | cons worker rest ih =>
    by_cases sliceable : worker.workerId.toJson.sliceable = true
    · have head := requeueAll_requeues (order.iter worker.inFlightTasks) qm
      obtain ⟨tail, workers, complete⟩ := ih
        { registry with
          totalTasksReassigned := registry.totalTasksReassigned +
            (requeueAll (order.iter worker.inFlightTasks) qm).1
          totalEvictions := registry.totalEvictions + 1 }
        (requeueAll (order.iter worker.inFlightTasks) qm).2
      have processed_cons : processed (worker :: rest) = worker :: processed rest := by
        simp [processed, sliceable]
      simp only [evictEach, sliceable, if_true, processed_cons]
      refine ⟨(head.trans tail).congr fun id => ?_, workers, by rw [complete]; simp⟩
      simp [(order.perm worker.inFlightTasks).mem_iff]
    · have processed_cons : processed (worker :: rest) = [] := by
        simp [processed, sliceable]
      simp only [evictEach, sliceable, processed_cons]
      exact ⟨(Requeues.refl qm).congr (by simp), rfl, by simp⟩

/-- The dead-lettered tasks in `taken` go back to pending, and nothing else happens. -/
structure Retries (taken : String → Prop) (qm qm' : QueueManager) : Prop where
  returns : Ledger.Returns Ledger.dead Task.revive taken qm.ledger qm'.ledger
  inFlight : qm'.ledger.inFlight = qm.ledger.inFlight
  completed : qm'.ledger.completed = qm.ledger.completed
  maxRetries : qm'.maxRetries = qm.maxRetries

/-- `retry` takes one dead letter. -/
theorem retry_retries (qm : QueueManager) (id : String) :
    Retries (fun other => other = id) qm (qm.retry id).2 := by
  cases found : qm.deadLetterQueue.tasks.find? id with
  | none =>
    rw [retry_of_absent found]
    exact ⟨.nothing (Table.find?_eq_none.mp found), rfl, rfl, rfl⟩
  | some task =>
    have ledger := ledger_retry found
    have split : qm.ledger.dead =
        task ::ₘ ((qm.deadLetterQueue.tasks.erase id).rows : Multiset Task) :=
      Table.coe_rows_of_find? found
    refine ⟨.one found rfl (by rw [ledger]) (by rw [ledger]) ?_, by rw [ledger], by rw [ledger],
      retry_maxRetries qm id⟩
    rw [ledger]
    simp only [Ledger.ids, split, Multiset.map_cons, Task.revive_taskId, Multiset.cons_add,
      Multiset.add_cons]

theorem Retries.refl (qm : QueueManager) : Retries (fun _ => False) qm qm :=
  ⟨.nothing (by simp), rfl, rfl, rfl⟩

theorem Retries.trans (before : Retries first qm qm') (after : Retries second qm' qm'') :
    Retries (fun id => first id ∨ second id) qm qm'' where
  returns := before.returns.trans after.returns
  inFlight := after.inFlight.trans before.inFlight
  completed := after.completed.trans before.completed
  maxRetries := after.maxRetries.trans before.maxRetries

theorem Retries.congr (spec : Retries first qm qm') (same : ∀ id, first id ↔ second id) :
    Retries second qm qm' :=
  { spec with returns := spec.returns.congr same }

/-- Replay-all puts the tasks it reports, which were all dead-lettered, back to pending. -/
theorem retryEach_retries (ids : List String) (qm : QueueManager) :
    Retries (fun id => id ∈ (retryEach ids qm).1) qm (retryEach ids qm).2 ∧
      ∀ id ∈ (retryEach ids qm).1, ∃ task ∈ qm.ledger.dead, task.taskId = id := by
  induction ids generalizing qm with
  | nil => exact ⟨(Retries.refl qm).congr (by simp [retryEach]), by simp [retryEach]⟩
  | cons id rest ih =>
    cases found : qm.deadLetterQueue.tasks.find? id with
    | none =>
      simp only [retryEach, retry_of_absent found, Bool.false_eq_true, if_false]
      exact ih qm
    | some task =>
      have success : (qm.retry id).1 = true := by simp [retry, retryBegin, found]
      have head := retry_retries qm id
      obtain ⟨tail, dead⟩ := ih (qm.retry id).2
      simp only [retryEach, success, if_true, List.mem_cons]
      refine ⟨head.trans tail, ?_⟩
      rintro other (rfl | later)
      · exact ⟨task, Table.mem_of_find? found, Table.key_of_find? found⟩
      · obtain ⟨origin, inside, isOther⟩ := dead other later
        exact ⟨origin, ((head.returns.mem_source origin).mp inside).1, isOther⟩

/-- The same, for a replay-all that ran. -/
theorem retries_of_retryEach {ids retried : List String} {qm qm' : QueueManager}
    (ran : retryEach ids qm = (retried, qm')) :
    Retries (· ∈ retried) qm qm' ∧ ∀ id ∈ retried, ∃ task ∈ qm.ledger.dead, task.taskId = id := by
  have spec := retryEach_retries ids qm
  rw [ran] at spec
  exact spec

theorem retry_deadLetterQueue {id : String}
    (found : qm.deadLetterQueue.tasks.find? id = some task) :
    (qm.retry id).2.deadLetterQueue.tasks = qm.deadLetterQueue.tasks.erase id := by
  simp only [retry, retryBegin, found]
  exact congrArg DeadLetterQueue.tasks (append_deadLetterQueue _ task.revive)

/-- Each of several dead letters is retried: taking one leaves the others. -/
theorem retryEach_of_buried {ids : List String} (nodup : ids.Nodup) (qm : QueueManager)
    (buried : ∀ id ∈ ids, id ∈ qm.deadLetterQueue.tasks.keys) : (retryEach ids qm).1 = ids := by
  induction ids generalizing qm with
  | nil => rfl
  | cons id rest ih =>
    obtain ⟨notLater, nodup⟩ := List.nodup_cons.mp nodup
    obtain ⟨task, inside, isId⟩ := Table.mem_keys.mp (buried id List.mem_cons_self)
    have found : qm.deadLetterQueue.tasks.find? id = some task :=
      isId ▸ Table.find?_of_mem inside
    have success : (qm.retry id).1 = true := by simp [retry, retryBegin, found]
    have others := ih nodup (qm.retry id).2 fun other later => by
      rw [retry_deadLetterQueue found, Table.mem_keys_erase]
      exact ⟨buried other (List.mem_cons_of_mem id later), fun same => notLater (same ▸ later)⟩
    simp only [retryEach, success, if_true, others]

/-- **Replay-all retries every dead letter it lists.** -/
theorem retryEach_peek (qm : QueueManager) (limit : Int) :
    (retryEach ((qm.deadLetterQueue.peek limit).map Task.taskId) qm).1 =
      (qm.deadLetterQueue.peek limit).map Task.taskId := by
  have listed : ((qm.deadLetterQueue.peek limit).map Task.taskId).Sublist
      qm.deadLetterQueue.tasks.keys := (sliceTo_sublist _ limit).map Task.taskId
  exact retryEach_of_buried (listed.nodup qm.deadLetterQueue.tasks.nodup_keys) qm
    fun id inside => listed.subset inside

/-- Removing tasks one by one leaves a part of the dead letter queue. -/
theorem removeEach_sublist (ids : List String) (dlq : DeadLetterQueue) :
    (removeEach ids dlq).tasks.rows.Sublist dlq.tasks.rows := by
  induction ids generalizing dlq with
  | nil => exact List.Sublist.refl _
  | cons id rest ih => exact (ih _).trans List.filter_sublist

end Loops

end QueueManager

/-! ## Own queues -/

namespace QueueManager

/-- Every pending task is in the queue of its own name. -/
def Homed (qm : QueueManager) : Prop :=
  ∀ name, ∀ task ∈ qm.deque name, task.queueName.key = name

namespace Homed

variable {qm qm' : QueueManager} {task : Task}

theorem congr (homed : qm.Homed) (same : qm'.queues = qm.queues) : qm'.Homed := by
  unfold Homed deque
  rw [same]
  exact homed

theorem ensureQueue (homed : qm.Homed) (name : Key) : (qm.ensureQueue name).Homed := by
  intro other task inside
  rw [deque_ensureQueue] at inside
  exact homed other task inside

/-- One deque is replaced. -/
theorem put (homed : qm.Homed) {name : Key} {tasks : List Task}
    (own : ∀ task ∈ tasks, task.queueName.key = name)
    (queues : qm'.queues = qm.queues.put (name, tasks)) : qm'.Homed := by
  refine @congr { qm with queues := qm.queues.put (name, tasks) } qm' ?_ queues
  intro other task inside
  by_cases same : other = name
  · subst same
    rw [deque_put_self] at inside
    exact own task inside
  · rw [deque_put_of_ne qm name tasks same] at inside
    exact homed other task inside

/-- A task is appended to the queue of its own name. -/
theorem append (homed : qm.Homed) (task : Task) : (qm.append task).Homed := by
  refine (homed.ensureQueue task.queueName.key).put ?_ rfl
  intro other inside
  rcases List.mem_append.mp inside with old | new
  · exact homed.ensureQueue task.queueName.key _ other old
  · rw [List.mem_singleton.mp new]

theorem appendLeft (homed : qm.Homed) (task : Task) : (qm.appendLeft task).Homed := by
  refine (homed.ensureQueue task.queueName.key).put ?_ rfl
  intro other inside
  rcases List.mem_cons.mp inside with rfl | old
  · rfl
  · exact homed.ensureQueue task.queueName.key _ other old

/-- Which `dequeue` takes away does not matter; a queue it creates is empty. -/
theorem dequeue (homed : qm.Homed) {result : Option Task}
    (taken : qm.dequeue queueName workerId = (result, qm')) : qm'.Homed := by
  cases result with
  | none =>
    rcases dequeue_none taken with rfl | ⟨created, rfl⟩
    · exact homed
    · exact homed.ensureQueue created
  | some task =>
    obtain ⟨qm₀, name, origin, popped⟩ := dequeue_some taken
    obtain ⟨head, rest, tasks, rfl, rfl⟩ := popLeft_some popped
    have before : qm₀.Homed := by
      rcases origin with rfl | ⟨created, rfl⟩
      · exact homed
      · exact homed.ensureQueue created
    refine before.put (fun other inside => ?_) rfl
    exact before name other (by rw [tasks]; exact List.mem_cons_of_mem _ inside)

theorem acknowledge (homed : qm.Homed) (id : String) : (qm.acknowledge id).2.Homed := by
  unfold QueueManager.acknowledge
  split <;> exact homed.congr rfl

theorem requeueById (homed : qm.Homed) (id : String) : (qm.requeueById id).2.Homed := by
  unfold QueueManager.requeueById
  split
  · exact homed
  · rename_i origin found
    have flying : ({ qm with inFlight := qm.inFlight.erase id } : QueueManager).Homed :=
      homed.congr rfl
    exact flying.appendLeft origin.release

theorem nackFinish (homed : qm.Homed) (now : Rat) (task : Task) :
    (qm.nackFinish now task).2.Homed := by
  unfold QueueManager.nackFinish
  split
  · exact homed.congr rfl
  · exact homed.appendLeft task.release

theorem retryFinish (homed : qm.Homed) (task : Task) : (qm.retryFinish task).Homed :=
  (homed.append task.revive).congr rfl

end Homed

end QueueManager

end DistroSync
