import DistroSync.Ledger
import DistroSync.Lib.Trace

/-!
# Interleaved operations of the queue manager

Each critical section of `QueueManager` and `DeadLetterQueue` is one step, and an
operation with two of them (`negative_acknowledge`, and `DeadLetterQueue.retry`) is
suspended between them, for as long as other operations like to run.  A suspended
operation holds the task it took out of its container; nothing else refers to it.

`Interleaving` is the queue manager together with the suspended operations, and with
the ids of the tasks that were thrown away.  Its ids are counted with multiplicity:
an enqueue adds one, and every other step moves an id or leaves it where it is
(`step_ids`).  Since enqueued ids are distinct, each is in exactly one place.

The broker never interleaves its operations like this (its locks are never contended);
the result does not depend on that.
-/

namespace DistroSync

open Keyed Py

/-- An operation between its two critical sections. -/
inductive Suspended where
  | nack (task : Task)
  | retry (task : Task)

/-- The task that a suspended operation holds. -/
def Suspended.task : Suspended → Task
  | nack task => task
  | retry task => task

/-- The queue manager, the suspended operations, and the ids discarded by `remove`, `purge`
and `reset`. -/
structure Interleaving where
  manager : QueueManager
  suspended : List Suspended := []
  discarded : List String := []

/-- The steps.  `negativeAcknowledge` and `dlqRetry` are the first sections of the operations
of these names; `resume` runs the second section of suspended operation number `i`. -/
inductive Operation where
  | enqueue (taskId : String) (now : Rat) (queueName : Scalar) (payload : Json)
  | enqueueRecovered (queueName : Scalar) (taskId : String) (now : Rat) (payload : Json)
      (attempts : Nat)
  | dequeue (queueName : Scalar) (workerId : Json)
  | acknowledge (taskId : String)
  | negativeAcknowledge (taskId : String)
  | requeueById (taskId : String)
  | dlqRetry (taskId : String)
  | dlqRemove (taskId : String)
  | dlqPurge
  | reset
  | resume (i : Nat) (now : Rat)

/-- What a step reports. -/
inductive Answer where
  | done
  | delivered (taskId : String)
  | nacked (action : NackAction) (taskId : String)
  | requeued (taskId : String)
  | retried (taskId : String)
  deriving DecidableEq

/-- The ids an operation enqueues. -/
def Operation.enqueued : Operation → List String
  | enqueue taskId _ _ _ => [taskId]
  | enqueueRecovered _ taskId _ _ _ => [taskId]
  | _ => []

/-- The step completed a `negative_acknowledge`, a `requeue_by_id` or a DLQ retry that put
the task back into its queue. -/
inductive Answer.Returns (id : String) : Answer → Prop where
  | nacked : Returns id (.nacked .requeued id)
  | requeued : Returns id (.requeued id)
  | retried : Returns id (.retried id)

namespace Interleaving

/-- One critical section. -/
def step (s : Interleaving) : Operation → Answer × Interleaving
  | .enqueue taskId now queueName payload =>
    (.done, { s with manager := s.manager.enqueue taskId now queueName payload })
  | .enqueueRecovered queueName taskId now payload attempts =>
    (.done,
      { s with manager := s.manager.enqueueRecovered queueName taskId now payload attempts })
  | .dequeue queueName workerId =>
    match s.manager.dequeue queueName workerId with
    | (none, manager) => (.done, { s with manager })
    | (some task, manager) => (.delivered task.taskId, { s with manager })
  | .acknowledge taskId => (.done, { s with manager := (s.manager.acknowledge taskId).2 })
  | .negativeAcknowledge taskId =>
    match s.manager.nackBegin taskId with
    | (none, manager) => (.done, { s with manager })
    | (some task, manager) =>
      (.done, { s with manager, suspended := s.suspended ++ [.nack task] })
  | .requeueById taskId =>
    match s.manager.requeueById taskId with
    | (false, manager) => (.done, { s with manager })
    | (true, manager) => (.requeued taskId, { s with manager })
  | .dlqRetry taskId =>
    match s.manager.retryBegin taskId with
    | (none, manager) => (.done, { s with manager })
    | (some task, manager) =>
      (.done, { s with manager, suspended := s.suspended ++ [.retry task] })
  | .dlqRemove taskId =>
    let (found, deadLetterQueue) := s.manager.deadLetterQueue.remove taskId
    (.done,
      { s with
        manager := { s.manager with deadLetterQueue }
        discarded := if found then taskId :: s.discarded else s.discarded })
  | .dlqPurge =>
    (.done,
      { s with
        manager := { s.manager with deadLetterQueue := s.manager.deadLetterQueue.purge.2 }
        discarded := s.manager.deadLetterQueue.tasks.keys ++ s.discarded })
  | .reset =>
    (.done,
      { s with
        manager := s.manager.reset
        discarded := s.manager.pending.map Task.taskId ++ s.manager.inFlight.keys ++
          s.manager.completed.keys ++ s.manager.deadLetterQueue.tasks.keys ++ s.discarded })
  | .resume i now =>
    match s.suspended[i]? with
    | none => (.done, s)
    | some (.nack task) =>
      let (action, manager) := s.manager.nackFinish now task
      (.nacked action task.taskId, { s with manager, suspended := s.suspended.eraseIdx i })
    | some (.retry task) =>
      (.retried task.taskId,
        { s with
          manager := s.manager.retryFinish task
          suspended := s.suspended.eraseIdx i })

/-- A new queue manager. -/
def start (maxRetries : Nat) : Interleaving where
  manager := { maxRetries }

/-! ## Places -/

/-- The kinds of places a task id can be at. -/
inductive Container where
  | pending
  | inFlight
  | completed
  | deadLettered
  | held
  | discarded
  deriving DecidableEq

/-- The places themselves. -/
inductive Place where
  | pending (queue : Key) (position : Nat)
  | inFlight
  | completed
  | deadLettered
  | held (operation : Nat)
  | discarded

/-- The kind of a place. -/
def Place.container : Place → Container
  | pending _ _ => .pending
  | inFlight => .inFlight
  | completed => .completed
  | deadLettered => .deadLettered
  | held _ => .held
  | discarded => .discarded

/-- The task `id` is at the place. -/
def At (s : Interleaving) (id : String) : Place → Prop
  | .pending queue position =>
    ∃ task, (s.manager.deque queue)[position]? = some task ∧ task.taskId = id
  | .inFlight => id ∈ s.manager.inFlight.keys
  | .completed => id ∈ s.manager.completed.keys
  | .deadLettered => id ∈ s.manager.deadLetterQueue.tasks.keys
  | .held operation =>
    ∃ suspended, s.suspended[operation]? = some suspended ∧ suspended.task.taskId = id
  | .discarded => id ∈ s.discarded

/-- The ids in all places of a kind. -/
def contents (s : Interleaving) : Container → Multiset String
  | .pending => s.manager.ledger.pending.map Task.taskId
  | .inFlight => s.manager.ledger.inFlight.map Task.taskId
  | .completed => s.manager.ledger.completed.map Task.taskId
  | .deadLettered => s.manager.ledger.dead.map Task.taskId
  | .held => (s.suspended.map fun operation => operation.task.taskId : List String)
  | .discarded => s.discarded

/-- All ids. -/
def ids (s : Interleaving) : Multiset String :=
  s.contents .pending + s.contents .inFlight + s.contents .completed + s.contents .deadLettered +
    s.contents .held + s.contents .discarded

theorem ids_eq (s : Interleaving) :
    s.ids = s.manager.ledger.ids + s.contents .held + s.contents .discarded := rfl

theorem distinct_of_nodup {s : Interleaving} (nodup : s.ids.Nodup) : s.manager.Distinct := by
  refine Multiset.nodup_of_le ?_ nodup
  rw [ids_eq, add_assoc]
  exact Multiset.le_add_right _ _

section Places

variable {s : Interleaving} {id : String}

theorem mem_contents_of_at {place : Place} (here : s.At id place) :
    id ∈ s.contents place.container := by
  cases place with
  | pending queue position =>
    obtain ⟨task, found, rfl⟩ := here
    have pending : task ∈ s.manager.ledger.pending :=
      (QueueManager.mem_pending s.manager).mpr ⟨queue, List.mem_of_getElem? found⟩
    exact Multiset.mem_map_of_mem Task.taskId pending
  | inFlight => exact here
  | completed => exact here
  | deadLettered => exact here
  | held operation =>
    obtain ⟨suspended, found, rfl⟩ := here
    change suspended.task.taskId ∈ s.suspended.map fun operation => operation.task.taskId
    exact List.mem_map_of_mem (List.mem_of_getElem? found)
  | discarded => exact here

/-- An id in a container is at one of its places. -/
theorem exists_at_of_mem {container : Container} (mem : id ∈ s.contents container) :
    ∃ place, s.At id place := by
  cases container with
  | pending =>
    change id ∈ s.manager.ledger.pending.map Task.taskId at mem
    obtain ⟨task, pending, rfl⟩ := Multiset.mem_map.mp mem
    obtain ⟨queue, inside⟩ := (QueueManager.mem_pending s.manager).mp pending
    obtain ⟨position, found⟩ := List.mem_iff_getElem?.mp inside
    exact ⟨.pending queue position, task, found, rfl⟩
  | inFlight => exact ⟨.inFlight, mem⟩
  | completed => exact ⟨.completed, mem⟩
  | deadLettered => exact ⟨.deadLettered, mem⟩
  | held =>
    obtain ⟨suspended, inside, rfl⟩ := List.mem_map.mp mem
    obtain ⟨operation, found⟩ := List.mem_iff_getElem?.mp inside
    exact ⟨.held operation, suspended, found, rfl⟩
  | discarded => exact ⟨.discarded, mem⟩

/-- Places of different kinds have no id in common. -/
theorem container_eq (nodup : s.ids.Nodup) {first second : Container}
    (inFirst : id ∈ s.contents first) (inSecond : id ∈ s.contents second) : first = second := by
  by_contra different
  have both : s.contents first + s.contents second ≤ s.ids := by
    unfold ids
    cases first <;> cases second <;> first
      | exact absurd rfl different
      | skip
    all_goals
      rw [Multiset.le_iff_count]
      intro other
      simp only [Multiset.count_add]
      omega
  have disjoint := (Multiset.nodup_add.mp (Multiset.nodup_of_le both nodup)).2.2
  exact Multiset.disjoint_left.mp disjoint inFirst inSecond

theorem contents_le (container : Container) : s.contents container ≤ s.ids := by
  unfold ids
  rw [Multiset.le_iff_count]
  intro other
  simp only [Multiset.count_add]
  cases container <;> omega

theorem contents_nodup (nodup : s.ids.Nodup) (container : Container) :
    (s.contents container).Nodup :=
  Multiset.nodup_of_le (contents_le container) nodup

theorem eq_of_getElem?_map {α β : Type} {f : α → β} {l : List α} {i j : Nat} {a b : α}
    (nodup : (l.map f).Nodup) (atI : l[i]? = some a) (atJ : l[j]? = some b) (same : f a = f b) :
    i = j := by
  obtain ⟨bound, rfl⟩ := List.getElem?_eq_some_iff.mp atI
  obtain ⟨bound', rfl⟩ := List.getElem?_eq_some_iff.mp atJ
  have inI : i < (l.map f).length := by simpa using bound
  have inJ : j < (l.map f).length := by simpa using bound'
  have equal : (l.map f)[i] = (l.map f)[j] := by simpa using same
  exact nodup.getElem_inj_iff.mp equal

/-- Two positions of the pending queues with the same id are one position. -/
theorem pending_position_eq (nodup : s.ids.Nodup) {queue queue' : Key} {i j : Nat}
    (first : s.At id (.pending queue i)) (second : s.At id (.pending queue' j)) :
    queue = queue' ∧ i = j := by
  obtain ⟨task, atI, isTask⟩ := first
  obtain ⟨other, atJ, isOther⟩ := second
  have distinct : (s.manager.ledger.pending.map Task.taskId).Nodup := contents_nodup nodup .pending
  have split : s.manager.ledger.pending =
      (s.manager.deque queue : Multiset Task) + s.manager.elsewhere queue :=
    QueueManager.coe_pending s.manager queue
  rw [split, Multiset.map_add, Multiset.nodup_add] at distinct
  obtain ⟨own, -, disjoint⟩ := distinct
  have inFirst : task.taskId ∈ (s.manager.deque queue : Multiset Task).map Task.taskId :=
    Multiset.mem_map_of_mem _ (List.mem_of_getElem? atI)
  by_cases same : queue = queue'
  · subst same
    exact ⟨rfl, eq_of_getElem?_map (Multiset.coe_nodup.mp own) atI atJ (isTask.trans isOther.symm)⟩
  · -- the other position is in a queue of another name
    exfalso
    have inSecond : other ∈ s.manager.elsewhere queue := by
      cases found : s.manager.queues.find? queue' with
      | none => simp [QueueManager.deque, found] at atJ
      | some entry =>
        have isName : entry.1 = queue' := Table.key_of_find? found
        have kept : entry ∈ s.manager.queues.erase queue :=
          Table.mem_erase.mpr
            ⟨Table.mem_of_find? found, fun equal => same (equal.symm.trans isName)⟩
        simp only [QueueManager.deque, found, Option.map_some, Option.getD_some] at atJ
        exact List.mem_flatMap.mpr ⟨entry, kept, List.mem_of_getElem? atJ⟩
    refine Multiset.disjoint_left.mp disjoint inFirst ?_
    rw [isTask, ← isOther]
    exact Multiset.mem_map_of_mem Task.taskId inSecond

/-- **Distinct ids are in exactly one place.** -/
theorem existsUnique_place (nodup : s.ids.Nodup) (mem : id ∈ s.ids) : ∃! place, s.At id place := by
  have somewhere : ∃ place, s.At id place := by
    simp only [ids, Multiset.mem_add] at mem
    rcases mem with ((((pending | inFlight) | completed) | dead) | held) | discarded
    · exact exists_at_of_mem pending
    · exact exists_at_of_mem inFlight
    · exact exists_at_of_mem completed
    · exact exists_at_of_mem dead
    · exact exists_at_of_mem held
    · exact exists_at_of_mem discarded
  obtain ⟨place, here⟩ := somewhere
  refine ⟨place, here, fun other there => ?_⟩
  have kind := container_eq nodup (mem_contents_of_at there) (mem_contents_of_at here)
  cases place <;> cases other <;> cases kind
  case pending.pending.refl =>
      obtain ⟨rfl, rfl⟩ := pending_position_eq nodup there here
      rfl
  case held.held.refl =>
      obtain ⟨first, atFirst, isFirst⟩ := there
      obtain ⟨second, atSecond, isSecond⟩ := here
      have distinct := Multiset.coe_nodup.mp (contents_nodup nodup .held)
      rw [eq_of_getElem?_map distinct atFirst atSecond (isFirst.trans isSecond.symm)]
  all_goals rfl

end Places

/-! ## The ids after one step -/

section Ids

variable {qm qm' : QueueManager} {task : Task} {id : String}

theorem ids_of_split {l l' : Ledger} (pending : l'.pending = l.pending)
    (inFlight : l.inFlight = task ::ₘ l'.inFlight) (completed : l'.completed = l.completed)
    (dead : l'.dead = l.dead) : l.ids = task.taskId ::ₘ l'.ids := by
  simp only [Ledger.ids, pending, inFlight, completed, dead, Multiset.map_cons, Multiset.add_cons,
    Multiset.cons_add]

/-- Between its two halves the NACK holds the task, and no container does. -/
theorem nackBegin_some (begun : qm.nackBegin id = (some task, qm')) :
    qm.ledger.ids = task.taskId ::ₘ qm'.ledger.ids ∧ qm'.queues = qm.queues ∧
      task.taskId = id := by
  unfold QueueManager.nackBegin at begun
  cases found : qm.inFlight.find? id with
  | none =>
    rw [found] at begun
    cases begun
  | some origin =>
    rw [found] at begun
    have split := QueueManager.inFlight_of_find? found
    have isId : origin.taskId = id := Table.key_of_find? found
    by_cases exhausted : qm.maxRetries ≤ origin.attempts
    · simp only [exhausted, if_true] at begun
      cases begun
      exact ⟨@ids_of_split origin _ _ rfl split rfl rfl, rfl, isId⟩
    · simp only [exhausted, if_false] at begun
      cases begun
      exact ⟨ids_of_split rfl split rfl rfl, rfl, isId⟩

theorem nackBegin_none (begun : qm.nackBegin id = (none, qm')) : qm' = qm := by
  unfold QueueManager.nackBegin at begun
  cases found : qm.inFlight.find? id with
  | none =>
    rw [found] at begun
    cases begun
    rfl
  | some origin =>
    rw [found] at begun
    by_cases exhausted : qm.maxRetries ≤ origin.attempts
    · simp only [exhausted, if_true] at begun
      cases begun
    · simp only [exhausted, if_false] at begun
      cases begun

/-- The second half puts it back. -/
theorem ids_nackFinish (now : Rat) (absent : task.taskId ∉ qm.ledger.ids) :
    (qm.nackFinish now task).2.ledger.ids = task.taskId ::ₘ qm.ledger.ids := by
  unfold QueueManager.nackFinish
  split
  · have notDead : qm.deadLetterQueue.tasks.find? task.taskId = none := by
      rw [Table.find?_eq_none]
      intro other stored clash
      refine absent ?_
      rw [← clash]
      exact Multiset.mem_add.mpr (Or.inr (Multiset.mem_map_of_mem Task.taskId stored))
    have dead := Table.coe_rows_put_of_absent
      (v := { task with status := .deadLettered, deadLetteredAt := some now }) notDead
    simp only [Ledger.ids, QueueManager.ledger, DeadLetterQueue.add, dead, Multiset.map_cons,
      Multiset.add_cons]
    rfl
  · rw [QueueManager.ledger_appendLeft]
    simp only [Ledger.ids, Multiset.map_cons, Multiset.cons_add, Task.release_taskId]

/-- Likewise for a retry. -/
theorem retryBegin_some (begun : qm.retryBegin id = (some task, qm')) :
    qm.ledger.ids = task.taskId ::ₘ qm'.ledger.ids ∧ qm'.queues = qm.queues := by
  unfold QueueManager.retryBegin at begun
  cases found : qm.deadLetterQueue.tasks.find? id with
  | none =>
    rw [found] at begun
    cases begun
  | some origin =>
    rw [found] at begun
    cases begun
    have split : qm.ledger.dead =
        task ::ₘ ((qm.deadLetterQueue.tasks.erase id).rows : Multiset Task) :=
      Table.coe_rows_of_find? found
    refine ⟨?_, rfl⟩
    simp only [Ledger.ids, split, Multiset.map_cons, Multiset.add_cons]
    rfl

theorem retryBegin_none (begun : qm.retryBegin id = (none, qm')) : qm' = qm := by
  unfold QueueManager.retryBegin at begun
  cases found : qm.deadLetterQueue.tasks.find? id with
  | none =>
    rw [found] at begun
    cases begun
    rfl
  | some origin =>
    rw [found] at begun
    cases begun

theorem ids_requeueById (qm : QueueManager) (id : String) :
    (qm.requeueById id).2.ledger.ids = qm.ledger.ids :=
  (QueueManager.requeueById_requeues qm id).returns.ids

theorem ids_dequeue (distinct : qm.Distinct) {queueName : Scalar} {workerId : Json}
    {result : Option Task} (taken : qm.dequeue queueName workerId = (result, qm')) :
    qm'.ledger.ids = qm.ledger.ids := by
  cases result with
  | none => rw [QueueManager.ledger_dequeue_none taken]
  | some task =>
    obtain ⟨head, rest, rfl, split, ledger⟩ := QueueManager.ledger_dequeue_some distinct taken
    rw [ledger]
    simp only [Ledger.ids, split, Multiset.map_cons, Multiset.add_cons, Multiset.cons_add,
      Task.deliver_taskId]

theorem ids_acknowledge (distinct : qm.Distinct) (id : String) :
    (qm.acknowledge id).2.ledger.ids = qm.ledger.ids := by
  cases found : qm.inFlight.find? id with
  | none => simp [QueueManager.acknowledge, found]
  | some task =>
    have split := QueueManager.inFlight_of_find? found
    rw [QueueManager.ledger_acknowledge distinct found]
    simp only [Ledger.ids, split, Multiset.map_cons, Multiset.add_cons, Multiset.cons_add,
      Task.finish_taskId]

theorem ids_remove (qm : QueueManager) (id : String) :
    qm.ledger.ids =
      (if (qm.deadLetterQueue.remove id).1 then [id] else [] : List String) +
        ({ qm with deadLetterQueue := (qm.deadLetterQueue.remove id).2 } :
          QueueManager).ledger.ids := by
  cases found : qm.deadLetterQueue.tasks.find? id with
  | none =>
    simp [DeadLetterQueue.remove, found, Table.erase_eq_self found]
  | some task =>
    have isId : task.taskId = id := Table.key_of_find? found
    have split : qm.ledger.dead =
        task ::ₘ ((qm.deadLetterQueue.tasks.erase id).rows : Multiset Task) :=
      Table.coe_rows_of_find? found
    simp only [DeadLetterQueue.remove, found, Option.isSome_some, if_true, Ledger.ids, split,
      Multiset.map_cons, Multiset.add_cons, isId, Multiset.coe_singleton, Multiset.singleton_add]
    rfl

end Ids

section Steps

variable (s : Interleaving) {manager : QueueManager}

/-- An operation is suspended with the task it took. -/
theorem ids_suspend {operation : Suspended}
    (took : s.manager.ledger.ids = operation.task.taskId ::ₘ manager.ledger.ids) :
    ({ s with manager, suspended := s.suspended ++ [operation] } : Interleaving).ids = s.ids := by
  rw [ids_eq, ids_eq, took]
  simp only [contents, List.map_append, List.map_cons, List.map_nil, ← Multiset.coe_add,
    Multiset.coe_singleton, ← Multiset.singleton_add]
  abel

/-- A suspended operation gives up its task. -/
theorem ids_resume {i : Nat} {operation : Suspended} (found : s.suspended[i]? = some operation)
    (gave : manager.ledger.ids = operation.task.taskId ::ₘ s.manager.ledger.ids) :
    ({ s with manager, suspended := s.suspended.eraseIdx i } : Interleaving).ids = s.ids := by
  obtain ⟨bound, rfl⟩ := List.getElem?_eq_some_iff.mp found
  have split : (s.suspended : Multiset Suspended) =
      s.suspended[i] ::ₘ (s.suspended.eraseIdx i : Multiset Suspended) :=
    Multiset.coe_eq_coe.mpr (List.getElem_cons_eraseIdx_perm bound).symm
  have held : s.contents .held =
      s.suspended[i].task.taskId ::ₘ
        ((s.suspended.eraseIdx i).map fun operation => operation.task.taskId : List String) := by
    have mapped := congrArg (Multiset.map fun operation : Suspended => operation.task.taskId) split
    simpa [contents] using mapped
  rw [ids_eq, ids_eq, held, gave]
  simp only [contents, ← Multiset.singleton_add]
  abel

/-- Ids leave the containers for good. -/
theorem ids_discard {gone : List String}
    (split : s.manager.ledger.ids = (gone : Multiset String) + manager.ledger.ids) :
    ({ s with manager, discarded := gone ++ s.discarded } : Interleaving).ids = s.ids := by
  rw [ids_eq, ids_eq, split]
  simp only [contents, ← Multiset.coe_add]
  abel

/-- **A step moves ids**: it adds those it enqueues, and loses none. -/
theorem step_ids (operation : Operation) (nodup : s.ids.Nodup) :
    (s.step operation).2.ids = (operation.enqueued : Multiset String) + s.ids := by
  have distinct := distinct_of_nodup nodup
  cases operation with
  | enqueue taskId now queueName payload =>
    simp only [step, ids_eq, QueueManager.ledger_enqueue, Operation.enqueued, Ledger.ids,
      Multiset.map_cons, Multiset.cons_add, Multiset.coe_singleton, Multiset.singleton_add]
    rfl
  | enqueueRecovered queueName taskId now payload attempts =>
    simp only [step, ids_eq, QueueManager.ledger_enqueueRecovered, Operation.enqueued,
      Ledger.ids, Multiset.map_cons, Multiset.cons_add, Multiset.coe_singleton,
      Multiset.singleton_add]
    rfl
  | dequeue queueName workerId =>
    simp only [step, Operation.enqueued, Multiset.coe_nil, zero_add]
    split
    · rename_i manager taken
      rw [ids_eq, ids_dequeue distinct taken]
      rfl
    · rename_i task manager taken
      rw [ids_eq, ids_dequeue distinct taken]
      rfl
  | acknowledge taskId =>
    simp only [step, Operation.enqueued, Multiset.coe_nil, zero_add]
    rw [ids_eq, ids_acknowledge distinct]
    rfl
  | negativeAcknowledge taskId =>
    simp only [step, Operation.enqueued, Multiset.coe_nil, zero_add]
    split
    · rename_i manager begun
      rw [nackBegin_none begun]
    · rename_i task manager begun
      -- the first half: the operation holds the task until it goes on
      exact s.ids_suspend (nackBegin_some begun).1
  | requeueById taskId =>
    have same := ids_requeueById s.manager taskId
    simp only [step, Operation.enqueued, Multiset.coe_nil, zero_add]
    split
    · rename_i manager requeued
      rw [requeued] at same
      rw [ids_eq, same]
      rfl
    · rename_i manager requeued
      rw [requeued] at same
      rw [ids_eq, same]
      rfl
  | dlqRetry taskId =>
    simp only [step, Operation.enqueued, Multiset.coe_nil, zero_add]
    split
    · rename_i manager begun
      rw [retryBegin_none begun]
    · rename_i task manager begun
      exact s.ids_suspend (retryBegin_some begun).1
  | dlqRemove taskId =>
    have discard := s.ids_discard (ids_remove s.manager taskId)
    simp only [step, Operation.enqueued, Multiset.coe_nil, zero_add]
    rw [← discard]
    cases (s.manager.deadLetterQueue.remove taskId).1 <;> rfl
  | dlqPurge =>
    simp only [step, Operation.enqueued, Multiset.coe_nil, zero_add]
    refine s.ids_discard ?_
    change s.manager.ledger.ids = s.manager.ledger.dead.map Task.taskId +
      (s.manager.ledger.pending.map Task.taskId + s.manager.ledger.inFlight.map Task.taskId +
        s.manager.ledger.completed.map Task.taskId + 0)
    simp only [Ledger.ids]
    abel
  | reset =>
    simp only [step, Operation.enqueued, Multiset.coe_nil, zero_add]
    refine s.ids_discard ?_
    have nothing : s.manager.reset.ledger.ids = 0 := rfl
    rw [nothing, add_zero]
    simp only [← Multiset.coe_add]
    rfl
  | resume i now =>
    simp only [step, Operation.enqueued, Multiset.coe_nil, zero_add]
    split
    · rfl
    · rename_i task found
      refine s.ids_resume found (ids_nackFinish now fun present => ?_)
      have held : task.taskId ∈ s.contents .held :=
        List.mem_map.mpr ⟨.nack task, List.mem_of_getElem? found, rfl⟩
      rw [ids_eq, add_assoc, Multiset.nodup_add] at nodup
      exact Multiset.disjoint_left.mp nodup.2.2 present
        (Multiset.mem_add.mpr (Or.inl held))
    · rename_i task found
      refine s.ids_resume found ?_
      rw [QueueManager.ledger_retryFinish]
      simp only [Ledger.ids, Multiset.map_cons, Multiset.cons_add, Task.revive_taskId]
      rfl

/-- A task that is pending after a step was so before, or the step put it there. -/
theorem step_pending (operation : Operation) (nodup : s.ids.Nodup) {task : Task}
    (pending : task ∈ (s.step operation).2.manager.ledger.pending) :
    task.taskId ∈ s.contents .pending ∨ task.taskId ∈ operation.enqueued ∨
      (s.step operation).1.Returns task.taskId := by
  have distinct := distinct_of_nodup nodup
  have before {other : Task} (old : other ∈ s.manager.ledger.pending) :
      other.taskId ∈ s.contents .pending := Multiset.mem_map_of_mem Task.taskId old
  -- a task is new in a queue if it was enqueued or came back
  cases operation with
  | enqueue taskId now queueName payload =>
    simp only [step, QueueManager.ledger_enqueue, Multiset.mem_cons] at pending
    rcases pending with rfl | old
    · exact Or.inr (Or.inl (by simp [Operation.enqueued]))
    · exact Or.inl (before old)
  | enqueueRecovered queueName taskId now payload attempts =>
    simp only [step, QueueManager.ledger_enqueueRecovered, Multiset.mem_cons] at pending
    rcases pending with rfl | old
    · exact Or.inr (Or.inl (by simp [Operation.enqueued]))
    · exact Or.inl (before old)
  | dequeue queueName workerId =>
    refine Or.inl ?_
    simp only [step] at pending
    split at pending
    · rename_i manager taken
      rw [QueueManager.ledger_dequeue_none taken] at pending
      exact before pending
    · rename_i delivered manager taken
      obtain ⟨head, rest, -, split, ledger⟩ := QueueManager.ledger_dequeue_some distinct taken
      rw [ledger] at pending
      exact before (by rw [split]; exact Multiset.mem_cons_of_mem pending)
  | acknowledge taskId =>
    refine Or.inl (before ?_)
    simp only [step] at pending
    cases found : s.manager.inFlight.find? taskId with
    | none => simpa [QueueManager.acknowledge, found] using pending
    | some origin =>
      rw [QueueManager.ledger_acknowledge distinct found] at pending
      exact pending
  | negativeAcknowledge taskId =>
    refine Or.inl (before ?_)
    simp only [step] at pending
    split at pending
    · rename_i manager begun
      rwa [nackBegin_none begun] at pending
    · rename_i held manager begun
      simpa [QueueManager.ledger, QueueManager.pending, (nackBegin_some begun).2.1] using pending
  | requeueById taskId =>
    cases found : s.manager.inFlight.find? taskId with
    | none =>
      simp only [step, QueueManager.requeueById_of_absent found] at pending
      exact Or.inl (before pending)
    | some origin =>
      have isId : origin.taskId = taskId := Table.key_of_find? found
      have ledger := QueueManager.ledger_requeueById found
      have success :
          s.manager.requeueById taskId = (true, (s.manager.requeueById taskId).2) := by
        simp [QueueManager.requeueById, found]
      simp only [step] at pending ⊢
      rw [success] at pending ⊢
      simp only [ledger, Multiset.mem_cons] at pending
      rcases pending with rfl | old
      · rw [Task.release_taskId, isId]
        exact Or.inr (Or.inr .requeued)
      · exact Or.inl (before old)
  | dlqRetry taskId =>
    refine Or.inl (before ?_)
    simp only [step] at pending
    split at pending
    · rename_i manager begun
      rwa [retryBegin_none begun] at pending
    · rename_i held manager begun
      simpa [QueueManager.ledger, QueueManager.pending, (retryBegin_some begun).2] using pending
  | dlqRemove taskId => exact Or.inl (before pending)
  | dlqPurge => exact Or.inl (before pending)
  | reset => exact absurd pending (Multiset.notMem_zero task)
  | resume i now =>
    simp only [step] at pending ⊢
    split at pending
    · exact Or.inl (before pending)
    · rename_i held found
      by_cases dead : held.status = .deadLettered
      · simp only [QueueManager.nackFinish, dead, if_true] at pending
        exact Or.inl (before pending)
      · simp only [QueueManager.nackFinish, dead, if_false, QueueManager.ledger_appendLeft,
          Multiset.mem_cons] at pending ⊢
        rcases pending with rfl | old
        · exact Or.inr (Or.inr .nacked)
        · exact Or.inl (before old)
    · rename_i held found
      simp only [QueueManager.ledger_retryFinish, Multiset.mem_cons] at pending
      rcases pending with rfl | old
      · exact Or.inr (Or.inr .retried)
      · exact Or.inl (before old)

/-- A delivered task was pending and is in flight. -/
theorem step_delivered (operation : Operation) (nodup : s.ids.Nodup) {id : String}
    (delivered : (s.step operation).1 = .delivered id) :
    id ∈ s.contents .pending ∧ id ∈ (s.step operation).2.contents .inFlight := by
  have distinct := distinct_of_nodup nodup
  cases operation with
  | dequeue queueName workerId =>
    simp only [step] at delivered ⊢
    split at delivered
    · cases delivered
    · rename_i task manager taken
      cases delivered
      obtain ⟨head, rest, rfl, split, ledger⟩ := QueueManager.ledger_dequeue_some distinct taken
      simp only [contents, ledger, split, Multiset.map_cons, Multiset.mem_cons,
        Task.deliver_taskId, true_or, and_self]
  | negativeAcknowledge taskId =>
    simp only [step] at delivered
    split at delivered <;> cases delivered
  | requeueById taskId =>
    simp only [step] at delivered
    split at delivered <;> cases delivered
  | dlqRetry taskId =>
    simp only [step] at delivered
    split at delivered <;> cases delivered
  | resume i now =>
    simp only [step] at delivered
    split at delivered <;> cases delivered
  | _ => cases delivered

end Steps

end Interleaving

/-! ## Own queues -/

namespace Interleaving

/-- The halves leave every task in its own queue. -/
theorem step_homed (s : Interleaving) (operation : Operation) (homed : s.manager.Homed) :
    (s.step operation).2.manager.Homed := by
  cases operation with
  | enqueue taskId now queueName payload => exact (homed.append _).congr rfl
  | enqueueRecovered queueName taskId now payload attempts => exact (homed.append _).congr rfl
  | dequeue queueName workerId =>
    simp only [step]
    split
    · rename_i manager taken
      exact homed.dequeue taken
    · rename_i task manager taken
      exact homed.dequeue taken
  | acknowledge taskId => exact homed.acknowledge taskId
  | negativeAcknowledge taskId =>
    simp only [step]
    split
    · rename_i manager begun
      rw [nackBegin_none begun]
      exact homed
    · rename_i task manager begun
      exact homed.congr (nackBegin_some begun).2.1
  | requeueById taskId =>
    have requeued := homed.requeueById taskId
    simp only [step]
    split <;> simp_all
  | dlqRetry taskId =>
    simp only [step]
    split
    · rename_i manager begun
      rw [retryBegin_none begun]
      exact homed
    · rename_i task manager begun
      exact homed.congr (retryBegin_some begun).2
  | dlqRemove taskId => exact homed.congr rfl
  | dlqPurge => exact homed.congr rfl
  | reset =>
    intro name task inside
    cases inside
  | resume i now =>
    simp only [step]
    split
    · exact homed
    · exact homed.nackFinish now _
    · exact homed.retryFinish _

/-! ## Whole runs -/

/-- The ids enqueued by a run. -/
def enqueuedIds (operations : List Operation) : List String := operations.flatMap Operation.enqueued

@[simp] theorem enqueuedIds_concat (operations : List Operation) (operation : Operation) :
    enqueuedIds (operations ++ [operation]) = enqueuedIds operations ++ operation.enqueued := by
  simp [enqueuedIds]

/-- The state after a run. -/
abbrev after (maxRetries : Nat) (operations : List Operation) : Interleaving :=
  Trace.after step (start maxRetries) operations

/-- The steps of a run with what they report. -/
abbrev trace (maxRetries : Nat) (operations : List Operation) : List (Operation × Answer) :=
  Trace.trace step (start maxRetries) operations

/-- What holds after every run that enqueues no id twice. -/
structure Conserved (maxRetries : Nat) (operations : List Operation) (s : Interleaving) : Prop where
  ids : s.ids = enqueuedIds operations
  homed : s.manager.Homed
  /-- A delivered task that was not put back since is not pending. -/
  away : ∀ id before operation between,
    trace maxRetries operations = before ++ (operation, .delivered id) :: between →
    (∀ entry ∈ between, ¬entry.2.Returns id) →
    id ∈ s.ids ∧ id ∉ s.contents .pending

/-- **No step loses an id or makes a second one.** -/
theorem Conserved.step {maxRetries : Nat} {operations : List Operation} {operation : Operation}
    (conserved : Conserved maxRetries operations (after maxRetries operations))
    (nodup : (enqueuedIds (operations ++ [operation])).Nodup) :
    Conserved maxRetries (operations ++ [operation])
      ((after maxRetries operations).step operation).2 := by
  have whole : trace maxRetries (operations ++ [operation]) =
      trace maxRetries operations ++
        [(operation, ((after maxRetries operations).step operation).1)] :=
    Trace.trace_concat Interleaving.step (start maxRetries) operations operation
  generalize after maxRetries operations = s at conserved whole ⊢
  have ids : (s.step operation).2.ids = enqueuedIds (operations ++ [operation]) := by
    rw [step_ids, conserved.ids, enqueuedIds_concat, add_comm, Multiset.coe_add]
    rw [conserved.ids]
    exact (List.nodup_append.mp (enqueuedIds_concat operations operation ▸ nodup)).1
  have after : (s.step operation).2.ids.Nodup := by
    rw [ids]
    exact nodup
  rw [enqueuedIds_concat, List.nodup_append] at nodup
  have before : s.ids.Nodup := by
    rw [conserved.ids]
    exact nodup.1
  refine ⟨ids, s.step_homed operation conserved.homed, ?_⟩
  intro id earlier delivery between split kept
  rw [whole] at split
  rcases List.eq_nil_or_concat between with rfl | ⟨between, last, rfl⟩
  · -- the last step is the delivery
    obtain ⟨-, same⟩ := List.append_inj' split rfl
    simp only [List.cons.injEq, Prod.mk.injEq, and_true] at same
    obtain ⟨-, flying⟩ := s.step_delivered operation before same.2
    refine ⟨Multiset.mem_of_le (contents_le .inFlight) flying, fun pending => ?_⟩
    cases container_eq after flying pending
  · -- the task was away before the last step, which did not put it back
    rw [List.concat_eq_append, ← List.cons_append, ← List.append_assoc] at split
    obtain ⟨front, same⟩ := List.append_inj' split rfl
    simp only [List.cons.injEq, and_true] at same
    obtain ⟨known, absent⟩ := conserved.away id earlier delivery between front fun entry inside =>
      kept entry (by simp [inside])
    have notReturned := kept last (by simp)
    rw [← same] at notReturned
    refine ⟨?_, fun pending => ?_⟩
    · rw [step_ids s operation before]
      exact Multiset.mem_add.mpr (Or.inr known)
    · change id ∈ (s.step operation).2.manager.ledger.pending.map Task.taskId at pending
      obtain ⟨task, here, rfl⟩ := Multiset.mem_map.mp pending
      rcases s.step_pending operation before here with old | new | returned
      · exact absent old
      · rw [conserved.ids] at known
        exact nodup.2.2 _ known _ new rfl
      · exact notReturned returned

theorem conserved_after (maxRetries : Nat) {operations : List Operation}
    (nodup : (enqueuedIds operations).Nodup) :
    Conserved maxRetries operations (after maxRetries operations) := by
  refine @Trace.run_invariant _ _ _ step (start maxRetries) (Conserved maxRetries)
    (fun front _ operation => (enqueuedIds (front ++ [operation])).Nodup) operations ?_ ?_ ?_
  · constructor
    · rfl
    · intro name task inside
      cases inside
    · intro id before operation between split
      simp at split
  · intro front operation conserved fresh
    exact conserved.step fresh
  · intro front operation back split
    have longer : enqueuedIds operations =
        enqueuedIds (front ++ [operation]) ++ enqueuedIds back := by
      rw [split]
      simp [enqueuedIds]
    rw [longer] at nodup
    exact (List.nodup_append.mp nodup).1

/-- **Conservation and exclusive delivery.**  After any interleaving of the critical sections
that enqueues no id twice, every enqueued id is in exactly one place, every pending task is
in the queue of its own name, and between two deliveries of one id a `negative_acknowledge`,
a `requeue_by_id` or a DLQ retry put it back. -/
theorem exactly_one_place (maxRetries : Nat) {operations : List Operation}
    (nodup : (enqueuedIds operations).Nodup) :
    (∀ id ∈ enqueuedIds operations, ∃! place, (after maxRetries operations).At id place) ∧
      (∀ queue, ∀ task ∈ (after maxRetries operations).manager.deque queue,
        task.queueName.key = queue) ∧
      ∀ id before first between second later,
        trace maxRetries operations =
          before ++ (first, .delivered id) :: (between ++ (second, .delivered id) :: later) →
        ∃ entry ∈ between, entry.2.Returns id := by
  have conserved := conserved_after maxRetries nodup
  have distinct : (after maxRetries operations).ids.Nodup := by
    rw [conserved.ids]
    exact nodup
  refine ⟨fun id known => existsUnique_place distinct (by rw [conserved.ids]; exact known),
    conserved.homed, ?_⟩
  intro id before first between second later split
  by_contra none
  have never : ∀ entry ∈ between, ¬entry.2.Returns id := fun entry inside returns =>
    none ⟨entry, inside, returns⟩
  rw [← List.cons_append, ← List.append_assoc] at split
  obtain ⟨front, back, rfl, traced, delivered⟩ := Trace.trace_split _ _ split
  have longer : enqueuedIds (front ++ second :: back) =
      enqueuedIds front ++ enqueuedIds (second :: back) := by
    simp [enqueuedIds]
  rw [longer] at nodup
  have earlier := conserved_after maxRetries (List.nodup_append.mp nodup).1
  obtain ⟨-, absent⟩ := earlier.away id before first between traced never
  have nodupFront : (after maxRetries front).ids.Nodup := by
    rw [earlier.ids]
    exact (List.nodup_append.mp nodup).1
  exact absent (step_delivered _ second nodupFront delivered.symm).1

/-- A task is delivered, fails, is put back while another one is enqueued, and is delivered
again. -/
def redelivery : List Operation :=
  [.enqueue "a" 0 (.str "q") .null, .dequeue (.str "q") (.str "w"), .negativeAcknowledge "a",
    .enqueue "b" 1 (.str "q") .null, .resume 0 2, .dequeue (.str "*") (.str "w")]

theorem exactly_one_place_redelivery :
    (∃! place, (after 3 redelivery).At "a" place) ∧
      (∃! place, (after 3 redelivery).At "b" place) ∧
      ∃ entry ∈ (trace 3 redelivery).extract 2 5, entry.2.Returns "a" := by
  have answers : (trace 3 redelivery).map Prod.snd =
      [.done, .delivered "a", .done, .done, .nacked .requeued "a", .delivered "a"] := by
    decide +kernel
  have whole := Trace.trace_eq_zip step (start 3) redelivery
  rw [answers] at whole
  obtain ⟨places, -, between⟩ := @exactly_one_place 3 redelivery (by decide)
  refine ⟨places "a" (by decide), places "b" (by decide), ?_⟩
  rw [trace, whole]
  exact between "a" [_] _ [_, _, _] _ [] whole

end Interleaving

end DistroSync
