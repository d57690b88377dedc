import DistroSync.QueueView

/-!
# One eviction pass

What `evict_dead_workers` does to an arbitrary registry and an arbitrary queue manager,
whatever order the sets of task ids are iterated in.  A pass is a sequence of
`requeue_by_id` calls; `MovesToFront ids` says what any such sequence does that reaches the
ids `ids`, and it is closed under composition, so that overlapping sets and ids that are no
longer in flight need no case of their own.
-/

namespace DistroSync

open Keyed Py

namespace QueueManager

/-- The tasks in flight with one of the ids. -/
def flying (qm : QueueManager) (ids : List String) : List Task :=
  qm.inFlight.rows.filter fun task => task.taskId ∈ ids

/-- The `count` tasks in flight with one of the ids go to the front of their queues, in some
order, and nothing else happens. -/
structure MovesToFront (ids : List String) (count : Nat) (qm qm' : QueueManager) : Prop where
  fronts : ∀ name, ∃ front : List Task, qm'.deque name = front ++ qm.deque name ∧
    front.Perm (((qm.flying ids).filter fun task => task.queueName.key = name).map Task.release)
  pending : (qm'.pending : Multiset Task) =
    ((qm.flying ids).map Task.release : List Task) + qm.pending
  inFlight : qm'.inFlight = qm.inFlight.filter fun task => task.taskId ∉ ids
  count_eq : count = (qm.flying ids).length
  rest : { qm' with queues := qm.queues, inFlight := qm.inFlight } = qm

section Moves

variable {qm qm' qm'' : QueueManager} {ids ids' : List String} {n n' : Nat}

theorem MovesToFront.nothing (absent : qm.flying ids = []) : MovesToFront ids 0 qm qm where
  fronts name := ⟨[], by simp, by simp [absent]⟩
  pending := by simp [absent]
  inFlight := by
    apply Table.ext
    have none := List.filter_eq_nil_iff.mp absent
    symm
    exact List.filter_eq_self.mpr fun task inside => by simpa using none task inside
  count_eq := by simp [absent]
  rest := rfl

/-- Only which ids are reached matters. -/
theorem MovesToFront.congr (moves : MovesToFront ids n qm qm')
    (same : ∀ id, id ∈ ids ↔ id ∈ ids') : MovesToFront ids' n qm qm' := by
  have flying_eq : qm.flying ids = qm.flying ids' :=
    List.filter_congr fun task _ => by simp [same]
  have inFlight_eq : (qm.inFlight.filter fun task => task.taskId ∉ ids) =
      qm.inFlight.filter fun task => task.taskId ∉ ids' :=
    Table.ext (List.filter_congr fun task _ => by simp [same])
  exact {
    fronts := flying_eq ▸ moves.fronts
    pending := flying_eq ▸ moves.pending
    inFlight := inFlight_eq ▸ moves.inFlight
    count_eq := flying_eq ▸ moves.count_eq
    rest := moves.rest }

/-- What is still in flight after some ids were reached, and what was. -/
theorem MovesToFront.flying_append (moves : MovesToFront ids n qm qm') (ids' : List String) :
    (qm.flying (ids ++ ids')).Perm (qm'.flying ids' ++ qm.flying ids) := by
  have split := List.filter_append_perm (fun task => decide (task.taskId ∉ ids))
    (qm.flying (ids ++ ids'))
  refine split.symm.trans (.of_eq ?_)
  unfold flying
  rw [moves.inFlight]
  simp only [Table.filter, List.filter_filter]
  congr 1
  · refine List.filter_congr fun task _ => ?_
    by_cases early : task.taskId ∈ ids <;> simp [early]
  · refine List.filter_congr fun task _ => ?_
    by_cases early : task.taskId ∈ ids <;> simp [early]

theorem MovesToFront.trans (before : MovesToFront ids n qm qm')
    (after : MovesToFront ids' n' qm' qm'') : MovesToFront (ids ++ ids') (n + n') qm qm'' where
  fronts := by
    intro name
    obtain ⟨front, isFront, perm⟩ := before.fronts name
    obtain ⟨front', isFront', perm'⟩ := after.fronts name
    refine ⟨front' ++ front, by rw [isFront', isFront, List.append_assoc], ?_⟩
    have all := ((before.flying_append ids').filter fun task => task.queueName.key = name).map
      Task.release
    rw [List.filter_append, List.map_append] at all
    exact (perm'.append perm).trans all.symm
  pending := by
    have all := (before.flying_append ids').map Task.release
    rw [after.pending, before.pending, ← add_assoc, Multiset.coe_eq_coe.mpr all, List.map_append,
      ← Multiset.coe_add]
  inFlight := by
    rw [after.inFlight, before.inFlight]
    apply Table.ext
    simp only [Table.filter, List.filter_filter]
    refine List.filter_congr fun task _ => ?_
    by_cases early : task.taskId ∈ ids <;> simp [early]
  count_eq := by
    have all := (before.flying_append ids').length_eq
    rw [List.length_append] at all
    rw [before.count_eq, after.count_eq]
    omega
  rest := by
    have first := before.rest
    have second := after.rest
    rw [← second] at first
    exact first

/-- The one row under a key. -/
theorem flying_of_find? {id : String} {task : Task} (found : qm.inFlight.find? id = some task) :
    qm.flying [id] = [task] := by
  refine List.perm_singleton.mp ((List.perm_ext_iff_of_nodup ?_ (List.nodup_singleton _)).mpr ?_)
  · exact (List.Nodup.of_map _ qm.inFlight.nodup).filter _
  · intro other
    simp only [flying, List.mem_filter, List.mem_singleton, decide_eq_true_eq]
    constructor
    · rintro ⟨inside, isId⟩
      refine qm.inFlight.eq_of_key_eq inside (Table.mem_of_find? found) ?_
      rw [Table.key_of_find? found, isId]
    · rintro rfl
      exact ⟨Table.mem_of_find? found, Table.key_of_find? found⟩

/-- One `requeue_by_id`. -/
theorem requeueById_moves (qm : QueueManager) (id : String) :
    MovesToFront [id] (if (qm.requeueById id).1 then 1 else 0) qm (qm.requeueById id).2 := by
  cases found : qm.inFlight.find? id with
  | none =>
    rw [requeueById_of_absent found]
    refine .nothing (List.filter_eq_nil_iff.mpr fun task inside => ?_)
    simpa using Table.find?_eq_none.mp found task inside
  | some task =>
    have ledger := ledger_requeueById found
    have isFlying := flying_of_find? found
    have evaluated : qm.requeueById id =
        (true, QueueManager.appendLeft { qm with inFlight := qm.inFlight.erase id }
          task.release) := by
      simp [requeueById, found]
    exact {
      fronts := by
        intro name
        rw [evaluated, isFlying]
        simp only [deque_appendLeft, Task.release_queueName]
        by_cases own : name = task.queueName.key
        · exact ⟨[task.release], by simp [own, deque], by simp [own]⟩
        · exact ⟨[], by simp [own, deque], by simp [Ne.symm own]⟩
      pending := by
        have pending := congrArg Ledger.pending ledger
        rw [isFlying]
        exact pending
      inFlight := by
        rw [evaluated]
        simp only [appendLeft_inFlight]
        exact Table.ext (List.filter_congr fun other _ => by simp)
      count_eq := by
        rw [evaluated, isFlying]
        rfl
      rest := by
        rw [evaluated]
        unfold appendLeft ensureQueue
        split <;> rfl }

theorem requeueAll_moves (ids : List String) (qm : QueueManager) :
    MovesToFront ids (requeueAll ids qm).1 qm (requeueAll ids qm).2 := by
  induction ids generalizing qm with
  | nil => exact .nothing (by simp [flying])
  | cons id rest ih =>
    have moves := (requeueById_moves qm id).trans (ih (qm.requeueById id).2)
    have count_eq : (requeueAll (id :: rest) qm).1 =
        (if (qm.requeueById id).1 then 1 else 0) + (requeueAll rest (qm.requeueById id).2).1 := by
      rw [requeueAll]
      simp only
      split <;> omega
    rw [count_eq]
    exact moves

/-- The ids that the workers have. -/
def trackedBy (workers : List WorkerInfo) : List String := workers.flatMap WorkerInfo.inFlightTasks

/-- The part of the pass after its critical section, up to the first worker whose id cannot be
sliced. -/
theorem evictEach_moves (order : SetOrder) (workers : List WorkerInfo) (registry : WorkerRegistry)
    (qm : QueueManager) :
    ∃ count, MovesToFront (trackedBy (processed workers)) count qm
        (evictEach order workers (registry, qm)).2.2 ∧
      (evictEach order workers (registry, qm)).2.1 =
        { registry with
          totalTasksReassigned := registry.totalTasksReassigned + count
          totalEvictions := registry.totalEvictions + (processed workers).length } := by
  induction workers generalizing registry qm with
  | nil => exact ⟨0, .nothing (by simp [flying, trackedBy, processed]), rfl⟩
  | cons worker rest ih =>
    by_cases sliceable : worker.workerId.toJson.sliceable = true
    · have head := (requeueAll_moves (order.iter worker.inFlightTasks) qm).congr
        fun id => (order.perm worker.inFlightTasks).mem_iff
      obtain ⟨count, tail, registry_eq⟩ := ih
        { registry with
          totalTasksReassigned := registry.totalTasksReassigned +
            (requeueAll (order.iter worker.inFlightTasks) qm).1
          totalEvictions := registry.totalEvictions + 1 }
        (requeueAll (order.iter worker.inFlightTasks) qm).2
      have processed_cons : processed (worker :: rest) = worker :: processed rest := by
        simp [processed, sliceable]
      simp only [evictEach, sliceable, if_true, processed_cons]
      refine ⟨_, head.trans tail, ?_⟩
      rw [registry_eq]
      simp only [List.length_cons]
      congr 1 <;> omega
    · have processed_cons : processed (worker :: rest) = [] := by simp [processed, sliceable]
      simp only [evictEach, sliceable, processed_cons]
      exact ⟨0, .nothing (by simp [flying, trackedBy]), rfl⟩

end Moves

end QueueManager

/-- The tasks in flight that a worker is recorded to have who is taken for dead. -/
def evictedTasks (now : Rat) (registry : WorkerRegistry) (qm : QueueManager) : List Task :=
  qm.flying (QueueManager.trackedBy (registry.deadWorkers now))

/-- What is expected of an eviction pass: exactly the silent workers go; each task in flight
that one of them has goes to the front of its own queue, released and pending once; the rest
of the queue manager stays; the statistics count the tasks and the workers. -/
structure EvictsProperly (now : Rat) (registry : WorkerRegistry) (qm : QueueManager)
    (registry' : WorkerRegistry) (qm' : QueueManager) : Prop where
  workers : ∀ worker, worker ∈ registry'.workers ↔
    worker ∈ registry.workers ∧ ¬6 < now - worker.lastHeartbeat
  fronts : ∀ name, ∃ front : List Task, qm'.deque name = front ++ qm.deque name ∧
    front.Perm (((evictedTasks now registry qm).filter fun task =>
      task.queueName.key = name).map Task.release)
  once : ∀ task ∈ evictedTasks now registry qm,
    (qm'.pending.map Task.taskId).count task.taskId = 1
  inFlight : ∀ task, task ∈ qm'.inFlight ↔
    task ∈ qm.inFlight ∧ task ∉ evictedTasks now registry qm
  rest : { qm' with queues := qm.queues, inFlight := qm.inFlight } = qm
  reassigned : registry'.totalTasksReassigned =
    registry.totalTasksReassigned + (evictedTasks now registry qm).length
  evictions : registry'.totalEvictions =
    registry.totalEvictions + (registry.deadWorkers now).length

/-- Every worker that is taken for dead has a string for an id, and no task that goes back to
its queue has the id of a task that is pending already. -/
def Evictable (now : Rat) (registry : WorkerRegistry) (qm : QueueManager) : Prop :=
  (∀ worker ∈ registry.workers, 6 < now - worker.lastHeartbeat →
    ∃ text, worker.workerId = .str text) ∧
  ∀ task ∈ evictedTasks now registry qm, task.taskId ∉ qm.pending.map Task.taskId

section Pass

open QueueManager

variable {order : SetOrder} {now : Rat} {registry : WorkerRegistry} {qm qm' : QueueManager}

theorem expired_iff {worker : WorkerInfo} :
    WorkerRegistry.expired now worker = true ↔ 6 < now - worker.lastHeartbeat := by
  rw [WorkerRegistry.expired, decide_eq_true_eq]
  rfl

theorem mem_deadWorkers {worker : WorkerInfo} :
    worker ∈ registry.deadWorkers now ↔
      worker ∈ registry.workers ∧ 6 < now - worker.lastHeartbeat := by
  rw [WorkerRegistry.deadWorkers, List.mem_filter, expired_iff, Table.mem_rows]

theorem sliceable_iff (id : Scalar) : id.toJson.sliceable = true ↔ ∃ text, id = .str text := by
  cases id <;> simp [Scalar.toJson, Json.sliceable]

/-- The pass gets to every dead worker exactly if all of them have strings for ids. -/
theorem processed_eq_iff :
    processed (registry.deadWorkers now) = registry.deadWorkers now ↔
      ∀ worker ∈ registry.workers, 6 < now - worker.lastHeartbeat →
        ∃ text, worker.workerId = .str text := by
  unfold processed
  rw [List.takeWhile_eq_self_iff]
  constructor
  · intro all worker stored silent
    exact (sliceable_iff _).mp (all worker (mem_deadWorkers.mpr ⟨stored, silent⟩))
  · intro all worker dead
    obtain ⟨stored, silent⟩ := mem_deadWorkers.mp dead
    exact (sliceable_iff _).mpr (all worker stored silent)

/-- A task that moves is pending once more than its id was before. -/
theorem count_pending_of_moves {ids : List String} {n : Nat} (moves : MovesToFront ids n qm qm')
    {task : Task} (flies : task ∈ qm.flying ids) :
    (qm'.pending.map Task.taskId).count task.taskId =
      1 + (qm.pending.map Task.taskId).count task.taskId := by
  have nodup : ((qm.flying ids).map Task.taskId).Nodup :=
    qm.inFlight.nodup.sublist (List.filter_sublist.map _)
  have once : ((qm.flying ids).map Task.taskId).count task.taskId = 1 :=
    List.count_eq_one_of_mem nodup (List.mem_map_of_mem flies)
  have ids_eq := congrArg (Multiset.map Task.taskId) moves.pending
  rw [Multiset.map_add, Multiset.map_coe, Multiset.map_coe, Multiset.map_coe,
    List.map_map] at ids_eq
  have counts := congrArg (Multiset.count task.taskId) ids_eq
  rw [Multiset.count_add, Multiset.coe_count, Multiset.coe_count, Multiset.coe_count] at counts
  rw [counts, ← once]
  rfl

/-- **An eviction pass is correct** exactly if every worker that is taken for dead has a string
for an id, and no task it requeues is pending already. -/
theorem evictDeadWorkers_proper_iff (order : SetOrder) (now : Rat) (registry : WorkerRegistry)
    (qm : QueueManager) :
    EvictsProperly now registry qm (evictDeadWorkers order now registry qm).2.1
        (evictDeadWorkers order now registry qm).2.2 ↔
      Evictable now registry qm := by
  obtain ⟨count, moves, registry_eq⟩ :=
    evictEach_moves order (registry.deadWorkers now) (registry.dropDead now) qm
  unfold evictDeadWorkers
  rw [registry_eq]
  constructor
  · intro proper
    have same : (processed (registry.deadWorkers now)).length =
        (registry.deadWorkers now).length := Nat.add_left_cancel proper.evictions
    have complete : processed (registry.deadWorkers now) = registry.deadWorkers now :=
      (List.takeWhile_prefix _).eq_of_length same
    refine ⟨processed_eq_iff.mp complete, fun task evicted => ?_⟩
    rw [complete] at moves
    have once := proper.once task evicted
    rw [count_pending_of_moves moves evicted] at once
    exact List.count_eq_zero.mp (by omega)
  · rintro ⟨strings, fresh⟩
    rw [processed_eq_iff.mpr strings] at moves ⊢
    exact {
      workers := by
        intro worker
        change worker ∈ registry.workers.filter _ ↔ _
        rw [Table.mem_filter, ← expired_iff]
        simp
      fronts := moves.fronts
      once := by
        intro task evicted
        rw [count_pending_of_moves moves evicted, List.count_eq_zero.mpr (fresh task evicted)]
      inFlight := by
        intro task
        rw [moves.inFlight, Table.mem_filter, evictedTasks, flying, List.mem_filter]
        simp only [decide_eq_true_eq, Table.mem_rows]
        tauto
      rest := moves.rest
      reassigned := by
        rw [moves.count_eq]
        rfl
      evictions := rfl }

end Pass

/-- The worker `1` has the task `"a"`. -/
def numberedRegistry : WorkerRegistry :=
  (({} : WorkerRegistry).register (.int 1) (.arr []) 0).2.assignTask (.num 1) "a" 0

/-- The task `"a"` is in flight. -/
def oneInFlight : QueueManager :=
  ((({} : QueueManager).enqueue "a" 0 (.str "q") .null).dequeue (.str "q") (.int 1)).2

/-- **A worker whose id is a number is removed and nothing else.**  The log line of the pass
slices the id, which raises after the worker left the registry: its task stays in flight with
no one left to be evicted for it, and neither statistic moves. -/
theorem numbered_worker_strands_task :
    (numberedRegistry.deadWorkers 10).length = 1 ∧
      (evictDeadWorkers .insertion 10 numberedRegistry oneInFlight).2.1.workers.rows.length = 0 ∧
      (evictDeadWorkers .insertion 10 numberedRegistry oneInFlight).2.1.totalEvictions = 0 ∧
      (evictDeadWorkers .insertion 10 numberedRegistry oneInFlight).2.2.inFlight.keys = ["a"] ∧
      ¬EvictsProperly 10 numberedRegistry oneInFlight
        (evictDeadWorkers .insertion 10 numberedRegistry oneInFlight).2.1
        (evictDeadWorkers .insertion 10 numberedRegistry oneInFlight).2.2 := by
  have dead : (numberedRegistry.deadWorkers 10).length = 1 := by decide +kernel
  have uncounted :
      (evictDeadWorkers .insertion 10 numberedRegistry oneInFlight).2.1.totalEvictions = 0 := by
    decide +kernel
  refine ⟨dead, by decide +kernel, uncounted, by decide +kernel, fun proper => ?_⟩
  have counted := proper.evictions
  rw [uncounted, dead] at counted
  simp at counted

end DistroSync
