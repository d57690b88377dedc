import DistroSync.QueueManager

/-!
# The worker registry

`broker/worker_registry.py`: which workers are known, when they were last heard of,
which task ids each of them is thought to be working on, and the eviction pass that
takes tasks away from workers that fell silent.

The ids a worker tracks are a Python `set`, whose iteration order is unspecified;
`evict_dead_workers` runs over it while requeueing at the front, so the order is
visible in the queues.  A `SetOrder` is one such order, and the pass takes it as an
argument.
-/

namespace DistroSync

open Keyed Py

/-- `HEARTBEAT_TIMEOUT_SECONDS`. -/
def heartbeatTimeoutSeconds : Rat := 6

/-- The number of latencies kept per queue, `deque(maxlen=100)`. -/
def latencyWindow : Nat := 100

/-- `WorkerInfo.status`. -/
inductive WorkerStatus where
  | active
  | evicted
  deriving DecidableEq

/-- `WorkerInfo`. -/
structure WorkerInfo where
  workerId : Scalar
  /-- The `queues` value of the REGISTER message, of whatever type. -/
  queues : Json := .arr []
  registeredAt : Rat
  lastHeartbeat : Rat
  inFlightTasks : List String := []
  taskStartTimes : Table (Prod.fst : String × Rat → String) := Table.empty
  status : WorkerStatus := .active

/-- What a worker is stored under. -/
def WorkerInfo.key (worker : WorkerInfo) : Key := worker.workerId.key

/-- `WorkerRegistry`. -/
structure WorkerRegistry where
  workers : Table WorkerInfo.key := Table.empty
  queueLatencies : Table (Prod.fst : Key × List Rat → Key) := Table.empty
  totalEvictions : Nat := 0
  totalTasksReassigned : Nat := 0

/-- An iteration order for sets of task ids. -/
structure SetOrder where
  iter : List String → List String
  perm : ∀ ids, (iter ids).Perm ids

/-- Oldest member first. -/
def SetOrder.insertion : SetOrder := ⟨id, fun _ => List.Perm.refl _⟩

namespace WorkerInfo

/-- `in_flight_tasks.add(task_id)` and `task_start_times[task_id] = now`. -/
def track (worker : WorkerInfo) (taskId : String) (now : Rat) : WorkerInfo :=
  { worker with
    inFlightTasks := worker.inFlightTasks.insert taskId
    taskStartTimes := worker.taskStartTimes.put (taskId, now) }

/-- `in_flight_tasks.discard(task_id)` and `task_start_times.pop(task_id, None)`. -/
def untrack (worker : WorkerInfo) (taskId : String) : WorkerInfo :=
  { worker with
    inFlightTasks := worker.inFlightTasks.filter fun other => other ≠ taskId
    taskStartTimes := worker.taskStartTimes.erase taskId }

/-- `record_heartbeat`'s update. -/
def beat (worker : WorkerInfo) (now : Rat) : WorkerInfo :=
  { worker with lastHeartbeat := now, status := .active }

@[simp] theorem key_track (worker : WorkerInfo) (taskId : String) (now : Rat) :
    (worker.track taskId now).key = worker.key := rfl

@[simp] theorem key_untrack (worker : WorkerInfo) (taskId : String) :
    (worker.untrack taskId).key = worker.key := rfl

@[simp] theorem key_beat (worker : WorkerInfo) (now : Rat) : (worker.beat now).key = worker.key :=
  rfl

theorem mem_track {worker : WorkerInfo} {taskId other : String} {now : Rat} :
    other ∈ (worker.track taskId now).inFlightTasks ↔
      other = taskId ∨ other ∈ worker.inFlightTasks := by
  simp [track, List.mem_insert_iff]

theorem mem_untrack {worker : WorkerInfo} {taskId other : String} :
    other ∈ (worker.untrack taskId).inFlightTasks ↔
      other ∈ worker.inFlightTasks ∧ other ≠ taskId := by
  simp [untrack]

end WorkerInfo

namespace WorkerRegistry

/-- `register`: always a new `WorkerInfo`, also for an id that is already registered. -/
def register (registry : WorkerRegistry) (workerId : Scalar) (queues : Json) (now : Rat) :
    Bool × WorkerRegistry :=
  let worker : WorkerInfo :=
    { workerId
      queues := if queues.truthy then queues else .arr []
      registeredAt := now
      lastHeartbeat := now }
  ((registry.workers.find? workerId.key).isNone,
    { registry with workers := registry.workers.put worker })

/-- `record_heartbeat`. -/
def recordHeartbeat (registry : WorkerRegistry) (worker : Key) (now : Rat) :
    Bool × WorkerRegistry :=
  match registry.workers.find? worker with
  | none => (false, registry)
  | some info => (true, { registry with workers := registry.workers.put (info.beat now) })

/-- `assign_task`: nothing happens for a worker that is not registered. -/
def assignTask (registry : WorkerRegistry) (worker : Key) (taskId : String) (now : Rat) :
    WorkerRegistry :=
  match registry.workers.find? worker with
  | none => registry
  | some info => { registry with workers := registry.workers.put (info.track taskId now) }

/-- `_record_latency`. -/
def recordLatency (registry : WorkerRegistry) (queue : Key) (latencyMs : Rat) : WorkerRegistry :=
  let samples := ((registry.queueLatencies.find? queue).map Prod.snd).getD []
  let samples := samples ++ [latencyMs]
  { registry with
    queueLatencies :=
      registry.queueLatencies.put (queue, samples.drop (samples.length - latencyWindow)) }

/-- `for queue_name in worker.queues: self._record_latency(queue_name, latency_ms)`; an
unhashable name stops the loop. -/
def recordLatencies (latencyMs : Rat) :
    List Json → WorkerRegistry → Except Error Unit × WorkerRegistry
  | [], registry => (.ok (), registry)
  | name :: rest, registry =>
    match name.key? with
    | none => (.error .typeError, registry)
    | some queue => recordLatencies latencyMs rest (registry.recordLatency queue latencyMs)

/-- `complete_task`.  It raises when the worker's `queues` value cannot be iterated or
holds an unhashable name, after the id has been removed from the worker. -/
def completeTask (registry : WorkerRegistry) (worker : Key) (taskId : String) (now : Rat) :
    Except Error Unit × WorkerRegistry :=
  match registry.workers.find? worker with
  | none => (.ok (), registry)
  | some info =>
    let registry := { registry with workers := registry.workers.put (info.untrack taskId) }
    match info.taskStartTimes.find? taskId with
    | none => (.ok (), registry)
    | some (_, start) =>
      match info.queues.items? with
      | none => (.error .typeError, registry)
      | some names => recordLatencies ((now - start) * 1000) names registry

section Latencies

variable (latencyMs : Rat)

@[simp] theorem recordLatencies_workers (names : List Json) (registry : WorkerRegistry) :
    (recordLatencies latencyMs names registry).2.workers = registry.workers := by
  induction names generalizing registry with
  | nil => rfl
  | cons name rest ih =>
    unfold recordLatencies
    cases name.key? with
    | none => rfl
    | some queue => exact ih _

/-- The loop completes on hashable names. -/
theorem recordLatencies_ok {names : List Json} (hashable : ∀ name ∈ names, name.key?.isSome = true)
    (registry : WorkerRegistry) : (recordLatencies latencyMs names registry).1 = .ok () := by
  induction names generalizing registry with
  | nil => rfl
  | cons name rest ih =>
    obtain ⟨queue, isKey⟩ := Option.isSome_iff_exists.mp (hashable name (by simp))
    simp only [recordLatencies, isKey]
    exact ih (fun other later => hashable other (List.mem_cons_of_mem _ later)) _

end Latencies

/-- However `complete_task` ends, the worker no longer has the task. -/
theorem completeTask_workers (registry : WorkerRegistry) (worker : Key) (taskId : String)
    (now : Rat) :
    (registry.completeTask worker taskId now).2.workers =
      match registry.workers.find? worker with
      | none => registry.workers
      | some info => registry.workers.put (info.untrack taskId) := by
  unfold completeTask
  cases registry.workers.find? worker with
  | none => rfl
  | some info =>
    simp only
    cases info.taskStartTimes.find? taskId with
    | none => rfl
    | some entry =>
      cases info.queues.items? with
      | none => rfl
      | some names => simp

/-- Whether the eviction pass at time `now` takes the worker for dead. -/
def expired (now : Rat) (worker : WorkerInfo) : Bool :=
  heartbeatTimeoutSeconds < now - worker.lastHeartbeat

/-- The workers that `evict_dead_workers` removes at time `now`. -/
def deadWorkers (registry : WorkerRegistry) (now : Rat) : List WorkerInfo :=
  registry.workers.rows.filter (expired now)

/-- The critical section of `evict_dead_workers`. -/
def dropDead (registry : WorkerRegistry) (now : Rat) : WorkerRegistry :=
  { registry with workers := registry.workers.filter fun worker => !expired now worker }

end WorkerRegistry

/-- `for task_id in info.in_flight_tasks: requeue_by_id(task_id)`, counting the tasks that
were found in flight. -/
def requeueAll : List String → QueueManager → Nat × QueueManager
  | [], qm => (0, qm)
  | taskId :: rest, qm =>
    let (found, qm) := qm.requeueById taskId
    let (count, qm) := requeueAll rest qm
    ((if found then count + 1 else count), qm)

/-- The part of `evict_dead_workers` after its critical section.  The log line slices the
worker id, which raises for an id that is not a string. -/
def evictEach (order : SetOrder) :
    List WorkerInfo → WorkerRegistry × QueueManager →
      Except Error Unit × WorkerRegistry × QueueManager
  | [], state => (.ok (), state)
  | worker :: rest, (registry, qm) =>
    if worker.workerId.toJson.sliceable then
      let (count, qm) := requeueAll (order.iter worker.inFlightTasks) qm
      evictEach order rest
        ({ registry with
           totalTasksReassigned := registry.totalTasksReassigned + count
           totalEvictions := registry.totalEvictions + 1 }, qm)
    else (.error .typeError, registry, qm)

/-- `evict_dead_workers`. -/
def evictDeadWorkers (order : SetOrder) (now : Rat) (registry : WorkerRegistry)
    (qm : QueueManager) : Except Error Unit × WorkerRegistry × QueueManager :=
  evictEach order (registry.deadWorkers now) (registry.dropDead now, qm)

namespace WorkerRegistry

/-- `average_latency_ms`. -/
def averageLatencyMs (registry : WorkerRegistry) (queue : Key) : Rat :=
  match (registry.queueLatencies.find? queue).map Prod.snd with
  | none => 0
  | some [] => 0
  | some samples => samples.sum / samples.length

/-- `get_active_workers`. -/
def getActiveWorkers (registry : WorkerRegistry) : List WorkerInfo :=
  registry.workers.rows.filter fun worker => worker.status = .active

/-- A worker's entry in `get_stats`. -/
structure WorkerStats where
  worker : Scalar
  status : WorkerStatus
  queues : Json
  lastHeartbeat : Rat
  inFlightTasks : Nat

/-- `get_stats`. -/
structure Stats where
  totalWorkers : Nat
  activeWorkers : Nat
  totalEvictions : Nat
  totalTasksReassigned : Nat
  /-- Queue, `average_ms` and `sample_count`. -/
  queueLatencies : List (Key × Rat × Nat)
  workers : List WorkerStats

/-- `get_stats`. -/
def getStats (registry : WorkerRegistry) : Stats where
  totalWorkers := registry.workers.rows.length
  activeWorkers := registry.getActiveWorkers.length
  totalEvictions := registry.totalEvictions
  totalTasksReassigned := registry.totalTasksReassigned
  queueLatencies := registry.queueLatencies.rows.map fun entry =>
    (entry.1, registry.averageLatencyMs entry.1, entry.2.length)
  workers := registry.workers.rows.map fun info =>
    { worker := info.workerId
      status := info.status
      queues := info.queues
      lastHeartbeat := info.lastHeartbeat
      inFlightTasks := info.inFlightTasks.length }

end WorkerRegistry

end DistroSync
