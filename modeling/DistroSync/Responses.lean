import DistroSync.Server
import DistroSync.Wire

/-!
# Responses as dictionaries

The dictionaries that the handlers of `broker/server.py` return, field by field in the order
of the source, with the parts of STATS and METRICS that the `get_stats` methods and
`_get_metrics_snapshot` assemble.

What matters about them beyond their fields is how deep they are: the payload of a task
stands two levels deep in the response that hands it out, and three levels deep in a listing
of dead letters, and a response that is nested too deeply cannot be written.
-/

namespace DistroSync

open Keyed Py

/-! ## Names -/

/-- The `action` field of a NACK response. -/
def NackAction.name : NackAction → String
  | .requeued => "requeued"
  | .deadLettered => "dead_lettered"

/-- The `status` of a task. -/
def TaskStatus.name : TaskStatus → String
  | .pending => "pending"
  | .inFlight => "in_flight"
  | .done => "done"
  | .deadLettered => "dead_lettered"

/-- The `status` of a worker. -/
def WorkerStatus.name : WorkerStatus → String
  | .active => "active"
  | .evicted => "evicted"

/-- A count, as a value. -/
def natJson (n : Nat) : Json := .int n

/-- `{"status": "error", "reason": reason}`. -/
def errorReply (reason : String) : Json := .obj [("status", .str "error"), ("reason", .str reason)]

/-! ## Tasks -/

/-- The `task` of a CONSUME response. -/
def Delivery.toJson (task : Delivery) : Json :=
  .obj [("task_id", .str task.taskId), ("queue_name", task.queueName.toJson),
    ("payload", task.payload), ("attempts", natJson task.attempts)]

/-- A number of seconds, if there is one. -/
def secondsOrNone : Option Rat → Json
  | some seconds => .float seconds
  | none => .null

/-- An entry of a DLQ_LIST response: a dictionary of `peek`, or a row of the table. -/
def DlqEntry.toJson (entry : DlqEntry) : Json :=
  let shared := [("task_id", .str entry.taskId), ("queue_name", entry.queueName),
    ("payload", entry.payload)]
  match entry.status with
  | some status =>
    .obj (shared ++ [("attempts", natJson entry.attempts), ("status", .str status.name),
      ("dead_lettered_at", secondsOrNone entry.deadLetteredAt)])
  | none =>
    .obj (shared ++ [("final_error", .str (entry.finalError.getD "")),
      ("attempts", natJson entry.attempts),
      ("dead_lettered_at", secondsOrNone entry.deadLetteredAt)])

/-! ## Statistics -/

section Reports

variable (wire : Wire)

/-- A dictionary by queue or by worker. -/
def byKey {α : Type} (key : α → Key) (value : α → Json) (entries : List α) : Json :=
  .obj (entries.map fun entry => (wire.keyText (key entry), value entry))

/-- A dictionary of counters by queue. -/
def countsByQueue (counts : List (Key × Nat)) : Json :=
  byKey wire Prod.fst (fun entry => natJson entry.2) counts

/-- `DeadLetterQueue.get_stats`. -/
def DeadLetterStats.toJson (stats : DeadLetterStats) : Json :=
  .obj [("current_size", natJson stats.currentSize),
    ("total_received", natJson stats.totalReceived),
    ("total_retried", natJson stats.totalRetried), ("total_purged", natJson stats.totalPurged)]

/-- `QueueManager.get_stats`. -/
def QueueManagerStats.toJson (stats : QueueManagerStats) : Json :=
  .obj [("total_enqueued", natJson stats.totalEnqueued),
    ("total_dequeued", natJson stats.totalDequeued), ("total_acked", natJson stats.totalAcked),
    ("total_nacked", natJson stats.totalNacked),
    ("total_dead_lettered", natJson stats.totalDeadLettered), ("in_flight", natJson stats.inFlight),
    ("max_retries", natJson stats.maxRetries), ("queues", countsByQueue wire stats.queues),
    ("dlq", stats.dlq.toJson)]

/-- `WorkerRegistry.get_stats`. -/
def WorkerRegistry.Stats.toJson (stats : WorkerRegistry.Stats) : Json :=
  .obj [("total_workers", natJson stats.totalWorkers),
    ("active_workers", natJson stats.activeWorkers),
    ("total_evictions", natJson stats.totalEvictions),
    ("total_tasks_reassigned", natJson stats.totalTasksReassigned),
    ("queue_latencies", byKey wire Prod.fst
      (fun entry => .obj [("average_ms", .float entry.2.1), ("sample_count", natJson entry.2.2)])
      stats.queueLatencies),
    ("workers", byKey wire (fun worker => worker.worker.key)
      (fun worker => .obj [("status", .str worker.status.name), ("queues", worker.queues),
        ("last_heartbeat", .float worker.lastHeartbeat),
        ("in_flight_tasks", natJson worker.inFlightTasks)]) stats.workers)]

/-- `AdaptiveLoadShedder.get_stats`. -/
def LoadShedder.Stats.toJson (stats : LoadShedder.Stats) : Json :=
  .obj [("total_allowed", natJson stats.totalAllowed),
    ("total_rejected", natJson stats.totalRejected), ("rejection_rate", .float stats.rejectionRate),
    ("buckets", byKey wire LoadShedder.BucketStats.queue
      (fun bucket => .obj [("tokens", .float bucket.tokens), ("capacity", .float bucket.capacity),
        ("adjusted_rate", .float bucket.adjustedRate)]) stats.buckets)]

/-- `MetricsCollector.get_stats`. -/
def MetricsCollector.Stats.toJson (stats : MetricsCollector.Stats) : Json :=
  .obj [("total_produced", countsByQueue wire stats.totalProduced),
    ("total_consumed", countsByQueue wire stats.totalConsumed),
    ("total_acked", countsByQueue wire stats.totalAcked),
    ("total_nacked", countsByQueue wire stats.totalNacked),
    ("total_dlq", countsByQueue wire stats.totalDlq),
    ("uptime_seconds", .float stats.uptimeSeconds),
    ("tracked_in_flight", natJson stats.trackedInFlight)]

/-- `WALStore.get_stats`: SQLite returns a group for each status that occurs, in the order of
their names. -/
def Database.Stats.toJson (stats : Database.Stats) : Json :=
  let groups := [(TaskStatus.done, stats.done), (.inFlight, stats.inFlight),
    (.pending, stats.pending)]
  .obj [("tasks_by_status", .obj ((groups.filter fun group => group.2 ≠ 0).map fun group =>
      (group.1.name, natJson group.2))),
    ("dlq_count", natJson stats.dlqCount), ("db_path", .str wire.dbPath)]

/-- The dictionary that `_handle_stats` returns. -/
def StatsReport.toJson (report : StatsReport) : Json :=
  let always := [("status", .str "ok"), ("queue_manager", report.queueManager.toJson wire),
    ("worker_registry", report.workerRegistry.toJson wire),
    ("load_shedder", report.loadShedder.toJson wire), ("metrics", report.metrics.toJson wire),
    ("active_connections", natJson report.activeConnections)]
  match report.walStore with
  | none => .obj always
  | some stats => .obj (always ++ [("wal_store", stats.toJson wire)])

/-- A queue's entry in `snapshot`. -/
def MetricsCollector.QueueSnapshot.toJson (entry : MetricsCollector.QueueSnapshot) : Json :=
  .obj [("depth", natJson entry.depth), ("produce_rate", .float entry.produceRate),
    ("throughput_per_second", .float entry.throughputPerSecond),
    ("p50_latency_ms", .float entry.p50LatencyMs), ("p95_latency_ms", .float entry.p95LatencyMs),
    ("p99_latency_ms", .float entry.p99LatencyMs), ("total_produced", natJson entry.totalProduced),
    ("total_acked", natJson entry.totalAcked), ("total_nacked", natJson entry.totalNacked)]

/-- The dictionary that `_get_metrics_snapshot` returns. -/
def MetricsReport.toJson (report : MetricsReport) : Json :=
  .obj [("queues", byKey wire MetricsCollector.QueueSnapshot.queue
      MetricsCollector.QueueSnapshot.toJson report.queues),
    ("broker", .obj [("uptime_seconds", .float report.uptimeSeconds),
      ("tracked_in_flight", natJson report.trackedInFlight),
      ("in_flight_tasks", natJson report.inFlightTasks),
      ("active_connections", natJson report.activeConnections)]),
    ("status", .str "ok"),
    ("workers", .obj [("active", .arr (report.activeWorkers.map fun worker =>
        .obj [("id", worker.toJson), ("latency_ms", .int 0), ("status", .str "active")])),
      ("evicted_count", natJson report.evictedCount)]),
    ("dlq", .obj [("total_tasks", natJson report.dlqTotalTasks)]),
    ("load_shedder", report.loadShedder.toJson wire)]

/-- The dictionary that a handler returns. -/
def Response.toJson : Response → Json
  | .error reason => errorReply reason
  | .rateLimited retryAfterSeconds reason =>
    .obj [("status", .str "rate_limited"), ("retry_after_seconds", .float retryAfterSeconds),
      ("reason", .str reason)]
  | .produced taskId => .obj [("status", .str "ok"), ("task_id", .str taskId)]
  | .consumed task => .obj [("status", .str "ok"), ("task", task.toJson)]
  | .empty => .obj [("status", .str "empty")]
  | .registered isNew message =>
    .obj [("status", .str "ok"), ("registered", .bool isNew), ("message", .str message)]
  | .heartbeat => .obj [("status", .str "ok")]
  | .acknowledged message => .obj [("status", .str "ok"), ("message", .str message)]
  | .negativeAcknowledged action attempts message =>
    .obj [("status", .str "ok"), ("action", .str action.name), ("attempts", natJson attempts),
      ("message", .str message)]
  | .dlqList size tasks =>
    .obj [("status", .str "ok"), ("count", natJson size),
      ("tasks", .arr (tasks.map DlqEntry.toJson))]
  | .replayed originalTaskId newTaskId =>
    .obj [("status", .str "ok"), ("action", .str "replayed"),
      ("original_task_id", .str originalTaskId), ("new_task_id", .str newTaskId)]
  | .purged size => .obj [("status", .str "ok"), ("action", .str "purged"), ("count", natJson size)]
  | .stats report => report.toJson wire
  | .metrics report => report.toJson wire

end Reports

/-! ## How deep a response is -/

section Depth

variable (wire : Wire)

/-- An empty queue is reported. -/
theorem Wire.sendable_empty : wire.Sendable (Response.empty.toJson wire) :=
  ⟨wire.replyDepth_pos, wire.jsonText_empty⟩

/-- The responses that hold nothing a client has nested. -/
def Response.Flat : Response → Prop
  | .consumed _ => False
  | .dlqList _ _ => False
  | .stats _ => False
  | .metrics _ => False
  | _ => True

/-- A response without a task in it is one dictionary. -/
theorem Response.depth_of_flat {response : Response} (flat : response.Flat) :
    (response.toJson wire).depth = 1 := by
  cases response with
  | consumed task => exact flat.elim
  | dlqList size tasks => exact flat.elim
  | stats report => exact flat.elim
  | metrics report => exact flat.elim
  | _ => rfl

/-- A payload stands two levels deep in the response that hands it out: one level deeper than
in the request that brought it. -/
theorem Response.depth_consumed (task : Delivery) :
    ((Response.consumed task).toJson wire).depth = task.payload.depth + 2 := by
  simp [Response.toJson, Delivery.toJson, Json.depth, depthFields, natJson]

end Depth

end DistroSync
