import DistroSync.QueueManager

/-!
# The metrics collector

`broker/metrics_collector.py`: event timestamps for sliding-window rates, latency
samples, and lifetime counters, all by queue.
-/

namespace DistroSync

open Keyed Py

/-- A `defaultdict` with counters. -/
abbrev Counters := Table (Prod.fst : Key × Nat → Key)

/-- A `defaultdict` with deques of times or latencies. -/
abbrev Samples := Table (Prod.fst : Key × List Rat → Key)

/-- `counters[key] += 1`. -/
def Counters.bump (counters : Counters) (queue : Key) : Counters :=
  counters.put (queue, ((counters.find? queue).map Prod.snd).getD 0 + 1)

/-- `counters.get(key, 0)`. -/
def Counters.count (counters : Counters) (queue : Key) : Nat :=
  ((counters.find? queue).map Prod.snd).getD 0

/-- The samples of a queue. -/
def Samples.at (samples : Samples) (queue : Key) : List Rat :=
  ((samples.find? queue).map Prod.snd).getD []

/-- `samples[key].append(value)`, where the deque keeps at most `window` values. -/
def Samples.push (samples : Samples) (queue : Key) (value : Rat) (window : Option Nat) : Samples :=
  let values := Samples.at samples queue ++ [value]
  match window with
  | none => samples.put (queue, values)
  | some n => samples.put (queue, values.drop (values.length - n))

section Containers

/-- A `defaultdict(int)` counts one queue at a time. -/
theorem Counters.count_bump (counters : Counters) (queue other : Key) :
    Counters.count (Counters.bump counters queue) other =
      Counters.count counters other + if other = queue then 1 else 0 := by
  unfold Counters.count Counters.bump
  by_cases same : other = queue
  · subst same
    have stored := Table.find?_put_self counters
      (other, ((counters.find? other).map Prod.snd).getD 0 + 1)
    simp only at stored
    simp [stored]
  · simp [Table.find?_put_of_ne counters
      (v := (queue, ((counters.find? queue).map Prod.snd).getD 0 + 1)) same, same]

theorem Samples.at_of_absent {samples : Samples} {queue : Key}
    (absent : samples.find? queue = none) : Samples.at samples queue = [] := by
  simp [Samples.at, absent]

theorem Samples.at_of_present {samples : Samples} {queue name : Key} {values : List Rat}
    (present : samples.find? queue = some (name, values)) : Samples.at samples queue = values := by
  simp [Samples.at, present]

theorem Samples.at_put_self (samples : Samples) (queue : Key) (values : List Rat) :
    Samples.at (samples.put (queue, values)) queue = values := by
  have stored := Table.find?_put_self samples (queue, values)
  simp only at stored
  simp [Samples.at, stored]

theorem Samples.at_put_of_ne (samples : Samples) {queue other : Key} (ne : other ≠ queue)
    (values : List Rat) :
    Samples.at (samples.put (queue, values)) other = Samples.at samples other := by
  simp [Samples.at, Table.find?_put_of_ne samples (v := (queue, values)) ne]

theorem Samples.at_push_self (samples : Samples) (queue : Key) (value : Rat) :
    Samples.at (Samples.push samples queue value none) queue =
      Samples.at samples queue ++ [value] :=
  Samples.at_put_self samples queue _

/-- A deque with `maxlen` drops its oldest values. -/
theorem Samples.at_push_bounded (samples : Samples) (queue : Key) (value : Rat) (n : Nat) :
    Samples.at (Samples.push samples queue value (some n)) queue =
      (Samples.at samples queue ++ [value]).rtake n :=
  Samples.at_put_self samples queue _

theorem Samples.at_push_of_ne (samples : Samples) {queue other : Key} (ne : other ≠ queue)
    (value : Rat) (window : Option Nat) :
    Samples.at (Samples.push samples queue value window) other = Samples.at samples other := by
  cases window with
  | none => exact Samples.at_put_of_ne samples ne _
  | some n => exact Samples.at_put_of_ne samples ne _

end Containers

/-- `MetricsCollector`. -/
structure MetricsCollector where
  startTime : Rat
  produceTimes : Samples := Table.empty
  ackTimes : Samples := Table.empty
  dequeueTimestamps : Table (Prod.fst : String × Rat → String) := Table.empty
  taskQueues : Table (Prod.fst : String × Key → String) := Table.empty
  latencySamples : Samples := Table.empty
  totalProduced : Counters := Table.empty
  totalConsumed : Counters := Table.empty
  totalAcked : Counters := Table.empty
  totalNacked : Counters := Table.empty
  totalDlq : Counters := Table.empty

namespace MetricsCollector

/-- `THROUGHPUT_WINDOW_SECONDS`. -/
def throughputWindowSeconds : Rat := 10

/-- `MAX_LATENCY_SAMPLES`. -/
def maxLatencySamples : Nat := 1000

/-- `_prune_window`: drop the leading timestamps that are older than the window. -/
def pruneWindow (timestamps : List Rat) (now : Rat) : List Rat :=
  timestamps.dropWhile fun time => time < now - throughputWindowSeconds

/-- `reset`.  The dequeue timestamps and the queue of each tracked task are kept. -/
def reset (metrics : MetricsCollector) (now : Rat) : MetricsCollector :=
  { metrics with
    produceTimes := Table.empty
    ackTimes := Table.empty
    latencySamples := Table.empty
    totalProduced := Table.empty
    totalConsumed := Table.empty
    totalAcked := Table.empty
    totalNacked := Table.empty
    totalDlq := Table.empty
    startTime := now }

/-- `record_produce`. -/
def recordProduce (metrics : MetricsCollector) (queue : Key) (now : Rat) : MetricsCollector :=
  { metrics with
    produceTimes := Samples.push metrics.produceTimes queue now none
    totalProduced := Counters.bump metrics.totalProduced queue }

/-- `record_consume`. -/
def recordConsume (metrics : MetricsCollector) (queue : Key) (taskId : String) (now : Rat) :
    MetricsCollector :=
  { metrics with
    dequeueTimestamps := metrics.dequeueTimestamps.put (taskId, now)
    taskQueues := metrics.taskQueues.put (taskId, queue)
    totalConsumed := Counters.bump metrics.totalConsumed queue }

/-- `record_ack`. -/
def recordAck (metrics : MetricsCollector) (queue : Key) (taskId : String) (now : Rat) :
    MetricsCollector :=
  { metrics with
    ackTimes := Samples.push metrics.ackTimes queue now none
    totalAcked := Counters.bump metrics.totalAcked queue
    dequeueTimestamps := metrics.dequeueTimestamps.erase taskId
    taskQueues := metrics.taskQueues.erase taskId
    latencySamples :=
      match metrics.dequeueTimestamps.find? taskId with
      | none => metrics.latencySamples
      | some (_, dequeued) =>
        Samples.push metrics.latencySamples queue ((now - dequeued) * 1000)
          (some maxLatencySamples) }

/-- `record_nack`. -/
def recordNack (metrics : MetricsCollector) (queue : Key) (taskId : String)
    (deadLettered : Bool) : MetricsCollector :=
  { metrics with
    totalNacked := Counters.bump metrics.totalNacked queue
    totalDlq :=
      if deadLettered then Counters.bump metrics.totalDlq queue else metrics.totalDlq
    dequeueTimestamps := metrics.dequeueTimestamps.erase taskId
    taskQueues := metrics.taskQueues.erase taskId }

/-- `throughput`.  The query prunes the deque it reads. -/
def throughput (metrics : MetricsCollector) (queue : Key) (now : Rat) : Rat × MetricsCollector :=
  match metrics.ackTimes.find? queue with
  | none => (0, metrics)
  | some (_, times) =>
    let recent := pruneWindow times now
    ((recent.length : Rat) / throughputWindowSeconds,
      { metrics with ackTimes := metrics.ackTimes.put (queue, recent) })

/-- `produce_rate`.  The query prunes the deque it reads. -/
def produceRate (metrics : MetricsCollector) (queue : Key) (now : Rat) : Rat × MetricsCollector :=
  match metrics.produceTimes.find? queue with
  | none => (0, metrics)
  | some (_, times) =>
    let recent := pruneWindow times now
    ((recent.length : Rat) / throughputWindowSeconds,
      { metrics with produceTimes := metrics.produceTimes.put (queue, recent) })

/-- `percentile_latency`. -/
def percentileLatency (metrics : MetricsCollector) (queue : Key) (p : Rat) : Rat :=
  let samples := (Samples.at metrics.latencySamples queue).insertionSort (· ≤ ·)
  let idx := ((samples.length : Rat) * p / 100).floor.toNat
  samples.getD (min idx (samples.length - 1)) 0

/-- `get_stats`. -/
structure Stats where
  totalProduced : List (Key × Nat)
  totalConsumed : List (Key × Nat)
  totalAcked : List (Key × Nat)
  totalNacked : List (Key × Nat)
  totalDlq : List (Key × Nat)
  uptimeSeconds : Rat
  trackedInFlight : Nat
  deriving DecidableEq

/-- `get_stats`. -/
def getStats (metrics : MetricsCollector) (now : Rat) : Stats where
  totalProduced := metrics.totalProduced.rows
  totalConsumed := metrics.totalConsumed.rows
  totalAcked := metrics.totalAcked.rows
  totalNacked := metrics.totalNacked.rows
  totalDlq := metrics.totalDlq.rows
  uptimeSeconds := roundTo (now - metrics.startTime) 1
  trackedInFlight := metrics.dequeueTimestamps.rows.length

/-- A queue's entry in `snapshot`; its depth is filled in by the broker. -/
structure QueueSnapshot where
  queue : Key
  depth : Nat
  produceRate : Rat
  throughputPerSecond : Rat
  p50LatencyMs : Rat
  p95LatencyMs : Rat
  p99LatencyMs : Rat
  totalProduced : Nat
  totalAcked : Nat
  totalNacked : Nat
  deriving DecidableEq

/-- The entry of one queue in `snapshot`. -/
def queueSnapshot (metrics : MetricsCollector) (queue : Key) (now : Rat) :
    QueueSnapshot × MetricsCollector :=
  let (produced, metrics) := metrics.produceRate queue now
  let (acked, metrics) := metrics.throughput queue now
  ({ queue
     depth := 0
     produceRate := roundTo produced 1
     throughputPerSecond := roundTo acked 1
     p50LatencyMs := roundTo (metrics.percentileLatency queue 50) 1
     p95LatencyMs := roundTo (metrics.percentileLatency queue 95) 1
     p99LatencyMs := roundTo (metrics.percentileLatency queue 99) 1
     totalProduced := Counters.count metrics.totalProduced queue
     totalAcked := Counters.count metrics.totalAcked queue
     totalNacked := Counters.count metrics.totalNacked queue }, metrics)

/-- The `queues` part of `snapshot` for the given names. -/
def snapshotQueues (now : Rat) :
    List Key → MetricsCollector → List QueueSnapshot × MetricsCollector
  | [], metrics => ([], metrics)
  | name :: rest, metrics =>
    let (entry, metrics) := metrics.queueSnapshot name now
    let (entries, metrics) := snapshotQueues now rest metrics
    (entry :: entries, metrics)

/-! ## Queries prune windows and nothing else -/

/-- The two collectors differ in their event windows at most. -/
def Prunes (metrics pruned : MetricsCollector) : Prop :=
  ∃ produceTimes ackTimes, pruned = { metrics with produceTimes, ackTimes }

theorem Prunes.trans {metrics pruned further : MetricsCollector} (first : metrics.Prunes pruned)
    (second : pruned.Prunes further) : metrics.Prunes further := by
  obtain ⟨produceTimes, ackTimes, rfl⟩ := first
  obtain ⟨produceTimes', ackTimes', rfl⟩ := second
  exact ⟨produceTimes', ackTimes', rfl⟩

section Queries

variable (metrics : MetricsCollector) (name : Key) (now : Rat)

theorem produceRate_prunes : metrics.Prunes (metrics.produceRate name now).2 := by
  unfold produceRate
  split
  · exact ⟨_, _, rfl⟩
  · exact ⟨_, _, rfl⟩

theorem throughput_prunes : metrics.Prunes (metrics.throughput name now).2 := by
  unfold throughput
  split
  · exact ⟨_, _, rfl⟩
  · exact ⟨_, _, rfl⟩

/-- A snapshot drops outdated event times, and changes nothing else. -/
theorem snapshotQueues_prunes (names : List Key) :
    metrics.Prunes (snapshotQueues now names metrics).2 := by
  induction names generalizing metrics with
  | nil => exact ⟨_, _, rfl⟩
  | cons name rest ih =>
    exact ((metrics.produceRate_prunes name now).trans (throughput_prunes _ name now)).trans
      (ih _)

end Queries

end MetricsCollector

end DistroSync
