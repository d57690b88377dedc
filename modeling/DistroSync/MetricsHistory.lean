import DistroSync.Lib.Trace
import DistroSync.Lib.Window
import DistroSync.MetricsCollector

/-!
# What the metrics collector reports

The collector as a machine of its own: any sequence of `record_…` calls and queries,
each with the reading of the monotonic clock it makes.  What a query reports is compared
with a description of the calls before it that knows nothing of the collector's deques:
the times of the events of a queue, and the latencies of its acknowledged tasks.

* `rates_exact`: the rates of a queue count exactly the events of the last ten seconds.
  The queries drop old events from the deques; `Window.Recent` says that what they leave
  is as good as all events for every later window.
* `percentile_order_statistic`: a latency percentile is the value at its rank among the
  last thousand latencies of the queue.
-/

namespace DistroSync

open Keyed Py

namespace MetricsCollector

/-- A call of the collector. -/
inductive Call where
  | recordProduce (queue : Key)
  | recordConsume (queue : Key) (taskId : String)
  | recordAck (queue : Key) (taskId : String)
  | recordNack (queue : Key) (taskId : String) (deadLettered : Bool)
  | produceRate (queue : Key)
  | throughput (queue : Key)
  | percentileLatency (queue : Key) (p : Rat)
  | snapshot (queueNames : List Key)

/-- A call, and what the clock shows during it. -/
structure TimedCall where
  call : Call
  now : Rat

/-- What a call returns. -/
inductive Answer where
  | recorded
  | rate (perSecond : Rat)
  | latency (ms : Rat)
  | queues (entries : List QueueSnapshot)

/-- One call. -/
def serve (metrics : MetricsCollector) (timed : TimedCall) : Answer × MetricsCollector :=
  match timed.call with
  | .recordProduce queue => (.recorded, metrics.recordProduce queue timed.now)
  | .recordConsume queue taskId => (.recorded, metrics.recordConsume queue taskId timed.now)
  | .recordAck queue taskId => (.recorded, metrics.recordAck queue taskId timed.now)
  | .recordNack queue taskId deadLettered =>
    (.recorded, metrics.recordNack queue taskId deadLettered)
  | .produceRate queue =>
    let (rate, metrics) := metrics.produceRate queue timed.now
    (.rate rate, metrics)
  | .throughput queue =>
    let (rate, metrics) := metrics.throughput queue timed.now
    (.rate rate, metrics)
  | .percentileLatency queue p => (.latency (metrics.percentileLatency queue p), metrics)
  | .snapshot queueNames =>
    let (entries, metrics) := snapshotQueues timed.now queueNames metrics
    (.queues entries, metrics)

/-- The collector created at `start`, after some calls. -/
def afterCalls (start : Rat) (calls : List TimedCall) : MetricsCollector :=
  Trace.after serve { startTime := start } calls

/-- What a call returns after some calls. -/
def answer (start : Rat) (calls : List TimedCall) (timed : TimedCall) : Answer :=
  ((afterCalls start calls).serve timed).1

theorem afterCalls_concat (start : Rat) (calls : List TimedCall) (timed : TimedCall) :
    afterCalls start (calls ++ [timed]) = ((afterCalls start calls).serve timed).2 :=
  Trace.after_concat serve _ calls timed

/-! ## Rates -/

/-- The call records the production of a task in the queue. -/
def Call.produces (queue : Key) : Call → Bool
  | .recordProduce name => name = queue
  | _ => false

/-- The call records an acknowledgement in the queue. -/
def Call.acks (queue : Key) : Call → Bool
  | .recordAck name _ => name = queue
  | _ => false

/-- The call records something. -/
def Call.records : Call → Bool
  | .recordProduce _ => true
  | .recordConsume _ _ => true
  | .recordAck _ _ => true
  | .recordNack _ _ _ => true
  | _ => false

/-- When the calls that satisfy `test` were made. -/
def times (test : Call → Bool) (calls : List TimedCall) : List Rat :=
  (calls.filter fun timed => test timed.call).map TimedCall.now

/-- The number of these calls in the ten seconds up to `now`, both ends included. -/
def inWindow (test : Call → Bool) (calls : List TimedCall) (now : Rat) : Nat :=
  (times test calls).countP fun time => now - 10 ≤ time ∧ time ≤ now

/-- The clock never went back during the calls, and shows `now`. -/
def InOrder (calls : List TimedCall) (now : Rat) : Prop :=
  (calls.map TimedCall.now ++ [now]).Pairwise (· ≤ ·)

theorem times_concat (test : Call → Bool) (calls : List TimedCall) (timed : TimedCall) :
    times test (calls ++ [timed]) =
      times test calls ++ if test timed.call then [timed.now] else [] := by
  unfold times
  rw [List.filter_append, List.map_append]
  by_cases hit : test timed.call = true
  · simp [hit]
  · simp [hit]

/-- Only calls that record something are counted. -/
theorem times_filter {test : Call → Bool} (recording : ∀ call, test call → call.records)
    (calls : List TimedCall) :
    times test (calls.filter fun timed => timed.call.records) = times test calls := by
  unfold times
  rw [List.filter_filter]
  congr 1
  refine List.filter_congr fun timed _ => ?_
  cases counted : test timed.call with
  | true => simp [recording _ counted]
  | false => rfl

theorem Call.records_of_produces {queue : Key} {call : Call} (counted : call.produces queue) :
    call.records := by
  cases call with
  | recordProduce name => rfl
  | _ => cases counted

theorem Call.records_of_acks {queue : Key} {call : Call} (counted : call.acks queue) :
    call.records := by
  cases call with
  | recordAck name taskId => rfl
  | _ => cases counted

/-- At time `now`, the deques stand for all events of their queues. -/
def Tracks (calls : List TimedCall) (metrics : MetricsCollector) (now : Rat) : Prop :=
  ∀ queue, Window.Recent 10 now (Samples.at metrics.produceTimes queue)
      (times (Call.produces queue) calls) ∧
    Window.Recent 10 now (Samples.at metrics.ackTimes queue) (times (Call.acks queue) calls)

/-- Entries only grow old. -/
theorem Tracks.wait {calls : List TimedCall} {metrics : MetricsCollector} {now later : Rat}
    (tracks : Tracks calls metrics now) (passes : now ≤ later) : Tracks calls metrics later :=
  fun queue => ⟨(tracks queue).1.wait passes, (tracks queue).2.wait passes⟩

theorem Tracks.congr {calls : List TimedCall} {metrics metrics' : MetricsCollector} {now : Rat}
    (tracks : Tracks calls metrics now) (produced : metrics'.produceTimes = metrics.produceTimes)
    (acked : metrics'.ackTimes = metrics.ackTimes) : Tracks calls metrics' now := by
  intro queue
  rw [produced, acked]
  exact tracks queue

section Queries

variable {calls : List TimedCall} {metrics : MetricsCollector} {now : Rat}

/-- A query replaces one deque by its recent part. -/
theorem recent_put {samples : Samples} {test : Key → Call → Bool} {queue : Key}
    (recent : ∀ queue, Window.Recent 10 now (Samples.at samples queue) (times (test queue) calls))
    (other : Key) :
    Window.Recent 10 now
      (Samples.at (samples.put (queue, pruneWindow (Samples.at samples queue) now)) other)
      (times (test other) calls) := by
  by_cases same : other = queue
  · subst same
    rw [Samples.at_put_self]
    exact (recent other).prune
  · rw [Samples.at_put_of_ne samples same]
    exact recent other

/-- A rate query reports the number of events in its window and keeps what later queries need. -/
theorem Tracks.produceRate (tracks : Tracks calls metrics now) (queue : Key) :
    (metrics.produceRate queue now).1 = (inWindow (Call.produces queue) calls now : Rat) / 10 ∧
      Tracks calls (metrics.produceRate queue now).2 now := by
  have counted := (tracks queue).1.count
  unfold MetricsCollector.produceRate
  cases stored : metrics.produceTimes.find? queue with
  | none =>
    rw [Samples.at_of_absent stored] at counted
    refine ⟨?_, tracks⟩
    rw [inWindow, ← counted]
    simp
  | some entry =>
    obtain ⟨name, values⟩ := entry
    rw [← Samples.at_of_present stored]
    refine ⟨?_, fun other => ⟨recent_put (fun queue => (tracks queue).1) other,
      (tracks other).2⟩⟩
    rw [inWindow, ← counted]
    rfl

/-- The rate is right, and what the query prunes would never be counted again. -/
theorem Tracks.throughput (tracks : Tracks calls metrics now) (queue : Key) :
    (metrics.throughput queue now).1 = (inWindow (Call.acks queue) calls now : Rat) / 10 ∧
      Tracks calls (metrics.throughput queue now).2 now := by
  have counted := (tracks queue).2.count
  unfold MetricsCollector.throughput
  cases stored : metrics.ackTimes.find? queue with
  | none =>
    rw [Samples.at_of_absent stored] at counted
    refine ⟨?_, tracks⟩
    rw [inWindow, ← counted]
    simp
  | some entry =>
    obtain ⟨name, values⟩ := entry
    rw [← Samples.at_of_present stored]
    refine ⟨?_, fun other => ⟨(tracks other).1,
      recent_put (fun queue => (tracks queue).2) other⟩⟩
    rw [inWindow, ← counted]
    rfl

/-- A tenth of a whole number is its own rounding to one digit. -/
theorem roundTo_tenth (n : Nat) : roundTo ((n : Rat) / 10) 1 = (n : Rat) / 10 := by
  have floor : ((n : Rat)).floor = n := by simpa using Rat.floor_intCast (n : Int)
  simp [roundTo, floor]

/-- The rates in a snapshot are those of its queues. -/
def ShowsRates (calls : List TimedCall) (now : Rat) (entry : QueueSnapshot) : Prop :=
  entry.produceRate = (inWindow (Call.produces entry.queue) calls now : Rat) / 10 ∧
    entry.throughputPerSecond = (inWindow (Call.acks entry.queue) calls now : Rat) / 10

theorem Tracks.queueSnapshot (tracks : Tracks calls metrics now) (queue : Key) :
    (metrics.queueSnapshot queue now).1.queue = queue ∧
      ShowsRates calls now (metrics.queueSnapshot queue now).1 ∧
      Tracks calls (metrics.queueSnapshot queue now).2 now := by
  obtain ⟨produced, tracks⟩ := tracks.produceRate queue
  obtain ⟨acked, tracks⟩ := tracks.throughput queue
  refine ⟨rfl, ⟨?_, ?_⟩, tracks⟩
  · change roundTo (metrics.produceRate queue now).1 1 = _
    rw [produced, roundTo_tenth]
    rfl
  · change roundTo ((metrics.produceRate queue now).2.throughput queue now).1 1 = _
    rw [acked, roundTo_tenth]
    rfl

/-- Queue after queue, each query prunes a window of its own. -/
theorem Tracks.snapshotQueues (tracks : Tracks calls metrics now) (queueNames : List Key) :
    (snapshotQueues now queueNames metrics).1.map QueueSnapshot.queue = queueNames ∧
      (∀ entry ∈ (snapshotQueues now queueNames metrics).1, ShowsRates calls now entry) ∧
      Tracks calls (MetricsCollector.snapshotQueues now queueNames metrics).2 now := by
  induction queueNames generalizing metrics with
  | nil => exact ⟨rfl, nofun, tracks⟩
  | cons name rest ih =>
    obtain ⟨named, shows, tracks⟩ := tracks.queueSnapshot name
    obtain ⟨names, later, tracks⟩ := ih tracks
    refine ⟨congrArg₂ List.cons named names, fun entry inside => ?_, tracks⟩
    rcases List.mem_cons.mp inside with rfl | inRest
    · exact shows
    · exact later entry inRest

end Queries

/-- One call keeps the deques in line with the events. -/
theorem Tracks.serve {calls : List TimedCall} {metrics : MetricsCollector} {timed : TimedCall}
    (tracks : Tracks calls metrics timed.now) :
    Tracks (calls ++ [timed]) (metrics.serve timed).2 timed.now := by
  obtain ⟨call, now⟩ := timed
  -- the calls that concern neither deque
  have quiet {metrics' : MetricsCollector} (tracks : Tracks calls metrics' now)
      (unproduced : ∀ queue, call.produces queue = false)
      (unacked : ∀ queue, call.acks queue = false) :
      Tracks (calls ++ [⟨call, now⟩]) metrics' now := by
    intro queue
    rw [times_concat, times_concat]
    simpa [unproduced, unacked] using tracks queue
  cases call with
  | recordProduce name =>
    intro queue
    rw [times_concat, times_concat]
    refine ⟨?_, by
      simpa [Call.acks, MetricsCollector.serve, recordProduce] using (tracks queue).2⟩
    by_cases same : queue = name
    · subst same
      have grown := (tracks queue).1.record
      simpa [Call.produces, MetricsCollector.serve, recordProduce, Samples.at_push_self]
        using grown
    · have kept := (tracks queue).1
      simpa [Call.produces, MetricsCollector.serve, recordProduce, Ne.symm same,
        Samples.at_push_of_ne _ same] using kept
  | recordAck name taskId =>
    intro queue
    rw [times_concat, times_concat]
    refine ⟨by
      simpa [Call.produces, MetricsCollector.serve, recordAck] using (tracks queue).1, ?_⟩
    by_cases same : queue = name
    · subst same
      have grown := (tracks queue).2.record
      simpa [Call.acks, MetricsCollector.serve, recordAck, Samples.at_push_self] using grown
    · have kept := (tracks queue).2
      simpa [Call.acks, MetricsCollector.serve, recordAck, Ne.symm same,
        Samples.at_push_of_ne _ same] using kept
  | recordConsume name taskId => exact quiet (tracks.congr rfl rfl) (fun _ => rfl) fun _ => rfl
  | recordNack name taskId deadLettered =>
    exact quiet (tracks.congr rfl rfl) (fun _ => rfl) fun _ => rfl
  | produceRate name => exact quiet (tracks.produceRate name).2 (fun _ => rfl) fun _ => rfl
  | throughput name => exact quiet (tracks.throughput name).2 (fun _ => rfl) fun _ => rfl
  | percentileLatency name p => exact quiet tracks (fun _ => rfl) fun _ => rfl
  | snapshot names => exact quiet (tracks.snapshotQueues names).2.2 (fun _ => rfl) fun _ => rfl

/-- The deques are in line with the events after every run. -/
theorem tracks_afterCalls (start : Rat) {calls : List TimedCall} {now : Rat}
    (inOrder : InOrder calls now) : Tracks calls (afterCalls start calls) now := by
  induction calls using List.reverseRecOn generalizing now with
  | nil => exact fun queue => ⟨.empty, .empty⟩
  | append_singleton calls timed ih =>
    rw [InOrder, List.map_append, List.map_singleton] at inOrder
    obtain ⟨before, -, past⟩ := List.pairwise_append.mp inOrder
    rw [afterCalls_concat]
    exact (ih before).serve.wait (past timed.now (by simp) now (by simp))

/-- **Sliding-window rates are exact.**  Whatever calls were made before, a query for a queue
at time `now` reports the number of its events in `[now - 10, now]`, divided by 10, and so
does a snapshot; and the answer is the same without the earlier queries. -/
theorem rates_exact (start : Rat) {calls : List TimedCall} {now : Rat}
    (inOrder : InOrder calls now) :
    (∀ queue, answer start calls ⟨.produceRate queue, now⟩ =
        .rate ((inWindow (Call.produces queue) calls now : Rat) / 10)) ∧
      (∀ queue, answer start calls ⟨.throughput queue, now⟩ =
        .rate ((inWindow (Call.acks queue) calls now : Rat) / 10)) ∧
      (∀ queueNames, ∃ entries, answer start calls ⟨.snapshot queueNames, now⟩ = .queues entries ∧
        entries.map QueueSnapshot.queue = queueNames ∧
        ∀ entry ∈ entries,
          entry.produceRate = (inWindow (Call.produces entry.queue) calls now : Rat) / 10 ∧
          entry.throughputPerSecond = (inWindow (Call.acks entry.queue) calls now : Rat) / 10) ∧
      ∀ others, InOrder others now →
        (others.filter fun timed => timed.call.records) =
          (calls.filter fun timed => timed.call.records) →
        ∀ queue,
          answer start others ⟨.produceRate queue, now⟩ =
            answer start calls ⟨.produceRate queue, now⟩ ∧
          answer start others ⟨.throughput queue, now⟩ =
            answer start calls ⟨.throughput queue, now⟩ := by
  have produced {calls : List TimedCall} (inOrder : InOrder calls now) (queue : Key) :
      answer start calls ⟨.produceRate queue, now⟩ =
        .rate ((inWindow (Call.produces queue) calls now : Rat) / 10) :=
    congrArg Answer.rate ((tracks_afterCalls start inOrder).produceRate queue).1
  have acked {calls : List TimedCall} (inOrder : InOrder calls now) (queue : Key) :
      answer start calls ⟨.throughput queue, now⟩ =
        .rate ((inWindow (Call.acks queue) calls now : Rat) / 10) :=
    congrArg Answer.rate ((tracks_afterCalls start inOrder).throughput queue).1
  refine ⟨produced inOrder, acked inOrder, fun queueNames => ?_, ?_⟩
  · obtain ⟨names, shows, -⟩ := (tracks_afterCalls start inOrder).snapshotQueues queueNames
    exact ⟨_, rfl, names, shows⟩
  · intro others othersInOrder same queue
    rw [produced othersInOrder, produced inOrder, acked othersInOrder, acked inOrder]
    have counts {test : Call → Bool} (recording : ∀ call, test call → call.records) :
        inWindow test others now = inWindow test calls now := by
      rw [inWindow, ← times_filter recording others, same, times_filter recording calls]
      rfl
    rw [counts fun _ => Call.records_of_produces, counts fun _ => Call.records_of_acks]
    exact ⟨rfl, rfl⟩

/-- A query in between drops the event at 0 and finds the other one; at 12 the window
reaches back to 2. -/
theorem rates_exact_pruned :
    InOrder [⟨.recordProduce (.str "q"), 0⟩, ⟨.recordProduce (.str "q"), 5⟩,
        ⟨.produceRate (.str "q"), 11⟩] 12 ∧
      answer 0 [⟨.recordProduce (.str "q"), 0⟩, ⟨.recordProduce (.str "q"), 5⟩,
        ⟨.produceRate (.str "q"), 11⟩] ⟨.produceRate (.str "q"), 12⟩ = .rate (1 / 10) := by
  have inOrder : InOrder [⟨.recordProduce (.str "q"), 0⟩, ⟨.recordProduce (.str "q"), 5⟩,
      ⟨.produceRate (.str "q"), 11⟩] 12 := by
    unfold InOrder
    decide
  refine ⟨inOrder, ?_⟩
  rw [(rates_exact 0 inOrder).1]
  have counted : inWindow (Call.produces (.str "q")) [⟨.recordProduce (.str "q"), 0⟩,
      ⟨.recordProduce (.str "q"), 5⟩, ⟨.produceRate (.str "q"), 11⟩] 12 = 1 := by decide +kernel
  rw [counted]
  norm_num

/-! ## Latencies -/

/-- When the task was handed out, if nothing has settled it since: what a further call makes
of `last`, the answer before it. -/
def Call.handsOut (taskId : String) (last : Option Rat) (timed : TimedCall) : Option Rat :=
  match timed.call with
  | .recordConsume _ id => if id = taskId then some timed.now else last
  | .recordAck _ id => if id = taskId then none else last
  | .recordNack _ id _ => if id = taskId then none else last
  | _ => last

/-- When the task was last handed out, if nothing has settled it since. -/
def deliveredAt (calls : List TimedCall) (taskId : String) : Option Rat :=
  calls.foldl (Call.handsOut taskId) none

/-- The latency in milliseconds that a call records for the queue, after these calls. -/
def latency (queue : Key) (calls : List TimedCall) (timed : TimedCall) : Option Rat :=
  match timed.call with
  | .recordAck name taskId =>
    if name = queue then (deliveredAt calls taskId).map fun time => (timed.now - time) * 1000
    else none
  | _ => none

/-- The latencies that calls record for the queue, after the calls `before`. -/
def latenciesAfter (queue : Key) (before : List TimedCall) : List TimedCall → List Rat
  | [] => []
  | timed :: rest =>
    (latency queue before timed).toList ++ latenciesAfter queue (before ++ [timed]) rest

/-- All latencies recorded for the queue, oldest first. -/
def latencies (queue : Key) (calls : List TimedCall) : List Rat := latenciesAfter queue [] calls

theorem latenciesAfter_concat (queue : Key) (before calls : List TimedCall) (timed : TimedCall) :
    latenciesAfter queue before (calls ++ [timed]) =
      latenciesAfter queue before calls ++ (latency queue (before ++ calls) timed).toList := by
  induction calls generalizing before with
  | nil => simp [latenciesAfter]
  | cons first rest ih => simp [latenciesAfter, ih]

theorem latencies_concat (queue : Key) (calls : List TimedCall) (timed : TimedCall) :
    latencies queue (calls ++ [timed]) =
      latencies queue calls ++ (latency queue calls timed).toList :=
  latenciesAfter_concat queue [] calls timed

theorem deliveredAt_concat (calls : List TimedCall) (timed : TimedCall) (taskId : String) :
    deliveredAt (calls ++ [timed]) taskId =
      Call.handsOut taskId (deliveredAt calls taskId) timed := by
  simp [deliveredAt]

/-- The call is about the task. -/
def Call.concerns (taskId : String) : Call → Bool
  | .recordConsume _ id => id = taskId
  | .recordAck _ id => id = taskId
  | .recordNack _ id _ => id = taskId
  | _ => false

/-- The last delivery counts, whatever happened to the task before it. -/
theorem deliveredAt_of_consumed (front rest : List TimedCall) (queue : Key) (taskId : String)
    (time : Rat) (silent : ∀ timed ∈ rest, timed.call.concerns taskId = false) :
    deliveredAt (front ++ ⟨.recordConsume queue taskId, time⟩ :: rest) taskId = some time := by
  induction rest using List.reverseRecOn with
  | nil => simp [deliveredAt_concat, Call.handsOut]
  | append_singleton rest timed ih =>
    have before := ih fun other inside => silent other (List.mem_append_left _ inside)
    have elsewhere := silent timed (by simp)
    rw [← List.cons_append, ← List.append_assoc, deliveredAt_concat, before]
    obtain ⟨call, now⟩ := timed
    cases call <;> simp_all [Call.handsOut, Call.concerns]

/-- The timestamps are the times of the deliveries that were not settled, and the samples of a
queue are its last latencies. -/
structure Remembers (calls : List TimedCall) (metrics : MetricsCollector) : Prop where
  delivered : ∀ taskId, (metrics.dequeueTimestamps.find? taskId).map Prod.snd =
    deliveredAt calls taskId
  samples : ∀ queue, Samples.at metrics.latencySamples queue =
    (latencies queue calls).rtake maxLatencySamples

section Remembers

variable {calls : List TimedCall} {metrics : MetricsCollector}

theorem Remembers.prunes (remembers : Remembers calls metrics) {pruned : MetricsCollector}
    (queried : metrics.Prunes pruned) : Remembers calls pruned := by
  obtain ⟨produceTimes, ackTimes, rfl⟩ := queried
  exact ⟨remembers.delivered, remembers.samples⟩

/-- A call that hands out and settles nothing. -/
theorem Remembers.quiet (remembers : Remembers calls metrics) {timed : TimedCall}
    (still : ∀ taskId last, Call.handsOut taskId last timed = last)
    (unmeasured : ∀ queue, latency queue calls timed = none) :
    Remembers (calls ++ [timed]) metrics where
  delivered taskId := by rw [deliveredAt_concat, still, remembers.delivered]
  samples queue := by
    rw [latencies_concat, unmeasured, Option.toList_none, List.append_nil, remembers.samples]

/-- The timestamps after a task was settled. -/
theorem Remembers.erased (remembers : Remembers calls metrics) {timed : TimedCall}
    {settled : String}
    (settles : ∀ taskId last,
      Call.handsOut taskId last timed = if settled = taskId then none else last)
    (taskId : String) :
    ((metrics.dequeueTimestamps.erase settled).find? taskId).map Prod.snd =
      deliveredAt (calls ++ [timed]) taskId := by
  rw [deliveredAt_concat, settles]
  by_cases same : settled = taskId
  · subst same
    simp
  · rw [if_neg same, Table.find?_erase_of_ne _ (Ne.symm same), remembers.delivered]

/-- A redelivery overwrites the time of the earlier one. -/
theorem Remembers.recordConsume (remembers : Remembers calls metrics) (queue : Key)
    (taskId : String) (now : Rat) :
    Remembers (calls ++ [⟨.recordConsume queue taskId, now⟩])
      (metrics.recordConsume queue taskId now) where
  delivered id := by
    rw [deliveredAt_concat]
    by_cases same : taskId = id
    · subst same
      have stored := Table.find?_put_self metrics.dequeueTimestamps (taskId, now)
      simp only at stored
      simp [Call.handsOut, MetricsCollector.recordConsume, stored]
    · have kept := Table.find?_put_of_ne metrics.dequeueTimestamps
        (v := (taskId, now)) (Ne.symm same)
      simp [Call.handsOut, same, MetricsCollector.recordConsume, kept, remembers.delivered]
  samples name := by
    rw [latencies_concat]
    simp only [latency, Option.toList_none, List.append_nil]
    exact remembers.samples name

/-- An ACK of a task without a recorded delivery gives no sample. -/
theorem Remembers.recordAck (remembers : Remembers calls metrics) (queue : Key)
    (taskId : String) (now : Rat) :
    Remembers (calls ++ [⟨.recordAck queue taskId, now⟩])
      (metrics.recordAck queue taskId now) where
  delivered := remembers.erased fun _ _ => rfl
  samples name := by
    have delivered := remembers.delivered taskId
    rw [latencies_concat]
    simp only [latency, MetricsCollector.recordAck]
    cases tracked : metrics.dequeueTimestamps.find? taskId with
    | none =>
      rw [tracked] at delivered
      simpa [← delivered] using remembers.samples name
    | some entry =>
      rw [tracked] at delivered
      by_cases same : queue = name
      · subst same
        simp only [← delivered, if_true, Option.map_some, Option.toList_some]
        rw [Samples.at_push_bounded, remembers.samples, Window.rtake_buffered]
      · simp only [if_neg same, Option.toList_none, List.append_nil]
        rw [Samples.at_push_of_ne _ (Ne.symm same), remembers.samples]

/-- One call. -/
theorem Remembers.serve (remembers : Remembers calls metrics) (timed : TimedCall) :
    Remembers (calls ++ [timed]) (metrics.serve timed).2 := by
  obtain ⟨call, now⟩ := timed
  cases call with
  | recordProduce queue =>
    have kept : Remembers calls (metrics.recordProduce queue now) :=
      ⟨remembers.delivered, remembers.samples⟩
    exact kept.quiet (fun _ _ => rfl) fun _ => rfl
  | recordConsume queue taskId => exact remembers.recordConsume queue taskId now
  | recordAck queue taskId => exact remembers.recordAck queue taskId now
  | recordNack queue taskId deadLettered =>
    refine ⟨remembers.erased fun _ _ => rfl, fun name => ?_⟩
    rw [latencies_concat]
    simp only [latency, Option.toList_none, List.append_nil]
    exact remembers.samples name
  | produceRate queue =>
    exact (remembers.prunes (metrics.produceRate_prunes queue now)).quiet (fun _ _ => rfl)
      fun _ => rfl
  | throughput queue =>
    exact (remembers.prunes (metrics.throughput_prunes queue now)).quiet (fun _ _ => rfl)
      fun _ => rfl
  | percentileLatency queue p => exact remembers.quiet (fun _ _ => rfl) fun _ => rfl
  | snapshot names =>
    exact (remembers.prunes (metrics.snapshotQueues_prunes now names)).quiet (fun _ _ => rfl)
      fun _ => rfl

end Remembers

/-- The deque is the last 1000 latencies of the history. -/
theorem remembers_afterCalls (start : Rat) (calls : List TimedCall) :
    Remembers calls (afterCalls start calls) := by
  induction calls using List.reverseRecOn with
  | nil => exact ⟨fun _ => rfl, fun _ => (List.rtake_nil _).symm⟩
  | append_singleton calls timed ih =>
    rw [afterCalls_concat]
    exact ih.serve timed

/-! ### Percentiles -/

/-- The index that `percentile_latency` reads, in a sorted list of `n` samples. -/
def percentileIndex (n : Nat) (p : Rat) : Nat := min ((n : Rat) * p / 100).floor.toNat (n - 1)

section Percentiles

variable {n : Nat} {p p' : Rat}

/-- The index stays inside, even for `p = 100`. -/
theorem percentileIndex_lt (positive : 0 < n) : percentileIndex n p < n := by
  have below : percentileIndex n p ≤ n - 1 := min_le_right _ _
  omega

theorem percentileIndex_mono (order : p ≤ p') : percentileIndex n p ≤ percentileIndex n p' := by
  refine min_le_min_right _ (Int.toNat_le_toNat (Rat.floor_monotone ?_))
  gcongr

theorem cast_floor_toNat {x : Rat} (nonneg : 0 ≤ x) : (x.floor.toNat : Rat) = x.floor := by
  have floorNonneg : 0 ≤ x.floor := Rat.le_floor_iff.mpr (by simpa using nonneg)
  exact_mod_cast congrArg (Int.cast : Int → Rat) (Int.toNat_of_nonneg floorNonneg)

/-- The index is at most the share of the list. -/
theorem percentileIndex_le (lower : 0 ≤ p) : (percentileIndex n p : Rat) ≤ p / 100 * n := by
  have share : 0 ≤ (n : Rat) * p / 100 := by positivity
  calc (percentileIndex n p : Rat)
      ≤ ((n : Rat) * p / 100).floor.toNat := by exact_mod_cast min_le_left _ _
    _ = ((n : Rat) * p / 100).floor := cast_floor_toNat share
    _ ≤ (n : Rat) * p / 100 := Rat.floor_le _
    _ = p / 100 * n := by ring

/-- The values up to the index are at least the share of the list. -/
theorem le_percentileIndex_succ (lower : 0 ≤ p) (upper : p ≤ 100) (positive : 0 < n) :
    p / 100 * n ≤ percentileIndex n p + 1 := by
  have share : 0 ≤ (n : Rat) * p / 100 := by positivity
  rcases min_choice ((n : Rat) * p / 100).floor.toNat (n - 1) with floor | last
  · have above := Rat.lt_floor_add_one ((n : Rat) * p / 100)
    rw [percentileIndex, floor, cast_floor_toNat share]
    push_cast at above
    linarith
  · have whole : ((n - 1 : Nat) : Rat) + 1 = n := by exact_mod_cast Nat.sub_add_cancel positive
    have ratio : p / 100 ≤ 1 := by linarith
    rw [percentileIndex, last, whole]
    exact mul_le_of_le_one_left (Nat.cast_nonneg n) ratio

/-- The value that `percentile_latency` reads. -/
theorem percentileLatency_eq (metrics : MetricsCollector) (queue : Key) (p : Rat)
    {window : List Rat} (holds : Samples.at metrics.latencySamples queue = window) :
    metrics.percentileLatency queue p =
      (window.insertionSort (· ≤ ·)).getD (percentileIndex window.length p) 0 := by
  simp only [percentileLatency, holds, List.length_insertionSort, percentileIndex]

end Percentiles

/-- **Latency percentiles are order statistics of the recent window.**  For a queue with
samples, the window are the last thousand of its latencies (or all of them, if they are
fewer).  For every `p` in `[0, 100]` the result is the entry of the sorted window at an index
inside it; at least `p` percent of the window are at most the result, and at most `p` percent
are below it; and the result grows with `p`.  An acknowledged task adds the latency of its
last delivery, and nothing else.

The rank is computed with exact numbers here, where the code multiplies doubles. -/
theorem percentile_order_statistic (start : Rat) (calls : List TimedCall) (queue : Key)
    (sampled : latencies queue calls ≠ []) :
    let metrics := afterCalls start calls
    let window := (latencies queue calls).rtake 1000
    window.length = min (latencies queue calls).length 1000 ∧
      (∀ p, 0 ≤ p → p ≤ 100 →
        percentileIndex window.length p < window.length ∧
        (window.insertionSort (· ≤ ·))[percentileIndex window.length p]? =
          some (metrics.percentileLatency queue p) ∧
        metrics.percentileLatency queue p ∈ window ∧
        p / 100 * window.length ≤
          (window.countP fun v => v ≤ metrics.percentileLatency queue p : Nat) ∧
        (window.countP fun v => v < metrics.percentileLatency queue p : Nat) ≤
          p / 100 * window.length) ∧
      (∀ p p', p ≤ p' →
        metrics.percentileLatency queue p ≤ metrics.percentileLatency queue p') ∧
      ∀ (front rest : List TimedCall) (name : Key) (taskId : String) (delivered now : Rat),
        calls = front ++ ⟨.recordConsume name taskId, delivered⟩ :: rest →
        (∀ timed ∈ rest, timed.call.concerns taskId = false) →
        latencies queue (calls ++ [⟨.recordAck queue taskId, now⟩]) =
          latencies queue calls ++ [(now - delivered) * 1000] := by
  intro metrics window
  have size : window.length = min (latencies queue calls).length 1000 := by
    simp only [window, List.rtake, List.length_drop]
    omega
  have positive : 0 < window.length := by
    have some := List.length_pos_iff.mpr sampled
    omega
  have holds : Samples.at metrics.latencySamples queue = window := by
    have remembered := (remembers_afterCalls start calls).samples queue
    rwa [maxLatencySamples] at remembered
  clear_value metrics window
  have ordered := List.pairwise_insertionSort (fun a b : Rat => a ≤ b) window
  have perm := List.perm_insertionSort (fun a b : Rat => a ≤ b) window
  have length : (window.insertionSort (· ≤ ·)).length = window.length :=
    List.length_insertionSort _ _
  -- the entry that is read
  have inside (p : Rat) : percentileIndex window.length p <
      (window.insertionSort (· ≤ ·)).length := by
    rw [length]
    exact percentileIndex_lt positive
  have read (p : Rat) : metrics.percentileLatency queue p =
      (window.insertionSort (· ≤ ·)).get ⟨_, inside p⟩ := by
    rw [percentileLatency_eq _ _ _ holds]
    exact List.getD_eq_getElem _ _ (inside p)
  refine ⟨size, fun p lower upper => ⟨percentileIndex_lt positive, ?_, ?_, ?_, ?_⟩, ?_, ?_⟩
  · rw [read p]
    exact List.getElem?_eq_getElem (inside p)
  · rw [read p]
    exact perm.mem_iff.mp (List.get_mem _ _)
  · have many := Window.lt_countP_le ordered (inside p)
    rw [read p, ← perm.countP_eq]
    refine (le_percentileIndex_succ lower upper positive).trans ?_
    exact_mod_cast many
  · have few := Window.countP_lt_le ordered (inside p)
    rw [read p, ← perm.countP_eq]
    refine le_trans ?_ (percentileIndex_le lower)
    exact_mod_cast few
  · intro p p' order
    rw [read p, read p']
    exact ordered.rel_get_of_le (percentileIndex_mono order)
  · intro front rest name taskId delivered now split silent
    rw [latencies_concat]
    subst split
    simp [latency, deliveredAt_of_consumed front rest name taskId delivered silent]

/-- Three tasks of one queue; the second is handed out twice, and its latency is that of the
second delivery. -/
def sampledCalls : List TimedCall :=
  [⟨.recordConsume (.str "q") "a", 0⟩, ⟨.recordConsume (.str "q") "b", 0⟩,
    ⟨.recordConsume (.str "q") "c", 1⟩, ⟨.recordNack (.str "q") "b" false, 2⟩,
    ⟨.recordAck (.str "q") "a", 3⟩, ⟨.recordAck (.str "q") "c", 3⟩,
    ⟨.recordConsume (.str "q") "b", 5⟩, ⟨.recordAck (.str "q") "b", 6⟩]

theorem percentile_order_statistic_retried :
    latencies (.str "q") sampledCalls = [3000, 2000, 1000] ∧
      (afterCalls 0 sampledCalls).percentileLatency (.str "q") 50 = 2000 ∧
      (afterCalls 0 sampledCalls).percentileLatency (.str "q") 95 = 3000 := by
  have recorded : latencies (.str "q") sampledCalls = [3000, 2000, 1000] := by decide +kernel
  have sampled : latencies (.str "q") sampledCalls ≠ [] := by simp [recorded]
  obtain ⟨-, statistic, -, -⟩ := percentile_order_statistic 0 _ _ sampled
  obtain ⟨-, median, -, -, -⟩ := statistic 50 (by norm_num) (by norm_num)
  obtain ⟨-, slow, -, -, -⟩ := statistic 95 (by norm_num) (by norm_num)
  rw [recorded] at median slow
  have sorted : (([3000, 2000, 1000] : List Rat).rtake 1000).insertionSort (· ≤ ·) =
      [1000, 2000, 3000] := by decide +kernel
  have middle : percentileIndex (([3000, 2000, 1000] : List Rat).rtake 1000).length 50 = 1 := by
    decide +kernel
  have last : percentileIndex (([3000, 2000, 1000] : List Rat).rtake 1000).length 95 = 2 := by
    decide +kernel
  rw [sorted, middle] at median
  rw [sorted, last] at slow
  exact ⟨recorded, (Option.some.inj median).symm, (Option.some.inj slow).symm⟩

end MetricsCollector

end DistroSync
