import DistroSync.Lib.Window
import DistroSync.Memory
import DistroSync.Scenario

/-!
# Which queue the metrics are charged to

The collector keeps its counters and latency samples by queue.  The name it is given
comes from the request in CONSUME, from an optional field in ACK, and from the task in
NACK.  Here the deliveries, acknowledgements and rejections of a run are written down
with the queue of the task itself (`seen`), and `Attributed` says that the collector's
figures for every queue are those of this record.

They are as long as every CONSUME that takes a task names its queue, every ACK carries
the queue of its task, and no handler raises on the way to the collector (`Informs`);
and only so long.  A CONSUME of `'*'` is charged to a queue named `'*'`.
-/

namespace DistroSync

open Keyed Py Exec

/-! ## The record of a run -/

/-- What becomes of a task: it is delivered, acknowledged (the collector may know since when it
was out), or rejected. -/
inductive Incident
  | delivered
  | acked (latency : Option Rat)
  | nacked (deadLettered : Bool)
  deriving DecidableEq

/-- An incident, with the queue of the task it happened to. -/
structure Occurrence where
  queue : Key
  incident : Incident
  deriving DecidableEq

/-- The figures of a queue. -/
@[ext] structure Tally where
  consumed : Nat
  acked : Nat
  nacked : Nat
  dlq : Nat
  latencies : List Rat
  deriving DecidableEq

namespace Incident

/-- It is an acknowledgement. -/
def isAcked : Incident → Bool
  | .acked _ => true
  | _ => false

/-- It is a rejection. -/
def isNacked : Incident → Bool
  | .nacked _ => true
  | _ => false

/-- The latency that is known of it. -/
def latency? : Incident → Option Rat
  | .acked latency => latency
  | _ => none

end Incident

namespace Tally

/-- The figures that a list of incidents calls for.  Latencies are kept for the last 1000. -/
def of (incidents : List Incident) : Tally where
  consumed := incidents.count .delivered
  acked := incidents.countP Incident.isAcked
  nacked := incidents.countP Incident.isNacked
  dlq := incidents.count (.nacked true)
  latencies := (incidents.filterMap Incident.latency?).rtake MetricsCollector.maxLatencySamples

/-- The figures after one more incident. -/
def add (tally : Tally) : Incident → Tally
  | .delivered => { tally with consumed := tally.consumed + 1 }
  | .acked latency =>
    { tally with
      acked := tally.acked + 1
      latencies :=
        match latency with
        | none => tally.latencies
        | some value => (tally.latencies ++ [value]).rtake MetricsCollector.maxLatencySamples }
  | .nacked deadLettered =>
    { tally with
      nacked := tally.nacked + 1
      dlq := tally.dlq + if deadLettered then 1 else 0 }

theorem add_ne (tally : Tally) (incident : Incident) : tally.add incident ≠ tally := by
  intro same
  cases incident with
  | delivered => exact Nat.succ_ne_self _ (congrArg consumed same)
  | acked latency => exact Nat.succ_ne_self _ (congrArg acked same)
  | nacked deadLettered => exact Nat.succ_ne_self _ (congrArg nacked same)

theorem of_concat (incidents : List Incident) (incident : Incident) :
    of (incidents ++ [incident]) = (of incidents).add incident := by
  cases incident with
  | delivered =>
    simp [of, add, Incident.isAcked, Incident.isNacked, Incident.latency?, List.filterMap_cons]
  | acked latency =>
    cases latency <;>
      simp [of, add, Incident.isAcked, Incident.isNacked, Incident.latency?,
        List.filterMap_cons, Window.rtake_buffered]
  | nacked deadLettered =>
    cases deadLettered <;>
      simp [of, add, Incident.isAcked, Incident.isNacked, Incident.latency?,
        List.filterMap_cons]

end Tally

/-- What happened to the tasks of a queue. -/
def incidentsOf (queue : Key) (seen : List Occurrence) : List Incident :=
  (seen.filter (·.queue = queue)).map Occurrence.incident

theorem incidentsOf_concat (queue : Key) (seen : List Occurrence) (occurrence : Occurrence) :
    incidentsOf queue (seen ++ [occurrence]) = incidentsOf queue seen ++
      if occurrence.queue = queue then [occurrence.incident] else [] := by
  unfold incidentsOf
  by_cases own : occurrence.queue = queue <;> simp [own]

/-! ## The collector -/

namespace MetricsCollector

variable {metrics metrics' : MetricsCollector} {seen : List Occurrence} {queue : Key}
  {incident : Incident}

/-- The figures that the collector has for a queue. -/
def tally (metrics : MetricsCollector) (queue : Key) : Tally where
  consumed := Counters.count metrics.totalConsumed queue
  acked := Counters.count metrics.totalAcked queue
  nacked := Counters.count metrics.totalNacked queue
  dlq := Counters.count metrics.totalDlq queue
  latencies := Samples.at metrics.latencySamples queue

/-- The collector's figures for every queue are about the tasks of that queue. -/
def Attributed (metrics : MetricsCollector) (seen : List Occurrence) : Prop :=
  ∀ queue, metrics.tally queue = Tally.of (incidentsOf queue seen)

/-- An incident is charged to a queue. -/
def Charges (metrics metrics' : MetricsCollector) (queue : Key) (incident : Incident) : Prop :=
  ∀ other, metrics'.tally other =
    if other = queue then (metrics.tally other).add incident else metrics.tally other

/-- How long a task was out, if the collector knows since when. -/
def latencyOf (metrics : MetricsCollector) (taskId : String) (now : Rat) : Option Rat :=
  (metrics.dequeueTimestamps.find? taskId).map fun entry => (now - entry.2) * 1000

theorem recordConsume_charges (metrics : MetricsCollector) (queue : Key) (taskId : String)
    (now : Rat) : metrics.Charges (metrics.recordConsume queue taskId now) queue .delivered := by
  intro other
  by_cases same : other = queue <;>
    simp [tally, recordConsume, Tally.add, Counters.count_bump, same]

/-- An ACK is charged to the queue that its message names. -/
theorem recordAck_charges (metrics : MetricsCollector) (queue : Key) (taskId : String)
    (now : Rat) :
    metrics.Charges (metrics.recordAck queue taskId now) queue
      (.acked (metrics.latencyOf taskId now)) := by
  intro other
  cases tracked : metrics.dequeueTimestamps.find? taskId with
  | none =>
    by_cases same : other = queue <;>
      simp [tally, recordAck, Tally.add, Counters.count_bump, same, latencyOf, tracked]
  | some entry =>
    by_cases same : other = queue
    · subst same
      simp [tally, recordAck, Tally.add, Counters.count_bump, latencyOf, tracked,
        Samples.at_push_bounded]
    · simp [tally, recordAck, Counters.count_bump, same, tracked, Samples.at_push_of_ne]

theorem recordNack_charges (metrics : MetricsCollector) (queue : Key) (taskId : String)
    (deadLettered : Bool) :
    metrics.Charges (metrics.recordNack queue taskId deadLettered) queue
      (.nacked deadLettered) := by
  intro other
  cases deadLettered <;> by_cases same : other = queue <;>
    simp [tally, recordNack, Tally.add, Counters.count_bump, same]

theorem tally_recordProduce (metrics : MetricsCollector) (queue : Key) (now : Rat) :
    (metrics.recordProduce queue now).tally = metrics.tally := rfl

/-- Reports do not touch the counters. -/
theorem Prunes.tally_eq (prunes : metrics.Prunes metrics') : metrics'.tally = metrics.tally := by
  obtain ⟨_, _, rfl⟩ := prunes
  rfl

namespace Attributed

theorem of_tally_eq (attributed : metrics.Attributed seen)
    (same : metrics'.tally = metrics.tally) : metrics'.Attributed seen :=
  fun queue => (congrFun same queue).trans (attributed queue)

/-- An incident has to be charged to the queue of its task. -/
theorem charged_iff (attributed : metrics.Attributed seen)
    (charges : metrics.Charges metrics' queue incident) (own : Key) :
    metrics'.Attributed (seen ++ [⟨own, incident⟩]) ↔ queue = own := by
  unfold Attributed
  simp only [charges _, incidentsOf_concat, attributed _]
  constructor
  · intro agree
    by_contra other
    have missed := agree own
    rw [if_neg (Ne.symm other), if_pos rfl, Tally.of_concat] at missed
    exact Tally.add_ne _ _ missed.symm
  · rintro rfl name
    by_cases same : name = queue
    · subst same
      rw [if_pos rfl, if_pos rfl, Tally.of_concat]
    · rw [if_neg same, if_neg (Ne.symm same), List.append_nil]

/-- An incident that the collector is not told of is missed. -/
theorem not_of_tally_eq (attributed : metrics.Attributed seen)
    (same : metrics'.tally = metrics.tally) (occurrence : Occurrence) :
    ¬ metrics'.Attributed (seen ++ [occurrence]) := by
  intro agree
  have missed := agree occurrence.queue
  rw [same, attributed, incidentsOf_concat, if_pos rfl, Tally.of_concat] at missed
  exact Tally.add_ne _ _ missed.symm

end Attributed

/-- A new collector, and nothing has happened. -/
theorem attributed_new (startTime : Rat) :
    ({ startTime } : MetricsCollector).Attributed [] :=
  fun _ => by simp [tally, Tally.of, incidentsOf, Counters.count, Samples.at]

end MetricsCollector

/-! ## Commands -/

namespace Memory

variable {env : Env} {message : Message} {memory : Memory} {seen : List Occurrence}

/-- The task that a CONSUME takes from its queue. -/
def delivered (memory : Memory) (message : Message) : Option Task :=
  if (message.get "queue" .null).truthy ∧ (message.get "worker_id" .null).truthy then
    (message.get "queue" .null).scalar?.bind fun queue =>
      (memory.queueManager.dequeue queue (message.get "worker_id" .null)).1
  else none

/-- What an event does to a task, by the books of the queue manager. -/
def occurs (env : Env) (memory : Memory) : Action → Option Occurrence
  | .command message =>
    match commandOf message with
    | some .consume =>
      (memory.delivered message).map fun task => ⟨task.queueName.key, .delivered⟩
    | some .ack => do
      let id ← memory.named message
      let task ← memory.queueManager.inFlight.find? id
      some ⟨task.queueName.key, .acked (memory.metrics.latencyOf id env.monotonic)⟩
    | some .nack => do
      let id ← memory.named message
      let (action, task) ← (memory.queueManager.negativeAcknowledge env.time id).1
      some ⟨task.queueName.key, .nacked (action = .deadLettered)⟩
    | _ => none
  | _ => none

/-- The collector is told what happened, and of the queue of the task: a CONSUME that takes a task
names its queue and a worker that is a key, an ACK carries the queue of its task, and neither
ACK nor NACK raises before it gets to the collector. -/
def Informs (env : Env) (memory : Memory) : Action → Prop
  | .command message =>
    match commandOf message with
    | some .consume =>
      ∀ task ∈ memory.delivered message,
        (message.get "worker_id" .null).scalar?.isSome ∧
          (message.get "queue" .null).scalar?.map Scalar.key = some task.queueName.key
    | some .ack =>
      ∀ id ∈ memory.named message, ∀ task ∈ memory.queueManager.inFlight.find? id,
        ackChecks env memory.workerRegistry message id = .ok () ∧
          (message.get "queue" (.str "unknown")).scalar?.map Scalar.key =
            some task.queueName.key
    | some .nack =>
      ∀ id ∈ memory.named message,
        (completion env memory.workerRegistry message id).1 = .ok ()
    | _ => True
  | _ => True

/-- A wildcard CONSUME is charged to `*`, not to the queue of the task. -/
theorem consume_attributed_iff (attributed : memory.metrics.Attributed seen)
    (command : commandOf message = some .consume) :
    (memory.consume env message).metrics.Attributed
        (seen ++ (memory.occurs env (.command message)).toList) ↔
      memory.Informs env (.command message) := by
  simp only [occurs, Informs, command, delivered, Memory.consume]
  split_ifs with given
  · cases hashed : (message.get "queue" .null).scalar? with
    | none => simpa using attributed
    | some queue =>
      cases taken : memory.queueManager.dequeue queue (message.get "worker_id" .null) with
      | mk result qm =>
        cases result with
        | none => simpa [taken] using attributed
        | some task =>
          cases consumer : (message.get "worker_id" .null).scalar? with
          | none => simpa [taken] using attributed.not_of_tally_eq rfl _
          | some worker =>
            simpa [taken, deliver] using attributed.charged_iff
              (memory.metrics.recordConsume_charges queue.key task.taskId env.monotonic)
              task.queueName.key
  · simpa using attributed

theorem ack_attributed_iff (attributed : memory.metrics.Attributed seen)
    (command : commandOf message = some .ack) :
    (memory.ack env message).metrics.Attributed
        (seen ++ (memory.occurs env (.command message)).toList) ↔
      memory.Informs env (.command message) := by
  simp only [occurs, Informs, command, Memory.ack]
  cases isNamed : memory.named message with
  | none => simpa using attributed
  | some id =>
    obtain ⟨-, task, found⟩ := named_spec isNamed
    cases checks : ackChecks env memory.workerRegistry message id with
    | error e =>
      simpa [found, acknowledgedMetrics, checks] using attributed.not_of_tally_eq rfl _
    | ok value =>
      cases hashed : (message.get "queue" (.str "unknown")).scalar? with
      | none =>
        simpa [found, acknowledgedMetrics, checks, hashed] using
          attributed.not_of_tally_eq rfl _
      | some queue =>
        simpa [found, acknowledgedMetrics, checks, hashed] using attributed.charged_iff
          (memory.metrics.recordAck_charges queue.key id env.monotonic) task.queueName.key

theorem nack_attributed_iff (attributed : memory.metrics.Attributed seen)
    (command : commandOf message = some .nack) :
    (memory.nack env message).metrics.Attributed
        (seen ++ (memory.occurs env (.command message)).toList) ↔
      memory.Informs env (.command message) := by
  simp only [occurs, Informs, command, Memory.nack]
  cases isNamed : memory.named message with
  | none => simpa using attributed
  | some id =>
    obtain ⟨-, task, found⟩ := named_spec isNamed
    cases nacked : memory.queueManager.negativeAcknowledge env.time id with
    | mk result qm =>
      rcases QueueManager.negativeAcknowledge_cases nacked with
        ⟨absent, -, -⟩ | ⟨_, action, rejected, -, rfl, -⟩
      · rw [found] at absent
        cases absent
      · cases completed : (completion env memory.workerRegistry message id).1 with
        | error e =>
          simpa [nacked, completed] using attributed.not_of_tally_eq rfl _
        | ok value =>
          simpa [nacked, completed] using attributed.charged_iff
            (memory.metrics.recordNack_charges rejected.queueName.key id
              (action = .deadLettered)) rejected.queueName.key

theorem produce_tally : (memory.produce env message).metrics.tally = memory.metrics.tally := by
  unfold Memory.produce
  split_ifs
  · split
    · rfl
    · split_ifs
      · exact MetricsCollector.tally_recordProduce _ _ _
      · rfl
  · rfl

theorem register_tally : (memory.register env message).metrics.tally = memory.metrics.tally := by
  unfold Memory.register
  split_ifs
  · split <;> rfl
  · rfl

theorem heartbeat_tally :
    (memory.heartbeat env message).metrics.tally = memory.metrics.tally := by
  unfold Memory.heartbeat
  split_ifs
  · split <;> rfl
  · rfl

end Memory

/-! ## Steps -/

section Step

variable {platform : Platform} {env : Env} {m : Machine} {seen : List Occurrence}

/-- **An event keeps the figures right if and only if it informs the collector.** -/
theorem perform_attributed_iff (attributed : m.broker.metrics.Attributed seen) {action : Action}
    (noReset : action ≠ .reset) :
    Leaves (perform platform env action) m fun memory =>
      memory.metrics.Attributed (seen ++ (m.broker.memory.occurs env action).toList) ↔
        m.broker.memory.Informs env action := by
  -- where nothing happens to a task, the figures have to stay
  have frame {α : Type} {program : BrokerM α} (nothing : m.broker.memory.occurs env action = none)
      (informed : m.broker.memory.Informs env action)
      (leaves : Leaves program m fun memory => memory.metrics.tally = m.broker.metrics.tally) :
      Leaves program m fun memory =>
        memory.metrics.Attributed (seen ++ (m.broker.memory.occurs env action).toList) ↔
          m.broker.memory.Informs env action := by
    refine leaves.mono fun memory same => iff_of_true ?_ informed
    rw [nothing, Option.toList_none, List.append_nil]
    exact attributed.of_tally_eq same
  have exactly {α : Type} {program : BrokerM α} {memory : Memory}
      (leaves : Leaves program m (· = memory))
      (after : memory.metrics.tally = m.broker.metrics.tally) :
      Leaves program m fun memory => memory.metrics.tally = m.broker.metrics.tally :=
    leaves.mono fun _ same => same ▸ after
  have administers {α : Type} {program : BrokerM α}
      (leaves : Leaves program m (m.broker.memory.Administers ·)) :
      Leaves program m fun memory => memory.metrics.tally = m.broker.metrics.tally :=
    leaves.mono fun _ administers => administers.metrics.tally_eq
  cases action with
  | command message =>
    unfold Leaves perform
    simp only [wp_bind, wp_pure]
    refine wp_dispatch (fun unknown => ?_) fun command named => ?_
    · have nothing : m.broker.memory.occurs env (.command message) = none := by
        simp only [Memory.occurs, unknown]
      have informed : m.broker.memory.Informs env (.command message) := by
        simp only [Memory.Informs, unknown]
      rw [nothing, Option.toList_none, List.append_nil]
      exact ⟨fun _ => iff_of_true attributed informed,
        fun _ => iff_of_true attributed informed⟩
    have other (ordinary : command ≠ .consume ∧ command ≠ .ack ∧ command ≠ .nack) :
        m.broker.memory.occurs env (.command message) = none ∧
          m.broker.memory.Informs env (.command message) := by
      obtain ⟨notConsume, notAck, notNack⟩ := ordinary
      simp only [Memory.occurs, Memory.Informs, named]
      cases command with
      | consume => exact absurd rfl notConsume
      | ack => exact absurd rfl notAck
      | nack => exact absurd rfl notNack
      | _ => exact ⟨rfl, trivial⟩
    cases command with
    | produce =>
      obtain ⟨nothing, informed⟩ := other (by decide)
      exact frame nothing informed (exactly handleProduce_leaves Memory.produce_tally)
    | consume =>
      exact handleConsume_leaves.mono fun _ same =>
        same ▸ Memory.consume_attributed_iff attributed named
    | register =>
      obtain ⟨nothing, informed⟩ := other (by decide)
      exact frame nothing informed (exactly handleRegister_leaves Memory.register_tally)
    | heartbeat =>
      obtain ⟨nothing, informed⟩ := other (by decide)
      exact frame nothing informed (exactly handleHeartbeat_leaves Memory.heartbeat_tally)
    | ack =>
      exact handleAck_leaves.mono fun _ same =>
        same ▸ Memory.ack_attributed_iff attributed named
    | nack =>
      exact handleNack_leaves.mono fun _ same =>
        same ▸ Memory.nack_attributed_iff attributed named
    | dlqList =>
      obtain ⟨nothing, informed⟩ := other (by decide)
      exact frame nothing informed (administers handleDlqList_leaves)
    | dlqReplay =>
      obtain ⟨nothing, informed⟩ := other (by decide)
      exact frame nothing informed (administers handleDlqReplay_leaves)
    | dlqPurge =>
      obtain ⟨nothing, informed⟩ := other (by decide)
      exact frame nothing informed (administers handleDlqPurge_leaves)
    | stats =>
      obtain ⟨nothing, informed⟩ := other (by decide)
      exact frame nothing informed rfl
    | metrics =>
      obtain ⟨nothing, informed⟩ := other (by decide)
      exact frame nothing informed (administers handleMetrics_leaves)
  | evict order =>
    refine frame rfl trivial ?_
    unfold Leaves perform evictionPass
    simp only [wp_bind, wp_get, wp_set, wp_pure]
    cases (evictDeadWorkers order env.time m.broker.workerRegistry m.broker.queueManager).1 <;>
      rfl
  | reset => exact absurd rfl noReset
  | replayAll =>
    refine frame rfl trivial ?_
    unfold Leaves perform replayDlqHandler
    simp only [wp_bind, wp_onQueueManager, wp_pure]
    rfl
  | crashWorker pick =>
    refine frame rfl trivial ?_
    unfold Leaves perform crashWorkerHandler
    simp only [wp_bind, wp_onRegistry, wp_pure]
    rfl
  | crash => exact frame rfl trivial rfl
  | start => exact frame rfl trivial rfl

end Step

/-! ## Whole runs -/

section Run

variable {config : Config} {platform : Platform}

/-- The record after a step.  It begins with the process. -/
def System.sees (system next : System) (event : Event) (seen : List Occurrence) :
    List Occurrence :=
  match system, next with
  | .running broker _, .running _ _ =>
    seen ++ (broker.memory.occurs event.env event.action).toList
  | _, _ => []

/-- The record of a run, from a state and the record up to it. -/
def seenFrom (config : Config) (platform : Platform) (system : System)
    (seen : List Occurrence) : List Event → List Occurrence
  | [] => seen
  | event :: rest =>
    let next := (step config platform system event).2
    seenFrom config platform next (system.sees next event seen) rest

/-- What happened to tasks since the process was started. -/
def seen (config : Config) (platform : Platform) (events : List Event) : List Occurrence :=
  seenFrom config platform System.initial [] events

theorem seen_concat (config : Config) (platform : Platform) (events : List Event)
    (event : Event) :
    seen config platform (events ++ [event]) =
      (reach config platform events).sees
        (step config platform (reach config platform events) event).2 event
        (seen config platform events) := by
  have general (system : System) (before : List Occurrence) :
      seenFrom config platform system before (events ++ [event]) =
        (Trace.after (step config platform) system events).sees
          (step config platform (Trace.after (step config platform) system events) event).2 event
          (seenFrom config platform system before events) := by
    induction events generalizing system before with
    | nil => rfl
    | cons first rest ih => exact ih _ _
  exact general System.initial []

/-- The step condition: an event that the process survives informs the collector. -/
def InformsStep (config : Config) (platform : Platform) : System → Event → Prop
  | .running broker disk, event =>
    (step config platform (.running broker disk) event).2.Remembers fun _ =>
      broker.memory.Informs event.env event.action
  | .stopped _, _ => True

instance (env : Env) (memory : Memory) (action : Action) :
    Decidable (memory.Informs env action) := by
  unfold Memory.Informs
  split
  · split <;> infer_instance
  · infer_instance

instance (config : Config) (platform : Platform) :
    (system : System) → (event : Event) → Decidable (InformsStep config platform system event)
  | .running broker disk, event =>
    match next : (step config platform (.running broker disk) event).2 with
    | .running _ _ =>
      decidable_of_iff (broker.memory.Informs event.env event.action)
        (by simp only [InformsStep, next]; exact Iff.rfl)
    | .stopped _ => .isTrue (by simp only [InformsStep, next]; exact trivial)
  | .stopped _, _ => .isTrue trivial

/-- **The step lemma.** -/
theorem step_attributed_iff {system : System} {event : Event} {before : List Occurrence}
    (attributed : system.Remembers (·.metrics.Attributed before))
    (noReset : event.action ≠ .reset) :
    (step config platform system event).2.Remembers
        (·.metrics.Attributed
          (system.sees (step config platform system event).2 event before)) ↔
      InformsStep config platform system event := by
  cases system with
  | running broker disk =>
    have kept : (step config platform (.running broker disk) event).2.Remembers fun memory =>
        memory.metrics.Attributed
            (before ++ (broker.memory.occurs event.env event.action).toList) ↔
          broker.memory.Informs event.env event.action := by
      refine step_remembers (fun running stored position => ?_) nofun
      cases position
      exact perform_attributed_iff (m := { broker, disk, crashIn := event.crashIn }) attributed
        noReset
    simp only [InformsStep]
    cases next : (step config platform (.running broker disk) event).2 with
    | running broker' disk' =>
      rw [next] at kept
      exact kept
    | stopped disk' => exact Iff.rfl
  | stopped disk =>
    refine iff_of_true (step_remembers nofun fun stored position isStart => ?_) trivial
    have new : (Broker.new config event.env).metrics.Attributed [] :=
      MetricsCollector.attributed_new _
    exact recover_leaves.mono fun memory administers =>
      new.of_tally_eq administers.metrics.tally_eq

/-- **Metrics by queue.**  In a run without resets, the collector's figures for every queue are
about the tasks of that queue in every state, if and only if every event informs the
collector. -/
theorem attributed_iff {events : List Event}
    (noReset : ∀ event ∈ events, event.action ≠ .reset) :
    (∀ front back, events = front ++ back →
        (reach config platform front).Remembers
          (·.metrics.Attributed (seen config platform front))) ↔
      Trace.EachStep (step config platform) System.initial
        (fun _ system event => InformsStep config platform system event) events := by
  constructor
  · intro holds front event back split
    have before := holds front (event :: back) split
    have after := holds (front ++ [event]) back (by rw [split]; simp)
    rw [seen_concat, reach_concat] at after
    exact (step_attributed_iff before (noReset event (by rw [split]; simp))).mp after
  · rintro informs front back rfl
    have steps := informs.front
    clear informs
    induction front using List.reverseRecOn with
    | nil => trivial
    | append_singleton front event ih =>
      have before := ih (fun other inside => noReset other (by simp at inside ⊢; tauto))
        steps.front
      rw [seen_concat, reach_concat]
      exact (step_attributed_iff before (noReset event (by simp))).mpr steps.last

/-- A task is produced, taken by a CONSUME of any queue, and acknowledged. -/
def wildcardRun : List Event :=
  [.at 0 .start, .at 1 (.produce "q" "p"), .at 2 (.consume "*" "w"), .at 3 (.ack (idAt 1))]

/-- **Nothing is charged to the queue of the task.**  It was consumed from queue `*` and
acknowledged in queue `unknown`. -/
theorem wildcard_charged_elsewhere :
    ∃ broker disk, reach { persistent := false } .plain wildcardRun = .running broker disk ∧
      seen { persistent := false } .plain wildcardRun =
        [⟨.str "q", .delivered⟩, ⟨.str "q", .acked (some 1000)⟩] ∧
      broker.metrics.tally (.str "q") = ⟨0, 0, 0, 0, []⟩ ∧
      broker.metrics.tally (.str "*") = ⟨1, 0, 0, 0, []⟩ ∧
      broker.metrics.tally (.str "unknown") = ⟨0, 1, 0, 0, [1000]⟩ ∧
      ¬ broker.metrics.Attributed (seen { persistent := false } .plain wildcardRun) := by
  obtain ⟨broker, disk, position, shown⟩ := @System.of_passes
    (fun broker _ => decide (seen { persistent := false } .plain wildcardRun =
        [⟨.str "q", .delivered⟩, ⟨.str "q", .acked (some 1000)⟩] ∧
      broker.metrics.tally (.str "q") = ⟨0, 0, 0, 0, []⟩ ∧
      broker.metrics.tally (.str "*") = ⟨1, 0, 0, 0, []⟩ ∧
      broker.metrics.tally (.str "unknown") = ⟨0, 1, 0, 0, [1000]⟩))
    (reach { persistent := false } .plain wildcardRun) (by decide +kernel)
  obtain ⟨record, own, wildcard, unknown⟩ := of_decide_eq_true shown
  refine ⟨broker, disk, position, record, own, wildcard, unknown, fun attributed => ?_⟩
  have consumed := congrArg Tally.consumed (attributed (.str "q"))
  rw [record, own] at consumed
  cases consumed

/-- The same run with the queue in both messages: it is charged with all of it. -/
theorem attributed_iff_named :
    (reach { persistent := false } .plain
      [.at 0 .start, .at 1 (.produce "q" "p"), .at 2 (.consume "q" "w"),
        .at 3 (.send "ACK" [("task_id", .str (idAt 1)), ("queue", .str "q")])]).Remembers
      (·.metrics.Attributed
        [⟨.str "q", .delivered⟩, ⟨.str "q", .acked (some 1000)⟩]) := by
  have record : seen { persistent := false } .plain
      [.at 0 .start, .at 1 (.produce "q" "p"), .at 2 (.consume "q" "w"),
        .at 3 (.send "ACK" [("task_id", .str (idAt 1)), ("queue", .str "q")])] =
      [⟨.str "q", .delivered⟩, ⟨.str "q", .acked (some 1000)⟩] := by decide +kernel
  rw [← record]
  refine (attributed_iff ?_).mpr (Trace.eachStep_of_all (by decide +kernel)) _ []
    (List.append_nil _).symm
  simp [Event.at, Action.produce, Action.consume, Action.send]

end Run

end DistroSync
