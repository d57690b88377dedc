import DistroSync.Assignments
import DistroSync.HeldTask

/-!
# A broker and its workers

The broker of `broker/server.py` together with any number of the workers of
`worker/base_worker.py`, each on its own connection.  Whatever gets a turn next, gets it:
a coroutine of some worker, the broker for the next request of some worker, or anything
else that happens to the broker.  The requests of a worker are what its coroutines send, and
the responses are what the broker's handlers return.

Each side keeps its own record of who works on what.  The broker has the tasks in flight
with the workers they were assigned to; a worker has the task that it holds.  The two
records agree at every moment (`Agrees`), although a worker learns later than the broker
that it has got a task, and that it has got rid of one.  So a task is never executed by
two workers at once, and when the ACK or NACK of a worker arrives, the task is there.

This takes some consideration of others: they send string fields, answer for no task that one
of the workers holds, take none in the name of these workers, give a store only what it can
take, and nobody is evicted.  And a response has to arrive.  A task that is nested too deeply
for `_send_response` is in flight for a worker that never learns of it, so there must be none
among the pending tasks.  The requests of the workers are such as the connection loop reads
(an error text of more than ten megabytes makes a NACK that is refused), and the texts of the
responses fit into their frames.
-/

namespace DistroSync

open Keyed Py Trace

namespace Cluster

/-- What happens to a worker, apart from the responses of the broker. -/
inductive Own where
  | turn (coroutine : Coroutine)
  | executed (outcome : BaseWorker.Outcome)
  | shutdown
  | cancel

/-- The event of the worker. -/
def Own.event : Own → BaseWorker.Event
  | .turn coroutine => .turn coroutine
  | .executed outcome => .executed outcome
  | .shutdown => .shutdown
  | .cancel => .cancel

/-- What can happen to a broker with its workers. -/
inductive Event (ι : Type) where
  | worker (i : ι) (own : Own)
  /-- The broker handles the next request of the worker, which its connection loop could read. -/
  | serve (i : ι) (env : Env)
  /-- Anything else happens to the broker. -/
  | elsewhere (event : DistroSync.Event)

end Cluster

/-- A broker, and the workers that are connected to it. -/
structure Cluster (ι : Type) where
  system : System
  workers : ι → BaseWorker.Attached

namespace Cluster

variable {ι : Type} [DecidableEq ι]

/-- An event of the broker, with its outcome. -/
abbrev Deed := DistroSync.Event × Outcome

/-- The broker handles a request of a worker.  If the handler raises, or its response cannot be
written or read, the worker waits for it in vain. -/
def respond (config : Config) (wire : Wire) (c : Cluster ι) (i : ι) (event : DistroSync.Event) :
    Option Deed × Cluster ι :=
  match DistroSync.step config wire.platform c.system event with
  | (.answered response, system) =>
    if wire.Conveys (response.toJson wire) then
      (some (event, .answered response),
        { system
          workers := Function.update c.workers i
            ((c.workers i).step (.serve (response.toJson wire))).2 })
    else (some (event, .answered response), { c with system })
  | (outcome, system) => (some (event, outcome), { c with system })

/-- One event, with what the broker did in it. -/
def step (config : Config) (wire : Wire) (c : Cluster ι) : Event ι → Option Deed × Cluster ι
  | .worker i own =>
    (none,
      { c with workers := Function.update c.workers i ((c.workers i).step own.event).2 })
  | .serve i env =>
    match (c.workers i).connection.requests with
    | [] => (none, c)
    | request :: _ => c.respond config wire i { action := .command request, env }
  | .elsewhere event =>
    (some (event, (DistroSync.step config wire.platform c.system event).1),
      { c with system := (DistroSync.step config wire.platform c.system event).2 })

/-- What the broker did in a run. -/
def deeds (trace : List (Event ι × Option Deed)) : List Deed := trace.filterMap Prod.snd

/-- The workers before their first turn, at a broker that has been running. -/
def start (config : Config) (wire : Wire) (past : List DistroSync.Event)
    (queues names : ι → String) : Cluster ι where
  system := reach config wire.platform past
  workers i := .initial (queues i) (names i)

/-! ## Runs of the broker in runs of the cluster -/

section Broker

variable {config : Config} {wire : Wire}

theorem respond_system (c : Cluster ι) (i : ι) (event : DistroSync.Event) :
    (c.respond config wire i event).1 =
        some (event, (DistroSync.step config wire.platform c.system event).1) ∧
      (c.respond config wire i event).2.system =
        (DistroSync.step config wire.platform c.system event).2 := by
  unfold respond
  split
  · rename_i steps
    rw [steps]
    split_ifs <;> exact ⟨rfl, rfl⟩
  · rename_i steps
    rw [steps]
    exact ⟨rfl, rfl⟩

/-- The broker takes the steps that are its own. -/
theorem step_system (c : Cluster ι) (event : Event ι) :
    ((c.step config wire event).1 = none ∧ (c.step config wire event).2.system = c.system) ∨
      ∃ own, (c.step config wire event).1 =
          some (own, (DistroSync.step config wire.platform c.system own).1) ∧
        (c.step config wire event).2.system =
          (DistroSync.step config wire.platform c.system own).2 := by
  cases event with
  | worker i own => exact Or.inl ⟨rfl, rfl⟩
  | serve i env =>
    unfold step
    simp only
    split
    · exact Or.inl ⟨rfl, rfl⟩
    · exact Or.inr ⟨_, c.respond_system i _⟩
  | elsewhere event => exact Or.inr ⟨event, rfl, rfl⟩

theorem deeds_concat (c : Cluster ι) (events : List (Event ι)) (event : Event ι) :
    deeds (trace (step config wire) c (events ++ [event])) =
      deeds (trace (step config wire) c events) ++
        ((after (step config wire) c events).step config wire event).1.toList := by
  unfold deeds
  rw [trace_concat, List.filterMap_append]
  exact congrArg _ (BaseWorker.filterMap_toList _ (some _))

/-- **What the broker does in a run of the cluster is a run of the broker.** -/
theorem history_deeds (past : List DistroSync.Event) (queues names : ι → String)
    (events : List (Event ι)) :
    history config wire.platform
        (past ++ (deeds (trace (step config wire) (start config wire past queues names)
          events)).map Prod.fst) =
      history config wire.platform past ++
        deeds (trace (step config wire) (start config wire past queues names) events) ∧
    (after (step config wire) (start config wire past queues names) events).system =
      reach config wire.platform
        (past ++ (deeds (trace (step config wire) (start config wire past queues names)
          events)).map Prod.fst) := by
  induction events using List.reverseRecOn with
  | nil =>
    refine ⟨?_, ?_⟩
    · show history config wire.platform (past ++ []) = history config wire.platform past ++ []
      rw [List.append_nil, List.append_nil]
    · show reach config wire.platform past = reach config wire.platform (past ++ [])
      rw [List.append_nil]
  | append_singleton events event ih =>
    obtain ⟨logged, position⟩ := ih
    rw [deeds_concat, after_concat]
    rcases step_system (after (step config wire) (start config wire past queues names) events)
      event with ⟨nothing, stays⟩ | ⟨own, did, moves⟩
    · rw [nothing, stays]
      simpa using ⟨logged, position⟩
    · rw [did, moves, position]
      show history config wire.platform (past ++ List.map Prod.fst (_ ++ [_])) = _ ∧
        _ = reach config wire.platform (past ++ List.map Prod.fst (_ ++ [_]))
      rw [List.map_append, ← List.append_assoc, ← List.append_assoc, ← logged]
      exact ⟨history_concat .., (reach_concat ..).symm⟩

end Broker

/-! ## Consideration -/

end Cluster

/-- No registered worker has missed its heartbeats. -/
def System.Timely (now : Rat) : System → Prop
  | .running broker _ =>
    ∀ worker ∈ broker.workerRegistry.workers.rows, WorkerRegistry.expired now worker = false
  | .stopped _ => True

instance (now : Rat) (system : System) : Decidable (system.Timely now) :=
  match system with
  | .running broker _ => inferInstanceAs (Decidable (∀ worker ∈
      broker.workerRegistry.workers.rows, WorkerRegistry.expired now worker = false))
  | .stopped _ => inferInstanceAs (Decidable True)

/-- No pending task is nested too deeply to be handed out, or to be read by the worker that gets
it: its payload stands two levels deep in the response. -/
def System.Shallow (wire : Wire) : System → Prop
  | .running broker _ => ∀ task ∈ broker.queueManager.pending,
      task.payload.depth + 2 ≤ wire.replyDepth ∧ task.payload.depth + 2 ≤ wire.readDepth
  | .stopped _ => True

instance (wire : Wire) (system : System) : Decidable (system.Shallow wire) :=
  match system with
  | .running broker _ => inferInstanceAs (Decidable (∀ task ∈ broker.queueManager.pending,
      task.payload.depth + 2 ≤ wire.replyDepth ∧ task.payload.depth + 2 ≤ wire.readDepth))
  | .stopped _ => inferInstanceAs (Decidable True)

namespace Cluster

variable {ι : Type} [DecidableEq ι] (config : Config) (wire : Wire)

/-- The actions of others, while the workers work.  Their ACKs and NACKs are for tasks that none
of the workers holds, and their CONSUMEs in the name of none. -/
def Allows (c : Cluster ι) (now : Rat) : Action → Prop
  | .command message =>
    TextFields message ∧
      (commandOf message = some .ack ∨ commandOf message = some .nack →
        ∀ i, ∀ id ∈ stringOf (message.get "task_id" .null),
          (c.workers i).held.bind stringOf ≠ some id) ∧
      (commandOf message = some .consume →
        ∀ i, (message.get "worker_id" .null).scalar? ≠
          some (.str (c.workers i).worker.workerId))
  | .evict _ => c.system.Timely now
  | _ => False

/-- What others may do to the broker while the workers work. -/
def Considerate (c : Cluster ι) (event : DistroSync.Event) : Prop :=
  event.crashIn = none ∧ c.Allows event.env.time event.action ∧
    (config.persistent = true → event.action.Storable wire.platform)

/-- The next request of the worker can get to the broker and the response to it back: the
connection loop can read the request, the broker has no task that is nested too deeply, and the
text of the response fits into a frame. -/
def Reachable (c : Cluster ι) (i : ι) (env : Env) : Prop :=
  c.system.Shallow wire ∧ ∀ request ∈ (c.workers i).connection.requests.head?,
    Readable wire request ∧ (DistroSync.step config wire.platform c.system
      { action := .command request, env }).1.Framed wire

/-- The events of a run without mishaps: executions end in a presentable way, no `_send` is
cancelled, requests and responses get through, and others are considerate. -/
def Proper (c : Cluster ι) : Event ι → Prop
  | .worker i own =>
    (c.workers i).worker.presentable own.event = true ∧
      ((c.workers i).step own.event).1.occurrences.all (fun entry => !entry.2.isCancelled) = true
  | .serve i env => c.Reachable config wire i env
  | .elsewhere event => c.Considerate config wire event

end Cluster

/-! ## The workers -/

namespace BaseWorker

/-- What holds of a worker on which no call is cancelled. -/
structure Regular (s : Attached) : Prop where
  orderly : ∃ slot, SharedChannel.Orderly s.connection slot
  synced : Synced s
  formats : s.worker.Formats

section Regular

variable {s : Attached} {event : Event}

theorem regular_initial (queueName workerId : String) : Regular (.initial queueName workerId) := by
  refine ⟨⟨none, SharedChannel.orderly_initial⟩, synced_initial queueName workerId, ?_⟩
  rintro taskId text ⟨⟩

theorem Regular.step (regular : Regular s) (presentable : s.worker.presentable event = true)
    (uncancelled : SharedChannel.Uncancelled (s.step event).1.occurrences) :
    Regular (s.step event).2 := by
  obtain ⟨⟨slot, orderly⟩, synced, formats⟩ := regular
  exact ⟨orderly.run uncancelled, synced.step orderly uncancelled,
    (synced.tally orderly formats presentable uncancelled).formats⟩

theorem presentable_serve (w : BaseWorker) (response : Json) :
    w.presentable (.serve response) = true := by
  unfold presentable
  cases w.consumeLoop <;> rfl

theorem uncancelled_serve (s : Attached) (response : Json) :
    SharedChannel.Uncancelled (s.step (.serve response)).1.occurrences := by
  intro entry inside caller
  have only : entry = (.serve response, (s.connection.serve response).1) :=
    List.mem_singleton.mp inside
  rw [only]
  unfold SharedChannel.Channel.serve
  split <;> nofun

theorem Regular.serve (regular : Regular s) (response : Json) :
    Regular (s.step (.serve response)).2 :=
  regular.step (presentable_serve s.worker response) (uncancelled_serve s response)

end Regular

/-! ### A worker keeps its name -/

section Names

variable (w : BaseWorker)

@[simp] theorem workerId_proceed : w.proceed.2.workerId = w.workerId := by
  unfold proceed
  split_ifs <;> rfl

@[simp] theorem workerId_reject (taskId : Json) (error : Raised) :
    (w.reject taskId error).2.workerId = w.workerId := by
  unfold reject
  split <;> rfl

theorem workerId_resume (response : Json) : (w.resume response).2.workerId = w.workerId := by
  unfold resume
  cases w.consumeLoop with
  | registering =>
    simp only
    split_ifs
    · exact workerId_proceed _
    · rfl
  | consuming =>
    simp only
    split
    · rfl
    · rfl
    · exact workerId_reject ..
    · rfl
  | acknowledging taskId result =>
    cases result with
    | ok text => rfl
    | error error => exact workerId_reject ..
  | _ => rfl

theorem workerId_react (event : Event) (response : Option Json) :
    (w.react event response).2.workerId = w.workerId := by
  unfold react
  split
  · exact workerId_resume w _
  · unfold wake
    split
    · rfl
    · exact workerId_proceed w
    · exact workerId_proceed w
    · rfl
  · unfold beaten
    split <;> rfl
  · unfold beat
    split
    · rfl
    · split_ifs <;> rfl
    · rfl
  · unfold executed
    split
    · split
      · rfl
      · exact workerId_reject ..
      · rfl
    · rfl
  · rfl
  · rfl
  · rfl

end Names

/-! ### Requests of a worker -/

section Requests

variable (w : BaseWorker)

theorem textFields_registerRequest : TextFields w.registerRequest := by
  refine ⟨?_, ?_, ?_, ?_⟩
  · rintro value ⟨⟩
  · rintro value ⟨⟩
    exact ⟨_, rfl⟩
  · rintro value ⟨⟩
  · rintro value ⟨⟩
    refine ⟨_, rfl, fun name inside => ?_⟩
    exact ⟨_, List.mem_singleton.mp inside⟩

theorem textFields_heartbeatRequest : TextFields w.heartbeatRequest :=
  textFields_of_strings (by simp [heartbeatRequest])

theorem textFields_consumeRequest : TextFields w.consumeRequest :=
  textFields_of_strings (by simp [consumeRequest])

theorem textFields_ackRequest (id : String) : TextFields (w.ackRequest (.str id)) :=
  textFields_of_strings (by simp [ackRequest])

theorem textFields_nackRequest (id error : String) : TextFields (w.nackRequest (.str id) error) :=
  textFields_of_strings (by simp [nackRequest])

/-- A store is given the name of the worker, and only by a CONSUME. -/
theorem storable_of_binds {platform : Platform} (binds : platform.Binds w.workerId) :
    Storable platform w.consumeRequest := by
  refine ⟨nofun, fun _ text isName => ?_, nofun⟩
  obtain rfl := Option.some.inj isName
  exact binds

theorem storable_of_other {platform : Platform} {request : Message} {command : Command}
    (named : commandOf request = some command)
    (other : command ≠ .produce ∧ command ≠ .dlqPurge ∧ command ≠ .consume) :
    Storable platform request := by
  have excluded {wanted : Command} (is : commandOf request = some wanted) : wanted = command :=
    Option.some.inj (is.symm.trans named)
  refine ⟨?_, fun is => ?_, fun is => ?_⟩
  · rintro (is | is)
    · exact absurd (excluded is).symm other.1
    · exact absurd (excluded is).symm other.2.1
  · exact absurd (excluded is).symm other.2.2
  · exact absurd (excluded is).symm other.1

end Requests

end BaseWorker

/-! ## Agreement -/

namespace Cluster

variable {ι : Type}

/-- The broker and the workers agree on who has which task. -/
structure Agrees (c : Cluster ι) (names : ι → String) (qm : QueueManager) : Prop where
  regular : ∀ i, BaseWorker.Regular (c.workers i)
  named : ∀ i, (c.workers i).worker.workerId = names i
  held : ∀ i taskId, (c.workers i).held = some taskId ↔
    ∃ id, taskId = .str id ∧ qm.AssignedTo (names i) id

/-- **No task is in the hands of two workers.** -/
theorem Agrees.exclusive {c : Cluster ι} {names : ι → String} {qm : QueueManager}
    (agrees : c.Agrees names qm) (distinct : Function.Injective names) {i j : ι} {taskId : Json}
    (first : (c.workers i).held = some taskId)
    (second : (c.workers j).held = some taskId) : i = j := by
  obtain ⟨id, rfl, has⟩ := (agrees.held i taskId).mp first
  obtain ⟨_, ⟨⟩, alsoHas⟩ := (agrees.held j (.str id)).mp second
  exact distinct (has.unique alsoHas)

section Agreement

variable [DecidableEq ι] {c : Cluster ι} {names : ι → String} {qm qm' : QueueManager} {i : ι}
  {s : BaseWorker.Attached}

/-- A worker and the broker change what concerns the worker. -/
theorem Agrees.update (agrees : c.Agrees names qm) {system : System}
    (regular : BaseWorker.Regular s) (named : s.worker.workerId = names i)
    (own : ∀ taskId, s.held = some taskId ↔
      ∃ id, taskId = .str id ∧ qm'.AssignedTo (names i) id)
    (others : ∀ j, j ≠ i → ∀ id, qm'.AssignedTo (names j) id ↔ qm.AssignedTo (names j) id) :
    Agrees { system, workers := Function.update c.workers i s } names qm' := by
  have at' (j : ι) : j = i ∧ Function.update c.workers i s j = s ∨
      j ≠ i ∧ Function.update c.workers i s j = c.workers j := by
    by_cases same : j = i
    · subst same
      exact Or.inl ⟨rfl, Function.update_self ..⟩
    · exact Or.inr ⟨same, Function.update_of_ne same ..⟩
  refine ⟨fun j => ?_, fun j => ?_, fun j taskId => ?_⟩
  · show BaseWorker.Regular (Function.update c.workers i s j)
    rcases at' j with ⟨-, is⟩ | ⟨-, is⟩ <;> rw [is]
    · exact regular
    · exact agrees.regular j
  · show (Function.update c.workers i s j).worker.workerId = _
    rcases at' j with ⟨rfl, is⟩ | ⟨-, is⟩ <;> rw [is]
    · exact named
    · exact agrees.named j
  · show (Function.update c.workers i s j).held = _ ↔ _
    rcases at' j with ⟨rfl, is⟩ | ⟨apart, is⟩ <;> rw [is]
    · exact own taskId
    · rw [agrees.held j taskId]
      exact exists_congr fun id => and_congr_right fun _ => (others j apart id).symm

/-- Nothing changes about who has which task. -/
theorem Agrees.still (agrees : c.Agrees names qm) {system : System}
    (regular : BaseWorker.Regular s) (named : s.worker.workerId = names i)
    (held : s.held = (c.workers i).held) (same : qm'.inFlight = qm.inFlight) :
    Agrees { system, workers := Function.update c.workers i s } names qm' := by
  refine agrees.update regular named (fun taskId => ?_) fun j _ id =>
    QueueManager.assignedTo_congr same
  rw [held, agrees.held i taskId]
  exact exists_congr fun id => and_congr_right fun _ => (QueueManager.assignedTo_congr same).symm

/-- A task is delivered to a worker that holds none. -/
theorem Agrees.taken (agrees : c.Agrees names qm) (distinct : Function.Injective names)
    {system : System} (regular : BaseWorker.Regular s) (named : s.worker.workerId = names i)
    {task : Task} (free : (c.workers i).held = none) (held : s.held = some (.str task.taskId))
    (absent : qm.inFlight.find? task.taskId = none)
    (taker : task.assignedWorker = .str (names i))
    (delivered : qm'.inFlight = qm.inFlight.put task) :
    Agrees { system, workers := Function.update c.workers i s } names qm' := by
  have assigned (worker id : String) : qm'.AssignedTo worker id ↔
      qm.AssignedTo worker id ∨ id = task.taskId ∧ task.assignedWorker = .str worker :=
    QueueManager.assignedTo_put absent delivered
  refine agrees.update regular named (fun taskId => ?_) fun j apart id => ?_
  · rw [held]
    constructor
    · rintro ⟨⟩
      exact ⟨_, rfl, (assigned _ _).mpr (Or.inr ⟨rfl, taker⟩)⟩
    · rintro ⟨id, rfl, has⟩
      rcases (assigned _ _).mp has with before | ⟨rfl, -⟩
      · -- a task that it had before would have been held
        have had := (agrees.held i (.str id)).mpr ⟨id, rfl, before⟩
        rw [free] at had
        cases had
      · rfl
  · rw [assigned]
    refine or_iff_left ?_
    rintro ⟨-, other⟩
    exact apart (distinct (Json.str.inj (other.symm.trans taker)))

/-- A worker gets rid of the task that it holds. -/
theorem Agrees.settled (agrees : c.Agrees names qm) (distinct : Function.Injective names)
    {system : System} (regular : BaseWorker.Regular s) (named : s.worker.workerId = names i)
    {id : String} (before : (c.workers i).held = some (.str id)) (free : s.held = none)
    (removed : qm'.inFlight = qm.inFlight.erase id) :
    Agrees { system, workers := Function.update c.workers i s } names qm' := by
  obtain ⟨_, ⟨⟩, had⟩ := (agrees.held i (.str id)).mp before
  refine agrees.update regular named (fun taskId => ?_) fun j apart other => ?_
  · rw [free]
    refine iff_of_false nofun ?_
    rintro ⟨other, rfl, has⟩
    obtain ⟨differs, hadOther⟩ := (QueueManager.assignedTo_erase removed).mp has
    have held := (agrees.held i (.str other)).mpr ⟨other, rfl, hadOther⟩
    rw [before] at held
    cases held
    exact differs rfl
  · rw [QueueManager.assignedTo_erase removed]
    refine and_iff_right_of_imp ?_
    rintro has rfl
    exact apart (distinct (has.unique had))

end Agreement

/-! ## One event -/

/-- The broker answered a request of a worker, and accepted it if it was an ACK or a NACK. -/
def Accepted (deed : Deed) : Prop :=
  ∃ message response, deed.1.action = .command message ∧ deed.2 = .answered response ∧
    (commandOf message = some .ack → ∃ text, response = .acknowledged text) ∧
    (commandOf message = some .nack →
      ∃ action attempts text, response = .negativeAcknowledged action attempts text)

/-- What an event of the cluster leads to. -/
structure Advances (config : Config) (platform : Platform) (names : ι → String) (event : Event ι)
    (result : Option Deed × Cluster ι) : Prop where
  agrees : ∃ broker disk, result.2.system = .running broker disk ∧
    result.2.Agrees names broker.queueManager
  harmless : ∀ deed ∈ result.1, deed.1.Harmless config platform
  accepted : ∀ i env, event = .serve i env → ∀ deed ∈ result.1, Accepted deed

section Step

variable [DecidableEq ι] {config : Config} {wire : Wire} {c : Cluster ι} {names : ι → String}
  {broker : Broker} {disk : Database} {used : List String}

/-- A worker does something. -/
theorem Agrees.worker (agrees : c.Agrees names broker.queueManager)
    (up : c.system = .running broker disk) {i : ι} {own : Own}
    (proper : c.Proper config wire (.worker i own)) :
    Advances config wire.platform names (.worker i own) (c.step config wire (.worker i own)) := by
  obtain ⟨presentable, passed⟩ := proper
  have uncancelled := SharedChannel.uncancelled_of_all passed
  have regular := agrees.regular i
  obtain ⟨slot, orderly⟩ := regular.orderly
  have held := regular.synced.held_step orderly regular.formats presentable uncancelled
    (by cases own <;> nofun)
  refine ⟨⟨broker, disk, up, ?_⟩, nofun, nofun⟩
  refine agrees.still (regular.step presentable uncancelled) ?_ held rfl
  exact (BaseWorker.workerId_react ..).trans (agrees.named i)

/-- Something happens elsewhere. -/
theorem Agrees.elsewhere (agrees : c.Agrees names broker.queueManager)
    (up : c.system = .running broker disk)
    (sound : (broker.core disk).Sound config wire.platform used) {event : DistroSync.Event}
    (considerate : c.Considerate config wire event) :
    Advances config wire.platform names (.elsewhere event)
      (c.step config wire (.elsewhere event)) := by
  obtain ⟨whole, allowed, storable⟩ := considerate
  have alive : event.action ≠ .crash := by
    intro isCrash
    rw [isCrash] at allowed
    exact allowed
  obtain ⟨r, broker', disk', steps, effect⟩ :=
    @step_effect_running config wire.platform broker disk event whole alive
  have advances (ordinary : event.action.Ordinary)
      (same : ∀ i id, broker'.queueManager.AssignedTo (names i) id ↔
        broker.queueManager.AssignedTo (names i) id) :
      Advances config wire.platform names (.elsewhere event)
        (c.step config wire (.elsewhere event)) := by
    refine ⟨⟨broker', disk', ?_, agrees.regular, agrees.named, fun i taskId => ?_⟩, ?_, nofun⟩
    · show (DistroSync.step config wire.platform c.system event).2 = _
      rw [up, steps]
    · refine (agrees.held i taskId).trans ?_
      exact exists_congr fun id => and_congr_right fun _ => (same i id).symm
    · rintro deed ⟨⟩
      exact ⟨ordinary, whole, storable⟩
  cases action : event.action with
  | command message =>
    rw [action] at allowed effect
    obtain ⟨text, unheld, foreign⟩ := allowed
    refine advances (by rw [action]; exact text) fun i id => ?_
    have flown := effect.flown sound.distinct
    generalize after : (broker'.core disk').queueManager.inFlight = table at flown
    cases flown with
    | still => exact QueueManager.assignedTo_congr after
    | delivered command absent taker told =>
      -- whoever has got the task is none of the workers
      refine (QueueManager.assignedTo_put absent after).trans (or_iff_left ?_)
      rintro ⟨-, own⟩
      refine foreign command i ?_
      rw [← taker, own, agrees.named i]
      rfl
    | @answered answered command named =>
      refine (QueueManager.assignedTo_erase after).trans (and_iff_right_of_imp ?_)
      rintro has rfl
      -- the worker would hold the task
      have holds := (agrees.held i (.str id)).mpr ⟨id, rfl, has⟩
      refine unheld command i id (by rw [named]; rfl) ?_
      rw [holds]
      rfl
  | evict order =>
    rw [action] at allowed effect
    refine advances (by rw [action]; trivial) fun i id => ?_
    change c.system.Timely event.env.time at allowed
    rw [up] at allowed
    exact QueueManager.assignedTo_congr (effect.inFlight_of_evict allowed)
  | _ =>
    rw [action] at allowed
    exact allowed.elim

/-- A request of a worker, as far as its answer is concerned. -/
structure Asks (config : Config) (platform : Platform) (request : Message) (command : Command) :
    Prop where
  text : TextFields request
  storable : config.persistent = true → Storable platform request
  named : commandOf request = some command
  workers : command.isWorkers = true

omit [DecidableEq ι] in
/-- What the broker answers to a worker gets there. -/
theorem conveys_of_reachable (up : c.system = .running broker disk)
    (sound : (broker.core disk).Sound config wire.platform used) {i : ι} {env : Env}
    {request : Message} {rest : List Message} {command : Command}
    (reachable : c.Reachable config wire i env)
    (next : (c.workers i).connection.requests = request :: rest)
    (asks : Asks config wire.platform request command) {response : Response} {m : Machine}
    {c' : Core}
    (dispatched : dispatch wire.platform env request { broker, disk, crashIn := none } =
      .ok response m)
    (answers : (DistroSync.step config wire.platform (.running broker disk)
      { action := .command request, env }).1 = .answered response)
    (effect : Effect wire.platform env { broker, disk, crashIn := none } (.command request)
      (.ok (.answered response)) c') :
    wire.Conveys (response.toJson wire) := by
  obtain ⟨shallow, framed⟩ := reachable
  have short : (Outcome.answered response).Framed wire := by
    rw [← answers, ← up]
    exact (framed request (by rw [next]; rfl)).2
  rcases flat_or_consumed asks.named asks.workers dispatched with flat | ⟨delivery, rfl⟩
  · exact flat.conveys short
  · obtain ⟨queue, worker, task, -, taken, -, -, -, -, isPayload⟩ := effect.of_consumed
    obtain ⟨head, others, rfl, split, -⟩ := QueueManager.ledger_dequeue_some sound.distinct taken
    have waiting : head ∈ (broker.core disk).queueManager.ledger.pending := by
      rw [split]
      exact Multiset.mem_cons_self _ _
    rw [up] at shallow
    obtain ⟨written, read⟩ := shallow head waiting
    have depth := Response.depth_consumed wire delivery
    rw [show delivery.payload = head.payload from isPayload] at depth
    exact ⟨⟨depth.trans_le written, short⟩, depth.trans_le read⟩

/-- The broker answers a request of a worker. -/
theorem step_serve (up : c.system = .running broker disk)
    (sound : (broker.core disk).Sound config wire.platform used)
    (ready : (broker.core disk).Ready wire.platform) {i : ι} {env : Env} {request : Message}
    {rest : List Message} {command : Command} (reachable : c.Reachable config wire i env)
    (next : (c.workers i).connection.requests = request :: rest)
    (asks : Asks config wire.platform request command) :
    ∃ response m broker' disk',
      dispatch wire.platform env request { broker, disk, crashIn := none } = .ok response m ∧
      Effect wire.platform env { broker, disk, crashIn := none } (.command request)
        (.ok (.answered response)) (broker'.core disk') ∧
      c.step config wire (.serve i env) =
        (some ({ action := .command request, env }, .answered response),
          { system := .running broker' disk'
            workers := Function.update c.workers i
              ((c.workers i).step (.serve (response.toJson wire))).2 }) := by
  have quiet : ¬RaisesMessage wire.platform env { broker, disk, crashIn := none } request :=
    Core.Ready.not_raises (m := { broker, disk, crashIn := none }) ready sound asks.text
      (fun opened => asks.storable (sound.store.symm.trans opened)) asks.named asks.workers
  obtain ⟨response, m, broker', disk', dispatched, steps, effect⟩ :=
    @step_of_not_raises config wire.platform broker disk env request quiet
  have conveys := conveys_of_reachable up sound reachable next asks dispatched (by rw [steps])
    effect
  refine ⟨response, m, broker', disk', dispatched, effect, ?_⟩
  unfold step respond
  simp only [next, up, steps, if_pos conveys]

/-- It is left to show what the handler of the request does. -/
theorem advances_of_serve (up : c.system = .running broker disk)
    (sound : (broker.core disk).Sound config wire.platform used)
    (ready : (broker.core disk).Ready wire.platform) {i : ι} {env : Env} {request : Message}
    {rest : List Message} {command : Command} (reachable : c.Reachable config wire i env)
    (next : (c.workers i).connection.requests = request :: rest)
    (asks : Asks config wire.platform request command)
    (handled : ∀ response m broker' disk',
      dispatch wire.platform env request { broker, disk, crashIn := none } = .ok response m →
      Effect wire.platform env { broker, disk, crashIn := none } (.command request)
        (.ok (.answered response)) (broker'.core disk') →
      Agrees
          { system := .running broker' disk'
            workers := Function.update c.workers i
              ((c.workers i).step (.serve (response.toJson wire))).2 }
          names broker'.queueManager ∧
        (command = .ack → ∃ text, response = .acknowledged text) ∧
        (command = .nack →
          ∃ action attempts text, response = .negativeAcknowledged action attempts text)) :
    Advances config wire.platform names (.serve i env) (c.step config wire (.serve i env)) := by
  obtain ⟨response, m, broker', disk', dispatched, effect, steps⟩ :=
    @step_serve _ _ config wire c broker disk used up sound ready i env request rest command
      reachable next asks
  obtain ⟨agrees, acked, nacked⟩ := handled response m broker' disk' dispatched effect
  rw [steps]
  refine ⟨⟨broker', disk', rfl, agrees⟩, ?_, ?_⟩
  · rintro deed ⟨⟩
    exact ⟨asks.text, rfl, asks.storable⟩
  · rintro - - - deed ⟨⟩
    refine ⟨request, response, rfl, rfl, fun isAck => acked ?_, fun isNack => nacked ?_⟩
    · exact Option.some.inj (asks.named.symm.trans isAck)
    · exact Option.some.inj (asks.named.symm.trans isNack)

/-- A request that concerns no task. -/
theorem Agrees.serve_still (agrees : c.Agrees names broker.queueManager)
    (up : c.system = .running broker disk)
    (sound : (broker.core disk).Sound config wire.platform used)
    (ready : (broker.core disk).Ready wire.platform) {i : ι} {env : Env} {request : Message}
    {rest : List Message} {command : Command} (reachable : c.Reachable config wire i env)
    (next : (c.workers i).connection.requests = request :: rest) (text : TextFields request)
    (named : commandOf request = some command) (which : command = .register ∨ command = .heartbeat)
    (held : ∀ response, ((c.workers i).step (.serve response)).2.held = (c.workers i).held) :
    Advances config wire.platform names (.serve i env) (c.step config wire (.serve i env)) := by
  have asks : Asks config wire.platform request command := by
    rcases which with rfl | rfl
    · exact ⟨text, fun _ => BaseWorker.storable_of_other named (by decide), named, rfl⟩
    · exact ⟨text, fun _ => BaseWorker.storable_of_other named (by decide), named, rfl⟩
  refine advances_of_serve up sound ready reachable next asks ?_
  intro response m broker' disk' _ effect
  refine ⟨?_, ?_, ?_⟩
  · refine agrees.still ((agrees.regular i).serve _)
      ((BaseWorker.workerId_react ..).trans (agrees.named i)) (held _) ?_
    have flown := effect.flown sound.distinct
    generalize after : (broker'.core disk').queueManager.inFlight = table at flown
    have other {name : Command} (is : commandOf request = some name)
        (differs : name ≠ .register ∧ name ≠ .heartbeat) : False := by
      obtain rfl := Option.some.inj (named.symm.trans is)
      exact which.elim differs.1 differs.2
    cases flown with
    | still => exact after
    | delivered isConsume => exact (other isConsume ⟨nofun, nofun⟩).elim
    | answered isAnswer =>
      rcases isAnswer with isAck | isNack
      · exact (other isAck ⟨nofun, nofun⟩).elim
      · exact (other isNack ⟨nofun, nofun⟩).elim
  · rintro rfl
    rcases which with absurd | absurd <;> cases absurd
  · rintro rfl
    rcases which with absurd | absurd <;> cases absurd

/-- A CONSUME of a worker that holds nothing. -/
theorem Agrees.serve_consume (agrees : c.Agrees names broker.queueManager)
    (distinct : Function.Injective names) (up : c.system = .running broker disk)
    (sound : (broker.core disk).Sound config wire.platform used)
    (ready : (broker.core disk).Ready wire.platform) {i : ι} {env : Env} {rest : List Message}
    (bindable : config.persistent = true → wire.platform.Binds (names i))
    (reachable : c.Reachable config wire i env)
    (next : (c.workers i).connection.requests = (c.workers i).worker.consumeRequest :: rest)
    (before : (c.workers i).held = none)
    (held : ∀ response, ((c.workers i).step (.serve response)).2.held =
      (BaseWorker.read response).assignment?.map BaseWorker.Assignment.taskId) :
    Advances config wire.platform names (.serve i env) (c.step config wire (.serve i env)) := by
  have asks : Asks config wire.platform (c.workers i).worker.consumeRequest .consume :=
    ⟨BaseWorker.textFields_consumeRequest _, fun persistent => BaseWorker.storable_of_binds _
      (by rw [agrees.named i]; exact bindable persistent), rfl, rfl⟩
  refine advances_of_serve up sound ready reachable next asks ?_
  intro response m broker' disk' dispatched effect
  have isConsume : commandOf (c.workers i).worker.consumeRequest = some .consume := rfl
  refine ⟨?_, nofun, nofun⟩
  have regular := (agrees.regular i).serve (response.toJson wire)
  have name : ((c.workers i).step (.serve (response.toJson wire))).2.worker.workerId = names i :=
    (BaseWorker.workerId_react ..).trans (agrees.named i)
  rcases BaseWorker.understood_consume dispatched with ⟨delivery, rfl, reads⟩ | reads
  · obtain ⟨queue, worker, task, -, taken, -, -, isTask, -⟩ := effect.of_consumed
    obtain ⟨absent, taker⟩ := QueueManager.find?_of_dequeue sound.distinct taken
    refine agrees.taken distinct regular name before ?_ absent (taker.trans ?_)
      (QueueManager.dequeue_some_inFlight taken)
    · rw [held, reads, ← isTask]
      rfl
    · rw [← agrees.named i]
      rfl
  · refine agrees.still regular name ?_ ?_
    · rw [held, reads, before]
      rfl
    · have flown := effect.flown sound.distinct
      generalize after : (broker'.core disk').queueManager.inFlight = table at flown
      cases flown with
      | still => exact after
      | delivered command absent taker told =>
        -- a delivery would have been read
        obtain ⟨delivery, same, -⟩ := told _ rfl
        cases same
        cases reads
      | answered isAnswer =>
        rcases isAnswer with isAck | isNack
        · cases isAck.symm.trans isConsume
        · cases isNack.symm.trans isConsume

/-- An ACK or NACK of the task that a worker holds. -/
theorem Agrees.serve_answer {past : List DistroSync.Event}
    (agrees : c.Agrees names broker.queueManager)
    (distinct : Function.Injective names) (up : c.system = .running broker disk)
    (sound : (broker.core disk).Sound config wire.platform (drawn past))
    (ready : (broker.core disk).Ready wire.platform) {i : ι} {env : Env} {taskId : Json}
    {rest : List Message} (reachable : c.Reachable config wire i env)
    (next : (c.workers i).connection.requests = (c.workers i).worker.ackRequest taskId :: rest ∨
      ∃ error, (c.workers i).connection.requests =
        (c.workers i).worker.nackRequest taskId error :: rest)
    (before : (c.workers i).held = some taskId)
    (held : ∀ response, ((c.workers i).step (.serve response)).2.held = none) :
    Advances config wire.platform names (.serve i env) (c.step config wire (.serve i env)) := by
  obtain ⟨id, rfl, task, found, -⟩ := (agrees.held i taskId).mp before
  have nonempty : id ≠ "" := by
    rintro rfl
    have known : task.taskId ∈ drawn past :=
      sound.mem_used (Or.inr (Or.inl (Table.mem_of_find? found)))
    rw [Table.key_of_find? found] at known
    exact absurd (length_of_mem_drawn known) (by decide)
  have name (response : Json) :
      ((c.workers i).step (.serve response)).2.worker.workerId = names i :=
    (BaseWorker.workerId_react ..).trans (agrees.named i)
  rcases next with next | ⟨error, next⟩
  · have asks : Asks config wire.platform ((c.workers i).worker.ackRequest (.str id)) .ack :=
      ⟨BaseWorker.textFields_ackRequest _ id,
        fun _ => BaseWorker.storable_of_other (show _ = some Command.ack from rfl) (by decide),
        rfl, rfl⟩
    refine advances_of_serve up sound ready reachable next asks ?_
    intro response m broker' disk' _ effect
    obtain ⟨text, rfl⟩ := effect.acknowledged_of_admits rfl ⟨id, task, rfl, nonempty, found⟩
    refine ⟨?_, fun _ => ⟨text, rfl⟩, nofun⟩
    obtain ⟨_, _, ⟨⟩, _, after, -⟩ := effect.of_acknowledged
    refine agrees.settled distinct ((agrees.regular i).serve _) (name _) before (held _) ?_
    exact (congrArg QueueManager.inFlight after).trans (QueueManager.acknowledge_inFlight found)
  · have asks : Asks config wire.platform ((c.workers i).worker.nackRequest (.str id) error)
        .nack :=
      ⟨BaseWorker.textFields_nackRequest _ id error,
        fun _ => BaseWorker.storable_of_other (show _ = some Command.nack from rfl) (by decide),
        rfl, rfl⟩
    refine advances_of_serve up sound ready reachable next asks ?_
    intro response m broker' disk' _ effect
    obtain ⟨action, attempts, text, rfl⟩ :=
      effect.negativeAcknowledged_of_admits rfl ⟨id, task, rfl, nonempty, found⟩
    refine ⟨?_, nofun, fun _ => ⟨action, attempts, text, rfl⟩⟩
    obtain ⟨_, _, ⟨⟩, nacked, -⟩ := effect.of_negativeAcknowledged
    obtain ⟨origin, isOrigin, spec⟩ := QueueManager.negativeAcknowledge_some nacked
    refine agrees.settled distinct ((agrees.regular i).serve _) (name _) before (held _) ?_
    exact spec.inFlight_eq.trans (congrArg _ (Table.key_of_find? isOrigin))

/-- **The broker handles the next request of a worker.** -/
theorem Agrees.serve {past : List DistroSync.Event} (agrees : c.Agrees names broker.queueManager)
    (distinct : Function.Injective names) (up : c.system = .running broker disk)
    (sound : (broker.core disk).Sound config wire.platform (drawn past))
    (ready : (broker.core disk).Ready wire.platform) {i : ι} {env : Env}
    (bindable : config.persistent = true → wire.platform.Binds (names i))
    (reachable : c.Reachable config wire i env) :
    Advances config wire.platform names (.serve i env) (c.step config wire (.serve i env)) := by
  cases next : (c.workers i).connection.requests with
  | nil =>
    have nothing : c.step config wire (.serve i env) = (none, c) := by
      unfold step
      simp only [next]
    rw [nothing]
    refine ⟨⟨broker, disk, up, agrees⟩, ?_, ?_⟩
    · rintro deed ⟨⟩
    · rintro - - - deed ⟨⟩
  | cons request rest =>
    obtain ⟨slot, orderly⟩ := (agrees.regular i).orderly
    obtain ⟨caller, waits, before, after⟩ :=
      (agrees.regular i).synced.held_serve orderly next
    -- what the loop waits for says which request it is
    cases caller with
    | heartbeat =>
      have isRequest : request = (c.workers i).worker.heartbeatRequest := by
        simp only [BaseWorker.request?] at waits
        split at waits
        · exact (Option.some.inj waits).symm
        · cases waits
      subst isRequest
      exact agrees.serve_still up sound ready reachable next
        (BaseWorker.textFields_heartbeatRequest _) rfl (Or.inr rfl)
        fun response => (after response).trans before.symm
    | consume =>
      simp only [BaseWorker.request?] at waits
      simp only [if_true] at after
      cases loop : (c.workers i).worker.consumeLoop with
      | registering =>
        rw [loop] at waits before after
        cases waits
        exact agrees.serve_still up sound ready reachable next
          (BaseWorker.textFields_registerRequest _) rfl (Or.inl rfl)
          fun response => (after response).trans before.symm
      | consuming =>
        rw [loop] at waits before after
        cases waits
        exact agrees.serve_consume distinct up sound ready bindable reachable next before
          after
      | acknowledging taskId result =>
        rw [loop] at waits before after
        cases waits
        exact agrees.serve_answer distinct up sound ready reachable (Or.inl next) before after
      | rejecting taskId error =>
        rw [loop] at waits before after
        cases waits
        exact agrees.serve_answer distinct up sound ready reachable (Or.inr ⟨error, next⟩)
          before after
      | _ =>
        rw [loop] at waits
        cases waits

end Step

/-! ## Whole runs -/

section Runs

variable [DecidableEq ι] {config : Config} {wire : Wire} {past : List DistroSync.Event}
  {queues names : ι → String} {events : List (Event ι)}

/-- What holds after the events of a run. -/
structure Reached (config : Config) (platform : Platform) (names : ι → String)
    (trace : List (Event ι × Option Deed)) (c : Cluster ι) : Prop where
  agrees : ∃ broker disk, c.system = .running broker disk ∧ c.Agrees names broker.queueManager
  harmless : ∀ deed ∈ deeds trace, deed.1.Harmless config platform
  accepted : ∀ i env deed, (.serve i env, some deed) ∈ trace → Accepted deed

theorem reached (distinct : Function.Injective names)
    (bindable : config.persistent = true → ∀ i, wire.platform.Binds (names i))
    (begun : ∀ event ∈ past, event.Harmless config wire.platform)
    (up : ∃ broker disk, reach config wire.platform past = .running broker disk ∧
      ∀ i id, ¬broker.queueManager.AssignedTo (names i) id)
    (fresh : FreshIds (past ++
      (deeds (trace (step config wire) (start config wire past queues names) events)).map Prod.fst))
    (proper : EachStep (step config wire) (start config wire past queues names)
      (fun _ c event => c.Proper config wire event) events) :
    Reached config wire.platform names
      (trace (step config wire) (start config wire past queues names) events)
      (after (step config wire) (start config wire past queues names) events) := by
  induction events using List.reverseRecOn with
  | nil =>
    obtain ⟨broker, disk, position, unassigned⟩ := up
    refine ⟨⟨broker, disk, position, ?_⟩, ?_, ?_⟩
    · refine ⟨fun i => BaseWorker.regular_initial _ _, fun i => rfl, fun i taskId => ?_⟩
      have free : ((start config wire past queues names).workers i).held = none := rfl
      rw [after_nil, free]
      refine iff_of_false nofun ?_
      rintro ⟨id, -, has⟩
      exact unassigned i id has
    · rintro deed ⟨⟩
    · rintro i env deed ⟨⟩
  | append_singleton events event ih =>
    have last := proper.last
    rw [deeds_concat, List.map_append, ← List.append_assoc] at fresh
    obtain ⟨⟨broker, disk, isUp, agrees⟩, harmless, accepted⟩ := ih fresh.front proper.front
    obtain ⟨-, position⟩ := @history_deeds ι _ config wire past queues names events
    have each : ∀ event ∈ past ++ (deeds (trace (step config wire)
        (start config wire past queues names) events)).map Prod.fst,
        event.Harmless config wire.platform := by
      intro event inside
      rcases List.mem_append.mp inside with inPast | inDeeds
      · exact begun event inPast
      · obtain ⟨deed, isDeed, rfl⟩ := List.mem_map.mp inDeeds
        exact harmless deed isDeed
    -- the broker's part of the run so far is a run of string fields
    obtain ⟨sound, ready⟩ := reach_ready fresh.front each (position.symm.trans isUp)
    have advances : Advances config wire.platform names event
        ((after (step config wire) (start config wire past queues names) events).step config
          wire event) := by
      cases event with
      | worker i own => exact agrees.worker isUp last
      | serve i env =>
        exact agrees.serve distinct isUp sound ready (fun persistent => bindable persistent i)
          last
      | elsewhere event => exact agrees.elsewhere isUp sound last
    rw [after_concat]
    refine ⟨advances.agrees, fun deed inside => ?_, fun i env deed inside => ?_⟩
    · rw [deeds_concat] at inside
      rcases List.mem_append.mp inside with before | now
      · exact harmless deed before
      · exact advances.harmless deed (Option.mem_toList.mp now)
    · rw [trace_concat] at inside
      rcases List.mem_append.mp inside with before | now
      · exact accepted i env deed before
      · obtain ⟨same, did⟩ := Prod.mk.inj (List.mem_singleton.mp now)
        exact advances.accepted i env same.symm deed did.symm

/-- **A broker and its workers agree.**  Let any number of workers with different names, which a
store can bind, work at a running broker, with others being considerate, executions ending in a
presentable way and responses that can get through (`Proper`).  After every run, whatever the
interleaving, a worker holds a task exactly if the broker has the task in flight, assigned to
this worker.  No task is held by two workers; and every request of a worker was answered, the
ACKs and NACKs with success. -/
theorem agrees_with_workers (distinct : Function.Injective names)
    (bindable : config.persistent = true → ∀ i, wire.platform.Binds (names i))
    (begun : ∀ event ∈ past, event.Harmless config wire.platform)
    (up : ∃ broker disk, reach config wire.platform past = .running broker disk ∧
      ∀ i id, ¬broker.queueManager.AssignedTo (names i) id)
    (fresh : FreshIds (past ++
      (deeds (trace (step config wire) (start config wire past queues names) events)).map Prod.fst))
    (proper : EachStep (step config wire) (start config wire past queues names)
      (fun _ c event => c.Proper config wire event) events) :
    ∃ broker disk,
      (after (step config wire) (start config wire past queues names) events).system =
        .running broker disk ∧
      (∀ i taskId,
        ((after (step config wire) (start config wire past queues names) events).workers i).held =
            some taskId ↔
          ∃ id, taskId = .str id ∧ broker.queueManager.AssignedTo (names i) id) ∧
      (∀ i j taskId,
        ((after (step config wire) (start config wire past queues names) events).workers i).held =
          some taskId →
        ((after (step config wire) (start config wire past queues names) events).workers j).held =
          some taskId → i = j) ∧
      ∀ i env deed,
        (.serve i env, some deed) ∈
          trace (step config wire) (start config wire past queues names) events →
        Accepted deed := by
  obtain ⟨⟨broker, disk, isUp, agrees⟩, -, accepted⟩ :=
    reached distinct bindable begun up fresh proper
  exact ⟨broker, disk, isUp, agrees.held, fun i j taskId => agrees.exclusive distinct, accepted⟩

end Runs

/-! ### Two workers -/

instance [Fintype ι] (c : Cluster ι) (now : Rat) (action : Action) :
    Decidable (c.Allows now action) :=
  match action with
  | .command message =>
    inferInstanceAs (Decidable (TextFields message ∧
      (commandOf message = some .ack ∨ commandOf message = some .nack →
        ∀ i, ∀ id ∈ stringOf (message.get "task_id" .null),
          (c.workers i).held.bind stringOf ≠ some id) ∧
      (commandOf message = some .consume →
        ∀ i, (message.get "worker_id" .null).scalar? ≠
          some (.str (c.workers i).worker.workerId))))
  | .evict _ => inferInstanceAs (Decidable (c.system.Timely now))
  | .reset => inferInstanceAs (Decidable False)
  | .replayAll => inferInstanceAs (Decidable False)
  | .crashWorker _ => inferInstanceAs (Decidable False)
  | .crash => inferInstanceAs (Decidable False)
  | .start => inferInstanceAs (Decidable False)

instance [Fintype ι] (config : Config) (wire : Wire) (c : Cluster ι) (event : Event ι) :
    Decidable (c.Proper config wire event) :=
  match event with
  | .worker i own =>
    inferInstanceAs (Decidable ((c.workers i).worker.presentable own.event = true ∧
      ((c.workers i).step own.event).1.occurrences.all
        (fun entry => !entry.2.isCancelled) = true))
  | .serve i env =>
    inferInstanceAs (Decidable (c.system.Shallow wire ∧
      ∀ request ∈ (c.workers i).connection.requests.head?,
        Readable wire request ∧ (DistroSync.step config wire.platform c.system
          { action := .command request, env }).1.Framed wire))
  | .elsewhere event =>
    inferInstanceAs (Decidable (event.crashIn = none ∧ c.Allows event.env.time event.action ∧
      (config.persistent = true → event.action.Storable wire.platform)))

/-- The turns of a `_send` of `run`, from the response of the broker to its end. -/
def exchange (i : Bool) (n : Nat) : List (Event Bool) :=
  [.serve i (.at n), .worker i (.turn .consume), .worker i (.turn .consume),
    .worker i (.turn .consume)]

/-- Two workers register and get a task each; the first has executed its task, and the broker
has its ACK. -/
def twoWorkers : List (Event Bool) :=
  .elsewhere (.at 2 (.produce "jobs" "b")) :: .worker true (.turn .consume) :: exchange true 3 ++
    exchange true 4 ++ .worker false (.turn .consume) :: exchange false 5 ++ exchange false 6 ++
      [.worker true (.executed (.returned (.ok "done"))), .serve true (.at 7)]

/-- A broker with a task. -/
def oneTask : List DistroSync.Event := [.at 0 .start, .at 1 (.produce "jobs" "a")]

/-- The names of the two workers. -/
def twoNames (i : Bool) : String := if i then "worker-1" else "worker-2"

/-- The two workers at that broker, after the run. -/
def twoCluster : Cluster Bool :=
  after (step { persistent := true } .plain)
    (start { persistent := true } .plain oneTask (fun _ => "jobs") twoNames) twoWorkers

/-- The task that is held is this one. -/
def isTask (id : String) : Option Json → Bool
  | some (.str text) => text = id
  | _ => false

theorem of_isTask {id : String} {held : Option Json} (passed : isTask id held = true) :
    held = some (.str id) := by
  unfold isTask at passed
  split at passed
  · rw [of_decide_eq_true passed]
  · cases passed

theorem agrees_with_twoWorkers :
    (twoCluster.workers true).held = none ∧
      (twoCluster.workers false).held = some (.str (idAt 2)) ∧
      ∃ broker disk, twoCluster.system = .running broker disk ∧
        (∀ id, ¬broker.queueManager.AssignedTo "worker-1" id) ∧
        broker.queueManager.AssignedTo "worker-2" (idAt 2) := by
  have first : (twoCluster.workers true).held = none :=
    Option.isNone_iff_eq_none.mp (by decide +kernel)
  have second : (twoCluster.workers false).held = some (.str (idAt 2)) :=
    of_isTask (by decide +kernel)
  have begun : ∀ event ∈ oneTask, event.Harmless { persistent := true } .plain := by
    simp only [oneTask, List.mem_cons, List.not_mem_nil, or_false]
    rintro event (rfl | rfl)
    · exact ⟨trivial, rfl, fun _ => trivial⟩
    · exact ⟨show TextFields _ by decide, rfl, fun _ => by decide +kernel⟩
  have up : ∃ broker disk, reach { persistent := true } Wire.plain.platform oneTask =
      .running broker disk ∧ ∀ i id, ¬broker.queueManager.AssignedTo (twoNames i) id := by
    obtain ⟨broker, disk, position, idle⟩ :=
      System.of_passes (show (reach { persistent := true } Wire.plain.platform oneTask).passes
        (fun broker _ => broker.queueManager.inFlight.rows.isEmpty) = true by decide +kernel)
    refine ⟨broker, disk, position, ?_⟩
    rintro i id ⟨task, found, -⟩
    have inside : task ∈ broker.queueManager.inFlight.rows := Table.mem_of_find? found
    rw [List.isEmpty_iff.mp idle] at inside
    cases inside
  obtain ⟨broker, disk, isUp, held, -⟩ :=
    @agrees_with_workers Bool _ { persistent := true } .plain oneTask (fun _ => "jobs") twoNames
      twoWorkers (by decide) (fun _ => by decide +kernel) begun up (by decide +kernel)
      (eachStep_of_all (by decide +kernel))
  refine ⟨first, second, broker, disk, isUp, fun id has => ?_, ?_⟩
  · have holds := (held true (.str id)).mpr ⟨id, rfl, has⟩
    unfold twoCluster at first
    rw [first] at holds
    cases holds
  · unfold twoCluster at second
    obtain ⟨_, same, has⟩ := (held false (.str (idAt 2))).mp second
    rw [Json.str.inj same]
    exact has

end Cluster

end DistroSync
