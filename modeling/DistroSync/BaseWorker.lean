import DistroSync.HandleConnection
import DistroSync.Lib.SharedChannel

/-!
# The worker

`worker/base_worker.py`: `run` with `connect`, `_send`, `_heartbeat_loop` and `shutdown`.

The heartbeat loop and `run` are two coroutines on one event loop, which call `_send` over
one connection.  `_send` itself is a call over a `SharedChannel`: the lock, the write, and
the three waits.  What the two coroutines do between their waits is here: a coroutine gets
a turn, goes on from where it waited, and ends its turn with one `Move`, after which it
waits again.

The subclass decides what comes of `execute`, and the broker what it responds; both are
arbitrary.  A result matters to the worker only through its text, which the success line
of the log asks for after the task has been acknowledged and inside the same `try`.
-/

namespace DistroSync

open Py

/-- The coroutines of a worker. -/
inductive Coroutine where
  | heartbeat
  | consume
  deriving DecidableEq

namespace BaseWorker

/-- The connection that the coroutines share: `_conn_lock` and the two streams. -/
abbrev Connection := SharedChannel.Channel Coroutine Message Json

/-- What happens on the connection. -/
abbrev Activity := SharedChannel.Action Coroutine Message Json

/-- What happened on the connection, with what came of it. -/
abbrev Occurrence := Activity × SharedChannel.Report Coroutine Message Json

/-- An exception, with its `str`; that may raise as well. -/
structure Raised where
  text : Option String

/-- What comes of `execute`. -/
inductive Outcome where
  /-- A result, with its text; formatting it may raise. -/
  | returned (result : Except Raised String)
  | raised (error : Raised)
  /-- A `CancelledError`, which is no `Exception`. -/
  | cancelled

/-- Where `_heartbeat_loop` waits. -/
inductive HeartbeatLoop where
  /-- The task is not created yet. -/
  | absent
  /-- It has not run yet. -/
  | starting
  | sleeping
  | sending
  | ended

/-- Where `run` waits. -/
inductive ConsumeLoop where
  /-- In `open_connection`. -/
  | connecting
  | registering
  | consuming
  /-- In `sleep(poll_interval)`. -/
  | polling
  | executing (taskId : Json)
  /-- In the `_send` of the ACK, with the text that the log line will ask for. -/
  | acknowledging (taskId : Json) (result : Except Raised String)
  /-- In the `_send` of the NACK. -/
  | rejecting (taskId : Json) (error : String)
  /-- In `sleep(0)`. -/
  | yielding
  | ended

end BaseWorker

/-- `BaseWorker`, with the points where its coroutines wait. -/
structure BaseWorker where
  queueName : String
  workerId : String
  running : Bool := false
  heartbeatLoop : BaseWorker.HeartbeatLoop := .absent
  consumeLoop : BaseWorker.ConsumeLoop := .connecting
  tasksCompleted : Nat := 0
  tasksFailed : Nat := 0

namespace BaseWorker

/-! ## Messages -/

/-- The REGISTER message of `connect`. -/
def registerRequest (w : BaseWorker) : Message :=
  [("command", .str "REGISTER"), ("worker_id", .str w.workerId),
    ("queues", .arr [.str w.queueName])]

/-- The HEARTBEAT message. -/
def heartbeatRequest (w : BaseWorker) : Message :=
  [("command", .str "HEARTBEAT"), ("worker_id", .str w.workerId)]

/-- The CONSUME message. -/
def consumeRequest (w : BaseWorker) : Message :=
  [("command", .str "CONSUME"), ("queue", .str w.queueName), ("worker_id", .str w.workerId)]

/-- The ACK message. -/
def ackRequest (w : BaseWorker) (taskId : Json) : Message :=
  [("command", .str "ACK"), ("task_id", taskId), ("queue", .str w.queueName),
    ("worker_id", .str w.workerId)]

/-- The NACK message. -/
def nackRequest (w : BaseWorker) (taskId : Json) (error : String) : Message :=
  [("command", .str "NACK"), ("task_id", taskId), ("queue", .str w.queueName),
    ("worker_id", .str w.workerId), ("error", .str error)]

/-- The task of a CONSUME response; without a payload it is not executed. -/
structure Assignment where
  taskId : Json
  payload : Option Json

/-- What `run` makes of a CONSUME response. -/
inductive Reading where
  /-- There is no task: wait and ask again. -/
  | poll
  | assigned (task : Assignment)
  /-- A subscript or the slice raises, outside of the inner `try`. -/
  | raised

/-- The branches of `run` on a CONSUME response. -/
def read : Json → Reading
  | .obj response =>
    match response.lookup "status" with
    | none => .raised
    | some (.str "ok") =>
      match response.lookup "task" with
      | some (.obj task) =>
        match task.lookup "task_id" with
        | some taskId =>
          if taskId.sliceable then .assigned ⟨taskId, task.lookup "payload"⟩ else .raised
        | none => .raised
      | _ => .raised
    -- "empty", or a status that is logged first
    | some _ => .poll
  | _ => .raised

/-- `response.get("status") == "ok"`; `get` raises for what is no dictionary. -/
def registered : Json → Bool
  | .obj response =>
    match response.lookup "status" with
    | some (.str "ok") => true
    | _ => false
  | _ => false

/-! ## Turns -/

/-- What a coroutine does last in its turn. -/
inductive Move where
  | wait
  /-- `await self.execute(payload)`. -/
  | execute (taskId payload : Json)
  /-- `await self._send(message)`. -/
  | send (caller : Coroutine) (message : Message)
  /-- `heartbeat_task.cancel()`. -/
  | cancelHeartbeat

/-- The `finally` of `run`. -/
def leave (w : BaseWorker) : Move × BaseWorker :=
  (.cancelHeartbeat, { w with running := false, heartbeatLoop := .ended, consumeLoop := .ended })

/-- The head of the loop of `run`. -/
def proceed (w : BaseWorker) : Move × BaseWorker :=
  if w.running then (.send .consume w.consumeRequest, { w with consumeLoop := .consuming })
  else w.leave

/-- `except Exception as e`: the log line formats the exception, then the NACK is sent. -/
def reject (w : BaseWorker) (taskId : Json) (error : Raised) : Move × BaseWorker :=
  match error.text with
  | some text =>
    (.send .consume (w.nackRequest taskId text), { w with consumeLoop := .rejecting taskId text })
  | none => w.leave

/-- The exception of `task["payload"]` for a task without one. -/
def noPayload : Raised := ⟨some "'payload'"⟩

/-- `_send` has returned to `run`. -/
def resume (w : BaseWorker) (response : Json) : Move × BaseWorker :=
  match w.consumeLoop with
  | .registering =>
    if registered response then { w with running := true, heartbeatLoop := .starting }.proceed
    -- a RuntimeError, before the `try` of `run`
    else (.wait, { w with consumeLoop := .ended })
  | .consuming =>
    match read response with
    | .poll => (.wait, { w with consumeLoop := .polling })
    | .assigned ⟨taskId, some payload⟩ =>
      (.execute taskId payload, { w with consumeLoop := .executing taskId })
    | .assigned ⟨taskId, none⟩ => w.reject taskId noPayload
    | .raised => w.leave
  | .acknowledging taskId result =>
    match result with
    | .ok _ =>
      (.wait, { w with tasksCompleted := w.tasksCompleted + 1, consumeLoop := .yielding })
    | .error error => { w with tasksCompleted := w.tasksCompleted + 1 }.reject taskId error
  | .rejecting _ _ =>
    (.wait, { w with tasksFailed := w.tasksFailed + 1, consumeLoop := .yielding })
  | _ => (.wait, w)

/-- A turn of `run` in which no `_send` returns. -/
def wake (w : BaseWorker) : Move × BaseWorker :=
  match w.consumeLoop with
  | .connecting => (.send .consume w.registerRequest, { w with consumeLoop := .registering })
  | .polling => w.proceed
  | .yielding => w.proceed
  | _ => (.wait, w)

/-- `execute` is done. -/
def executed (w : BaseWorker) (outcome : Outcome) : Move × BaseWorker :=
  match w.consumeLoop with
  | .executing taskId =>
    match outcome with
    | .returned result =>
      (.send .consume (w.ackRequest taskId),
        { w with consumeLoop := .acknowledging taskId result })
    | .raised error => w.reject taskId error
    | .cancelled => w.leave
  | _ => (.wait, w)

/-- The head of the heartbeat loop. -/
def nap (w : BaseWorker) : Move × BaseWorker :=
  (.wait, { w with heartbeatLoop := if w.running then .sleeping else .ended })

/-- A turn of the heartbeat loop in which no `_send` returns. -/
def beat (w : BaseWorker) : Move × BaseWorker :=
  match w.heartbeatLoop with
  | .starting => w.nap
  | .sleeping =>
    if w.running then
      (.send .heartbeat w.heartbeatRequest, { w with heartbeatLoop := .sending })
    else (.wait, { w with heartbeatLoop := .ended })
  | _ => (.wait, w)

/-- `_send` has returned to the heartbeat loop, which logs what is unexpected and goes on. -/
def beaten (w : BaseWorker) : Move × BaseWorker :=
  match w.heartbeatLoop with
  | .sending => w.nap
  | _ => (.wait, w)

/-- What can happen to a worker. -/
inductive Event where
  | turn (coroutine : Coroutine)
  | executed (outcome : Outcome)
  /-- The broker answers the next request. -/
  | serve (response : Json)
  | shutdown
  /-- The task of `run` is cancelled. -/
  | cancel

/-- What an event is for the connection. -/
def Event.activity? : Event → Option Activity
  | .turn coroutine => some (.turn coroutine)
  | .serve response => some (.serve response)
  | .cancel => some (.cancel .consume)
  | _ => none

/-- What a move is for the connection. -/
def Move.activity? : Move → Option Activity
  | .send caller message => some (.call caller message)
  | .cancelHeartbeat => some (.cancel .heartbeat)
  | _ => none

/-- The task that is executed, with its payload. -/
def Move.started? : Move → Option (Json × Json)
  | .execute taskId payload => some (taskId, payload)
  | _ => none

/-- What the worker does about an event, given the response that it has read. -/
def react (w : BaseWorker) (event : Event) (response : Option Json) : Move × BaseWorker :=
  match event, response with
  | .turn .consume, some response => w.resume response
  | .turn .consume, none => w.wake
  | .turn .heartbeat, some _ => w.beaten
  | .turn .heartbeat, none => w.beat
  | .executed outcome, _ => w.executed outcome
  | .serve _, _ => (.wait, w)
  | .shutdown, _ => (.wait, { w with running := false })
  | .cancel, _ => w.leave

/-! ## A worker with its connection -/

/-- A worker and its connection. -/
structure Attached where
  worker : BaseWorker
  connection : Connection := {}

/-- What came of an event: what happened on the connection, and the task that was started. -/
structure Entry where
  occurrences : List Occurrence
  started : Option (Json × Json)

namespace Attached

/-- A worker before its first turn. -/
def initial (queueName workerId : String) : Attached := { worker := { queueName, workerId } }

/-- The call that an event brings to its end. -/
def returned? (s : Attached) (event : Event) : Option (Coroutine × Message × Json) :=
  (SharedChannel.returns (Trace.trace SharedChannel.Channel.step s.connection
    event.activity?.toList)).head?

/-- What the worker does about an event. -/
def react (s : Attached) (event : Event) : Move × BaseWorker :=
  s.worker.react event ((s.returned? event).map fun call => call.2.2)

/-- What happens on the connection in an event. -/
def activities (s : Attached) (event : Event) : List Activity :=
  event.activity?.toList ++ (s.react event).1.activity?.toList

/-- One event. -/
def step (s : Attached) (event : Event) : Entry × Attached :=
  ({ occurrences := Trace.trace SharedChannel.Channel.step s.connection (s.activities event)
     started := (s.react event).1.started? },
    { worker := (s.react event).2
      connection := Trace.after SharedChannel.Channel.step s.connection (s.activities event) })

end Attached

/-- What happened on the connection in a run. -/
def occurrences (trace : List (Event × Entry)) : List Occurrence :=
  trace.flatMap fun entry => entry.2.occurrences

/-- The tasks that were executed in a run, with their payloads. -/
def executions (trace : List (Event × Entry)) : List (Json × Json) :=
  trace.filterMap fun entry => entry.2.started

/-! ## What the broker's responses are to a worker -/

/-- A response that `run` understands: it has a task to execute, or there is none. -/
def Understood (wire : Wire) (response : Response) : Prop :=
  (∃ task, response = .consumed task ∧
    read (response.toJson wire) = .assigned ⟨.str task.taskId, some task.payload⟩) ∨
    read (response.toJson wire) = .poll

/-- **The broker's responses to CONSUME do not end `run`**, and the task that `run` takes from
one is the task that the broker delivers. -/
theorem understood_consume {wire : Wire} {env : Env} {w : BaseWorker} {m m' : Machine}
    {response : Response}
    (responds : dispatch wire.platform env w.consumeRequest m = .ok response m') :
    Understood wire response := by
  have polls (reason : String) : Understood wire (.error reason) := Or.inr rfl
  have holds : Exec.wp (dispatch wire.platform env w.consumeRequest)
      (fun response _ => Understood wire response) (fun _ _ => True) m := by
    show Exec.wp (handleConsume wire.platform env w.consumeRequest) _ _ m
    unfold handleConsume
    simp only [Exec.wp_ite, Exec.wp_bind, Exec.wp_pure, wp_onQueueManager, wp_hashable]
    refine ⟨fun _ => polls _, fun _ => ⟨fun _ => polls _, fun _ => ⟨?_, fun _ => trivial⟩⟩⟩
    intro queue _
    split
    · exact Or.inr rfl
    · simp only [Exec.wp_bind, wp_hashable, wp_onRegistry, wp_onMetrics, Exec.wp_pure]
      refine ⟨fun worker _ => ?_, fun _ => trivial⟩
      -- the statement that follows may raise, but it does not change the response
      exact Exec.wp_of_forall (fun _ _ => Or.inl ⟨_, rfl, rfl⟩) fun _ _ => trivial
  unfold Exec.wp at holds
  rw [responds] at holds
  exact holds

/-! ## The calls under way -/

/-- The request of the `_send` in which a coroutine waits. -/
def request? (w : BaseWorker) : Coroutine → Option Message
  | .heartbeat =>
    match w.heartbeatLoop with
    | .sending => some w.heartbeatRequest
    | _ => none
  | .consume =>
    match w.consumeLoop with
    | .registering => some w.registerRequest
    | .consuming => some w.consumeRequest
    | .acknowledging taskId _ => some (w.ackRequest taskId)
    | .rejecting taskId error => some (w.nackRequest taskId error)
    | _ => none

/-- `run` is still in `connect`. -/
def ConsumeLoop.registers : ConsumeLoop → Bool
  | .connecting => true
  | .registering => true
  | _ => false

/-- The heartbeat loop is created after the registration. -/
def Unstarted (w : BaseWorker) : Prop :=
  (w.consumeLoop = .connecting ∨ w.consumeLoop = .registering) → w.heartbeatLoop = .absent

/-- What a move makes of the calls under way. -/
def Move.after (move : Move) (calls : Coroutine → Option Message) : Coroutine → Option Message :=
  match move with
  | .send caller message => Function.update calls caller (some message)
  | .cancelHeartbeat => Function.update calls .heartbeat none
  | _ => calls

/-- A coroutine sends only when it has no call under way. -/
def Move.Free (move : Move) (calls : Coroutine → Option Message) : Prop :=
  ∀ caller message, move = .send caller message → calls caller = none

/-- The calls under way are known from where the coroutines wait: `calls` before the move, and
what the move makes of them after it. -/
structure Tracks (calls : Coroutine → Option Message) (result : Move × BaseWorker) : Prop where
  free : result.1.Free calls
  request?_eq : result.2.request? = result.1.after calls
  unstarted : result.2.Unstarted

section Tracks

variable {w : BaseWorker} {calls : Coroutine → Option Message}

/-- The calls under way, one coroutine at a time. -/
theorem calls_ext {other : Coroutine → Option Message}
    (heartbeat : calls .heartbeat = other .heartbeat) (consume : calls .consume = other .consume) :
    calls = other := by
  funext coroutine
  cases coroutine with
  | heartbeat => exact heartbeat
  | consume => exact consume

/-- Nothing is said of a worker that has registered. -/
theorem unstarted_of_later (later : w.consumeLoop.registers = false) : w.Unstarted := by
  rintro (early | early)
  · rw [early] at later
    cases later
  · rw [early] at later
    cases later

theorem tracks_leave (idle : calls .consume = none) : Tracks calls w.leave :=
  ⟨nofun, calls_ext rfl idle.symm, unstarted_of_later rfl⟩

theorem tracks_proceed (idle : calls .consume = none)
    (heartbeat : w.request? .heartbeat = calls .heartbeat) : Tracks calls w.proceed := by
  unfold proceed
  split_ifs
  · refine ⟨?_, calls_ext heartbeat rfl, unstarted_of_later rfl⟩
    rintro caller message ⟨⟩
    exact idle
  · exact tracks_leave idle

theorem tracks_reject {taskId : Json} {error : Raised} (idle : calls .consume = none)
    (heartbeat : w.request? .heartbeat = calls .heartbeat) :
    Tracks calls (w.reject taskId error) := by
  unfold reject
  split
  · refine ⟨?_, calls_ext heartbeat rfl, unstarted_of_later rfl⟩
    rintro caller message ⟨⟩
    exact idle
  · exact tracks_leave idle

/-- A coroutine that only waits on. -/
theorem tracks_wait (request?_eq : w.request? = calls) (unstarted : w.Unstarted) :
    Tracks calls (.wait, w) :=
  ⟨nofun, request?_eq, unstarted⟩

theorem tracks_resume (unstarted : w.Unstarted) (response : Json) :
    Tracks (Function.update w.request? .consume none) (w.resume response) := by
  -- only the call of `run` has ended
  have others : Function.update w.request? .consume none .heartbeat = w.request? .heartbeat := rfl
  have ended : Function.update w.request? .consume none .consume = none := rfl
  unfold resume
  cases loop : w.consumeLoop with
  | registering =>
    have absent := unstarted (Or.inr loop)
    simp only
    split_ifs
    · -- the heartbeat loop is created here, and has not sent anything
      refine tracks_proceed ended (Eq.trans ?_ others.symm)
      show none = w.request? .heartbeat
      simp only [request?, absent]
    · exact tracks_wait (calls_ext others.symm ended.symm) (unstarted_of_later rfl)
  | consuming =>
    simp only
    split
    · exact tracks_wait (calls_ext others.symm ended.symm) (unstarted_of_later rfl)
    · exact ⟨nofun, calls_ext others.symm ended.symm, unstarted_of_later rfl⟩
    · exact tracks_reject ended others.symm
    · exact tracks_leave ended
  | acknowledging taskId result =>
    simp only
    split
    · exact tracks_wait (calls_ext others.symm ended.symm) (unstarted_of_later rfl)
    · exact tracks_reject ended others.symm
  | rejecting taskId error =>
    exact tracks_wait (calls_ext others.symm ended.symm) (unstarted_of_later rfl)
  | _ =>
    refine tracks_wait (calls_ext others.symm ?_) unstarted
    rw [ended]
    simp only [request?, loop]

theorem tracks_wake (unstarted : w.Unstarted) : Tracks w.request? w.wake := by
  have idle (loop : w.consumeLoop = .connecting ∨ w.consumeLoop = .polling ∨
      w.consumeLoop = .yielding) : w.request? .consume = none := by
    rcases loop with loop | loop | loop <;> simp only [request?, loop]
  unfold wake
  cases loop : w.consumeLoop with
  | connecting =>
    refine ⟨?_, calls_ext rfl rfl, fun _ => unstarted (Or.inl loop)⟩
    rintro caller message ⟨⟩
    exact idle (Or.inl loop)
  | polling => exact tracks_proceed (idle (Or.inr (Or.inl loop))) rfl
  | yielding => exact tracks_proceed (idle (Or.inr (Or.inr loop))) rfl
  | _ => exact tracks_wait rfl unstarted

theorem tracks_executed (unstarted : w.Unstarted) (outcome : Outcome) :
    Tracks w.request? (w.executed outcome) := by
  unfold executed
  cases loop : w.consumeLoop with
  | executing taskId =>
    have idle : w.request? .consume = none := by simp only [request?, loop]
    cases outcome with
    | returned result =>
      refine ⟨?_, calls_ext rfl rfl, unstarted_of_later rfl⟩
      rintro caller message ⟨⟩
      exact idle
    | raised error => exact tracks_reject idle rfl
    | cancelled => exact tracks_leave idle
  | _ => exact tracks_wait rfl unstarted

/-- The heartbeat loop runs only when it was created. -/
theorem Unstarted.of_heartbeat (unstarted : w.Unstarted) (created : w.heartbeatLoop ≠ .absent)
    (heartbeatLoop : HeartbeatLoop) : { w with heartbeatLoop }.Unstarted :=
  fun early => absurd (unstarted early) created

theorem tracks_beat (unstarted : w.Unstarted) : Tracks w.request? w.beat := by
  unfold beat
  cases loop : w.heartbeatLoop with
  | starting =>
    refine tracks_wait (calls_ext ?_ rfl) (unstarted.of_heartbeat (by rw [loop]; nofun) _)
    simp only [request?, loop]
    split_ifs <;> rfl
  | sleeping =>
    have idle : w.request? .heartbeat = none := by simp only [request?, loop]
    have created : w.heartbeatLoop ≠ .absent := by
      rw [loop]
      nofun
    simp only
    split_ifs
    · refine ⟨?_, calls_ext rfl rfl, unstarted.of_heartbeat created _⟩
      rintro caller message ⟨⟩
      exact idle
    · exact tracks_wait (calls_ext idle.symm rfl) (unstarted.of_heartbeat created _)
  | _ => exact tracks_wait rfl unstarted

theorem tracks_beaten (unstarted : w.Unstarted) :
    Tracks (Function.update w.request? .heartbeat none) w.beaten := by
  have others : Function.update w.request? .heartbeat none .consume = w.request? .consume := rfl
  have ended : Function.update w.request? .heartbeat none .heartbeat = none := rfl
  unfold beaten
  cases loop : w.heartbeatLoop with
  | sending =>
    refine tracks_wait (calls_ext ?_ others.symm) (unstarted.of_heartbeat (by rw [loop]; nofun) _)
    rw [ended]
    simp only [request?]
    split_ifs <;> rfl
  | _ =>
    refine tracks_wait (calls_ext ?_ others.symm) unstarted
    rw [ended]
    simp only [request?, loop]

end Tracks

end BaseWorker

end DistroSync
