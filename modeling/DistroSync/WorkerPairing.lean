import DistroSync.BaseWorker
import DistroSync.Lib.ChannelProgress

/-!
# Requests and responses of a worker

The connection of a worker is a shared channel on which only the two coroutines call, and
what happens on it in a run of the worker is a run of the channel (`exists_activities`).
So the results about shared channels hold: a `_send` returns the response to the request
that it wrote.

What is left is the worker's own bookkeeping.  Where a coroutine waits says which call it
has under way (`Synced`), so the response that `run` reads in a turn is the one to the
message that it sent there.  Every task that a CONSUME brings is then in hand until it is
answered, and `inHand` is the difference between the tasks that came and the answers that
went out (`Tally`).

An answer goes out twice if the result of a task has no text: the ACK is sent, the line
that logs the success raises, and the handler sends a NACK for the same task.
-/

namespace DistroSync

open Py Trace

namespace BaseWorker

variable {request : Message} {s : Attached} {slot : SharedChannel.Slot Coroutine Message Json}

/-! ## Runs of the worker as runs of the channel -/

section Activities

variable {s : Attached}

theorem occurrences_append (front back : List (Event × Entry)) :
    occurrences (front ++ back) = occurrences front ++ occurrences back := by
  simp [occurrences]

theorem occurrences_concat (events : List Event) (event : Event) :
    occurrences (trace Attached.step s (events ++ [event])) =
      occurrences (trace Attached.step s events) ++
        ((after Attached.step s events).step event).1.occurrences := by
  rw [trace_concat, occurrences_append]
  simp [occurrences]

/-- **What happens on the connection is a run of the channel.**  Every turn of a coroutine and
every response of the broker is one there as well. -/
theorem exists_activities (s : Attached) (events : List Event) :
    ∃ activities : List Activity,
      occurrences (trace Attached.step s events) =
          trace SharedChannel.Channel.step s.connection activities ∧
        (after Attached.step s events).connection =
          after SharedChannel.Channel.step s.connection activities ∧
        ∀ event ∈ events, ∀ activity ∈ event.activity?, activity ∈ activities := by
  induction events generalizing s with
  | nil => exact ⟨[], rfl, rfl, nofun⟩
  | cons event later ih =>
    obtain ⟨activities, isTrace, isAfter, among⟩ := ih (s.step event).2
    refine ⟨s.activities event ++ activities, ?_, ?_, ?_⟩
    · rw [trace_append]
      exact congrArg _ isTrace
    · rw [after_append]
      exact isAfter
    · intro other inside activity isIts
      rcases List.mem_cons.mp inside with rfl | inLater
      · refine List.mem_append_left _ (List.mem_append_left _ ?_)
        exact Option.mem_toList.mpr isIts
      · exact List.mem_append_right _ (among other inLater activity isIts)

end Activities

/-! ## One event -/

/-- The calls under way on the connection are those in which the coroutines wait. -/
structure Synced (s : Attached) : Prop where
  pending_eq : s.connection.pending = s.worker.request?
  unstarted : s.worker.Unstarted

theorem synced_initial (queueName workerId : String) : Synced (.initial queueName workerId) :=
  ⟨calls_ext rfl rfl, fun _ => rfl⟩

section Event

variable {s : Attached} {slot : SharedChannel.Slot Coroutine Message Json} {event : Event}

/-- The connection after an event, before the worker does anything about it. -/
abbrev Attached.arrived (s : Attached) (event : Event) : Connection :=
  after SharedChannel.Channel.step s.connection event.activity?.toList

/-- What an event is for the calls under way. -/
inductive Arrival (s : Attached) : Event → Prop
  /-- The call in which the coroutine waits returns. -/
  | returned {caller : Coroutine} {request : Message} {response : Json}
      (returns : s.returned? (.turn caller) = some (caller, request, response))
      (waits : s.worker.request? caller = some request)
      (pending : (s.arrived (.turn caller)).pending =
        Function.update s.worker.request? caller none) : Arrival s (.turn caller)
  | silent {event : Event} (returns : s.returned? event = none) (other : event ≠ .cancel)
      (pending : (s.arrived event).pending = s.worker.request?) : Arrival s event
  | cancelled (returns : s.returned? .cancel = none)
      (pending : (s.arrived .cancel).pending = Function.update s.worker.request? .consume none) :
      Arrival s .cancel

/-- An event that is not the turn of a coroutine brings no call to its end. -/
theorem returned?_eq_none {activity : Activity} (is : event.activity? = some activity)
    (silent : ∀ caller request response,
      (s.connection.step activity).1 ≠ .returned caller request response) :
    s.returned? event = none := by
  unfold Attached.returned?
  rw [is, SharedChannel.returns_eq_nil]
  · rfl
  · intro entry inside
    rw [List.mem_singleton.mp inside]
    exact silent

/-- What an event brings to the connection. -/
theorem Synced.arrival (synced : Synced s) (orderly : SharedChannel.Orderly s.connection slot)
    (event : Event) : Arrival s event := by
  obtain ⟨pending_eq, -⟩ := synced
  cases event with
  | turn caller =>
    rcases orderly.pending_turn caller with
      ⟨request, response, returned, waits, pending⟩ | ⟨silent, pending⟩
    · rw [pending_eq] at waits pending
      have returns : s.returned? (.turn caller) = some (caller, request, response) := by
        show (SharedChannel.returns [(_, (s.connection.turn caller).1)]).head? = _
        rw [returned]
        rfl
      exact .returned returns waits pending
    · exact .silent (returned?_eq_none rfl silent) nofun (pending.trans pending_eq)
  | executed outcome => exact .silent rfl nofun pending_eq
  | serve response =>
    refine .silent (returned?_eq_none rfl (SharedChannel.not_returned nofun)) nofun ?_
    exact (SharedChannel.pending_serve s.connection response).trans pending_eq
  | shutdown => exact .silent rfl nofun pending_eq
  | cancel =>
    refine .cancelled (returned?_eq_none rfl (SharedChannel.not_returned nofun)) ?_
    exact (SharedChannel.pending_cancel s.connection .consume).trans (by rw [pending_eq])

theorem Attached.react_of_none (returns : s.returned? event = none) :
    s.react event = s.worker.react event none := by
  unfold Attached.react
  rw [returns]
  rfl

theorem Attached.react_of_some {caller : Coroutine} {response : Json}
    (returns : s.returned? event = some (caller, request, response)) :
    s.react event = s.worker.react event (some response) := by
  unfold Attached.react
  rw [returns]
  rfl

/-- The worker's loop knows whether it waits for a response. -/
theorem Synced.tracks (synced : Synced s) (orderly : SharedChannel.Orderly s.connection slot)
    (event : Event) : Tracks (s.arrived event).pending (s.react event) := by
  have unstarted := synced.unstarted
  cases synced.arrival orderly event with
  | @returned caller request response returns waits pending =>
    rw [pending, Attached.react_of_some returns]
    cases caller with
    | heartbeat => exact tracks_beaten unstarted
    | consume => exact tracks_resume unstarted response
  | silent returns other pending =>
    rw [pending, Attached.react_of_none returns]
    cases event with
    | turn caller =>
      cases caller with
      | heartbeat => exact tracks_beat unstarted
      | consume => exact tracks_wake unstarted
    | executed outcome => exact tracks_executed unstarted outcome
    | serve response => exact tracks_wait rfl unstarted
    | shutdown => exact tracks_wait rfl unstarted
    | cancel => exact absurd rfl other
  | cancelled returns pending =>
    rw [pending, Attached.react_of_none returns]
    exact tracks_leave rfl

/-- A move does to the calls under way what it says. -/
theorem pending_move {c : Connection} (orderly : SharedChannel.Orderly c slot) {move : Move}
    (free : move.Free c.pending) :
    (after SharedChannel.Channel.step c move.activity?.toList).pending = move.after c.pending := by
  cases move with
  | wait => rfl
  | execute taskId payload => rfl
  | send caller message =>
    exact SharedChannel.pending_call (orderly.phase_eq_idle (free caller message rfl)) message
  | cancelHeartbeat => exact SharedChannel.pending_cancel c .heartbeat

/-- Worker and connection agree after every event. -/
theorem Synced.step (synced : Synced s) (orderly : SharedChannel.Orderly s.connection slot)
    (uncancelled : SharedChannel.Uncancelled (s.step event).1.occurrences) :
    Synced (s.step event).2 := by
  obtain ⟨free, request?_eq, unstarted⟩ := synced.tracks orderly event
  obtain ⟨slot', arrived⟩ := orderly.run fun entry inside => uncancelled entry (by
    show entry ∈ trace _ _ (_ ++ _)
    rw [trace_append]
    exact List.mem_append_left _ inside)
  refine ⟨?_, unstarted⟩
  show (after SharedChannel.Channel.step s.connection (s.activities event)).pending = _
  unfold Attached.activities
  rw [after_append]
  exact (pending_move arrived free).trans request?_eq.symm

/-- No call returns by a move. -/
theorem returns_move (c : Connection) (move : Move) :
    SharedChannel.returns (trace SharedChannel.Channel.step c move.activity?.toList) = [] := by
  refine SharedChannel.returns_eq_nil fun entry inside => ?_
  cases move with
  | wait => cases inside
  | execute taskId payload => cases inside
  | send caller message =>
    rw [List.mem_singleton.mp inside]
    exact SharedChannel.not_returned nofun
  | cancelHeartbeat =>
    rw [List.mem_singleton.mp inside]
    exact SharedChannel.not_returned nofun

/-- At most one call returns in an event: that of the turn. -/
theorem returns_step (s : Attached) (event : Event) :
    SharedChannel.returns (s.step event).1.occurrences = (s.returned? event).toList := by
  show SharedChannel.returns (trace _ _ (_ ++ _)) = _
  rw [trace_append, SharedChannel.returns_append, returns_move, List.append_nil]
  unfold Attached.returned?
  cases event.activity? with
  | none => rfl
  | some activity => exact (SharedChannel.head?_returns_singleton _).symm

end Event

/-! ## Tasks and answers -/

/-- The `command` of a message. -/
def command? (message : Message) : Option String :=
  match message.lookup "command" with
  | some (.str name) => some name
  | _ => none

/-- The task that a response assigns. -/
def Reading.assignment? : Reading → Option Assignment
  | .assigned task => some task
  | _ => none

/-- The task that the broker assigns by its response to a request. -/
def assignment? (request : Message) (response : Json) : Option Assignment :=
  if command? request = some "CONSUME" then (read response).assignment? else none

/-- The task that a request answers for. -/
def answer? (request : Message) : Option Json :=
  if command? request = some "ACK" ∨ command? request = some "NACK" then request.lookup "task_id"
  else none

/-- The execution of a task: none if it has no payload. -/
def Assignment.execution? (task : Assignment) : Option (Json × Json) :=
  task.payload.map (task.taskId, ·)

/-- The tasks that came in responses that were read, in order. -/
def assigned (trace : List (Event × Entry)) : List Assignment :=
  (SharedChannel.returns (occurrences trace)).filterMap fun call => assignment? call.2.1 call.2.2

/-- The tasks for which an ACK or a NACK was written, in order. -/
def answered (trace : List (Event × Entry)) : List Json :=
  (SharedChannel.writes (occurrences trace)).filterMap fun call => answer? call.2

/-- The task that a worker works on, until its answer is through. -/
def inHand (w : BaseWorker) : List Json :=
  match w.consumeLoop with
  | .executing taskId => [taskId]
  | .acknowledging taskId _ => [taskId]
  | .rejecting taskId _ => [taskId]
  | _ => []

/-- No ACK is on its way that a NACK will follow. -/
def Formats (w : BaseWorker) : Prop :=
  ∀ taskId text, w.consumeLoop ≠ .acknowledging taskId (.error ⟨some text⟩)

/-- What comes of an execution leads to one answer: formatting the result raises nothing that a
NACK could report, an exception has a text, and the execution is not cancelled. -/
def presentable (w : BaseWorker) (event : Event) : Bool :=
  match w.consumeLoop, event with
  | .executing _, .executed (.returned (.error ⟨some _⟩)) => false
  | .executing _, .executed (.raised ⟨none⟩) => false
  | .executing _, .executed .cancelled => false
  | .executing _, .cancel => false
  | _, _ => true

/-- The task that `run` answers for where it waits. -/
def ConsumeLoop.answers? : ConsumeLoop → Option Json
  | .acknowledging taskId _ => some taskId
  | .rejecting taskId _ => some taskId
  | _ => none

/-- The task that `run` takes from a response that it reads where it waits. -/
def ConsumeLoop.takes? (loop : ConsumeLoop) (response : Json) : Option Assignment :=
  match loop with
  | .consuming => (read response).assignment?
  | _ => none

section Requests

variable {w : BaseWorker} {request : Message}

/-- The request of `run` says what `run` does with the response. -/
theorem of_request_consume (waits : w.request? .consume = some request) :
    answer? request = w.consumeLoop.answers? ∧
      ∀ response, assignment? request response = w.consumeLoop.takes? response := by
  cases loop : w.consumeLoop with
  | registering | consuming | acknowledging | rejecting =>
    simp only [request?, loop, Option.some.injEq] at waits
    subst waits
    exact ⟨rfl, fun _ => rfl⟩
  | _ => simp [request?, loop] at waits

/-- A heartbeat brings no task and answers for none. -/
theorem of_request_heartbeat (waits : w.request? .heartbeat = some request) :
    answer? request = none ∧ ∀ response, assignment? request response = none := by
  cases loop : w.heartbeatLoop with
  | sending =>
    simp only [request?, loop, Option.some.injEq] at waits
    subst waits
    exact ⟨rfl, fun _ => rfl⟩
  | _ => simp [request?, loop] at waits

end Requests

/-! ### Executions -/

section Started

variable (w : BaseWorker)

@[simp] theorem started_proceed : w.proceed.1.started? = none := by
  unfold proceed
  split_ifs <;> rfl

@[simp] theorem started_reject (taskId : Json) (error : Raised) :
    (w.reject taskId error).1.started? = none := by
  unfold reject
  split <;> rfl

/-- `run` executes the task that it reads. -/
theorem started_resume (response : Json) :
    (w.resume response).1.started? =
      (w.consumeLoop.takes? response).bind Assignment.execution? := by
  unfold resume ConsumeLoop.takes?
  cases w.consumeLoop with
  | registering =>
    simp only
    split_ifs
    · exact started_proceed _
    · rfl
  | consuming =>
    rcases read response with _ | ⟨taskId, _ | payload⟩ | _
    · rfl
    · exact started_reject ..
    · rfl
    · rfl
  | acknowledging taskId result =>
    cases result with
    | ok text => rfl
    | error error => exact started_reject ..
  | _ => rfl

/-- Nothing else executes a task. -/
theorem started_react_none (event : Event) : (w.react event none).1.started? = none := by
  cases event with
  | turn caller =>
    cases caller with
    | heartbeat =>
      show w.beat.1.started? = none
      unfold beat
      split
      · rfl
      · split_ifs <;> rfl
      · rfl
    | consume =>
      show w.wake.1.started? = none
      unfold wake
      split
      · rfl
      · exact started_proceed w
      · exact started_proceed w
      · rfl
  | executed outcome =>
    show (w.executed outcome).1.started? = none
    unfold executed
    split
    · cases outcome with
      | returned result => rfl
      | raised error => exact started_reject ..
      | cancelled => rfl
    · rfl
  | _ => rfl

theorem started_beaten : w.beaten.1.started? = none := by
  unfold beaten
  split <;> rfl

end Started

/-! ### The task in hand -/

/-- The task in hand accounts for the task that came and the answer that is through. -/
structure Tally (w : BaseWorker) (came : Option Assignment) (answer : Option Json)
    (next : BaseWorker) : Prop where
  hand : w.inHand ++ came.toList.map Assignment.taskId = answer.toList ++ next.inHand
  formats : next.Formats

section Hand

variable {w v : BaseWorker}

/-- What leaves `run` where it is changes nothing. -/
theorem tally_of_consumeLoop_eq (formats : w.Formats) (same : v.consumeLoop = w.consumeLoop) :
    Tally w none none v := by
  refine ⟨?_, fun taskId text loop => formats taskId text (same ▸ loop)⟩
  unfold inHand
  rw [same]
  exact List.append_nil _

/-- The task that was in hand is answered for, and none is in hand now. -/
theorem tally_of_empty {answer : Option Json} (empty : v.inHand = [])
    (settled : w.inHand = answer.toList) : Tally w none answer v := by
  refine ⟨?_, fun taskId text loop => ?_⟩
  · rw [empty, settled]
    rfl
  · -- an ACK on its way would be one for a task in hand
    simp only [inHand, loop] at empty
    cases empty

theorem inHand_leave (w : BaseWorker) : w.leave.2.inHand = [] := rfl

theorem inHand_proceed (w : BaseWorker) : w.proceed.2.inHand = [] := by
  unfold proceed
  split_ifs <;> rfl

/-- A task is rejected with the text of the exception. -/
theorem tally_reject {came : Option Assignment} {taskId : Json} {text : String}
    (taken : v.inHand ++ came.toList.map Assignment.taskId = [taskId]) :
    Tally v came none (w.reject taskId ⟨some text⟩).2 := by
  refine ⟨taken, ?_⟩
  rintro taskId text ⟨⟩

/-- A task that is taken is in hand until it is answered. -/
theorem tally_resume (formats : w.Formats) (response : Json) :
    Tally w (w.consumeLoop.takes? response) w.consumeLoop.answers? (w.resume response).2 := by
  unfold resume
  cases loop : w.consumeLoop with
  | registering =>
    have empty : w.inHand = [] := by simp only [inHand, loop]
    simp only
    split_ifs
    · exact tally_of_empty (inHand_proceed _) empty
    · exact tally_of_empty rfl empty
  | consuming =>
    have empty : w.inHand = [] := by simp only [inHand, loop]
    simp only [ConsumeLoop.takes?, ConsumeLoop.answers?]
    rcases read response with _ | ⟨taskId, _ | payload⟩ | _
    · exact tally_of_empty rfl empty
    · refine tally_reject ?_
      rw [empty]
      rfl
    · -- the task comes in hand
      refine ⟨?_, ?_⟩
      · rw [empty]
        rfl
      · rintro taskId text ⟨⟩
    · exact tally_of_empty (inHand_leave w) empty
  | acknowledging taskId result =>
    have held : w.inHand = [taskId] := by simp only [inHand, loop]
    match result with
    | .ok text => exact tally_of_empty rfl held
    | .error ⟨none⟩ => exact tally_of_empty (inHand_leave _) held
    -- this is where the task would be answered again
    | .error ⟨some text⟩ => exact absurd loop (formats taskId text)
  | rejecting taskId error =>
    have held : w.inHand = [taskId] := by simp only [inHand, loop]
    exact tally_of_empty rfl held
  | _ => exact tally_of_consumeLoop_eq formats rfl

theorem tally_wake (formats : w.Formats) : Tally w none none w.wake.2 := by
  unfold wake
  cases loop : w.consumeLoop with
  | connecting => exact tally_of_empty rfl (by simp only [inHand, loop]; rfl)
  | polling => exact tally_of_empty (inHand_proceed w) (by simp only [inHand, loop]; rfl)
  | yielding => exact tally_of_empty (inHand_proceed w) (by simp only [inHand, loop]; rfl)
  | _ => exact tally_of_consumeLoop_eq formats rfl

/-- The task stays in hand: its ACK or NACK is still to be sent. -/
theorem tally_executed {outcome : Outcome} (formats : w.Formats)
    (presentable : w.presentable (.executed outcome) = true) :
    Tally w none none (w.executed outcome).2 := by
  unfold executed
  cases loop : w.consumeLoop with
  | executing taskId =>
    have held : w.inHand = [taskId] := by simp only [inHand, loop]
    simp only [BaseWorker.presentable, loop] at presentable
    match outcome, presentable with
    | .returned (.ok text), _ =>
      refine ⟨by rw [held]; rfl, ?_⟩
      rintro taskId text ⟨⟩
    | .returned (.error ⟨none⟩), _ =>
      refine ⟨by rw [held]; rfl, ?_⟩
      rintro taskId text ⟨⟩
    | .raised ⟨some text⟩, _ => exact tally_reject (by rw [held]; rfl)
  | _ => exact tally_of_consumeLoop_eq formats rfl

/-- The heartbeat loop leaves `run` where it is. -/
theorem consumeLoop_beat (w : BaseWorker) : w.beat.2.consumeLoop = w.consumeLoop := by
  unfold beat
  split
  · rfl
  · split_ifs <;> rfl
  · rfl

theorem consumeLoop_beaten (w : BaseWorker) : w.beaten.2.consumeLoop = w.consumeLoop := by
  unfold beaten
  split <;> rfl

end Hand

section Event

variable {s : Attached} {slot : SharedChannel.Slot Coroutine Message Json} {event : Event}

/-- The task that an event brings. -/
def Attached.came? (s : Attached) (event : Event) : Option Assignment :=
  (s.returned? event).bind fun call => assignment? call.2.1 call.2.2

/-- The task whose answer an event brings through. -/
def Attached.settles? (s : Attached) (event : Event) : Option Json :=
  (s.returned? event).bind fun call => answer? call.2.1

/-- **The task that is executed is the one that came.** -/
theorem Synced.started (synced : Synced s) (orderly : SharedChannel.Orderly s.connection slot)
    (event : Event) :
    (s.react event).1.started? = (s.came? event).bind Assignment.execution? := by
  unfold Attached.came?
  cases synced.arrival orderly event with
  | @returned caller request response returns waits pending =>
    rw [Attached.react_of_some returns, returns]
    cases caller with
    | heartbeat =>
      obtain ⟨-, noTask⟩ := of_request_heartbeat waits
      refine (started_beaten s.worker).trans ?_
      show none = (assignment? request response).bind _
      rw [noTask]
      rfl
    | consume =>
      obtain ⟨-, takes⟩ := of_request_consume waits
      refine (started_resume s.worker response).trans ?_
      rw [← takes]
      rfl
  | silent returns other pending =>
    rw [Attached.react_of_none returns, returns]
    exact started_react_none s.worker event
  | cancelled returns pending =>
    rw [Attached.react_of_none returns, returns]
    rfl

/-- Who is cancelled outside of a `_send` and of an execution has no task in hand. -/
theorem Synced.inHand_of_cancel (synced : Synced s)
    (presentable : s.worker.presentable .cancel = true)
    (uncancelled : SharedChannel.Uncancelled (s.step .cancel).1.occurrences) :
    s.worker.inHand = [] := by
  have idle : s.worker.request? .consume = none := by
    by_contra busy
    obtain ⟨request, waits⟩ := Option.ne_none_iff_exists'.mp busy
    rw [← synced.pending_eq] at waits
    have first : (SharedChannel.Action.cancel .consume, (s.connection.cancel .consume).1) ∈
        (s.step .cancel).1.occurrences := List.mem_cons_self
    exact uncancelled _ first .consume (SharedChannel.cancel_of_pending waits)
  unfold inHand
  cases loop : s.worker.consumeLoop with
  | executing taskId => simp [BaseWorker.presentable, loop] at presentable
  | acknowledging taskId result => simp [request?, loop] at idle
  | rejecting taskId error => simp [request?, loop] at idle
  | _ => rfl

/-- **The task in hand is the difference between what came and what is answered.** -/
theorem Synced.tally (synced : Synced s) (orderly : SharedChannel.Orderly s.connection slot)
    (formats : s.worker.Formats) (presentable : s.worker.presentable event = true)
    (uncancelled : SharedChannel.Uncancelled (s.step event).1.occurrences) :
    Tally s.worker (s.came? event) (s.settles? event) (s.react event).2 := by
  unfold Attached.came? Attached.settles?
  cases synced.arrival orderly event with
  | @returned caller request response returns waits pending =>
    rw [Attached.react_of_some returns, returns]
    show Tally _ (assignment? request response) (answer? request) _
    cases caller with
    | heartbeat =>
      obtain ⟨noAnswer, noTask⟩ := of_request_heartbeat waits
      rw [noAnswer, noTask]
      exact tally_of_consumeLoop_eq formats (consumeLoop_beaten s.worker)
    | consume =>
      obtain ⟨answers, takes⟩ := of_request_consume waits
      rw [answers, takes]
      exact tally_resume formats response
  | silent returns other pending =>
    rw [Attached.react_of_none returns, returns]
    show Tally _ none none _
    cases event with
    | turn caller =>
      cases caller with
      | heartbeat => exact tally_of_consumeLoop_eq formats (consumeLoop_beat s.worker)
      | consume => exact tally_wake formats
    | executed outcome => exact tally_executed formats presentable
    | serve response => exact tally_of_consumeLoop_eq formats rfl
    | shutdown => exact tally_of_consumeLoop_eq formats rfl
    | cancel => exact absurd rfl other
  | cancelled returns pending =>
    rw [Attached.react_of_none returns, returns]
    exact tally_of_empty (inHand_leave s.worker) (synced.inHand_of_cancel presentable uncancelled)

end Event

/-! ## Whole runs -/

/-- No `_send` is cancelled in the run. -/
abbrev Uncancelled (trace : List (Event × Entry)) : Prop :=
  SharedChannel.Uncancelled (occurrences trace)

/-- The tasks whose answers are through. -/
def settled (trace : List (Event × Entry)) : List Json :=
  (SharedChannel.returns (occurrences trace)).filterMap fun call => answer? call.2.1

theorem filterMap_toList {α β : Type*} (f : α → Option β) (o : Option α) :
    o.toList.filterMap f = (o.bind f).toList := by
  cases o with
  | none => rfl
  | some a =>
    show List.filterMap f [a] = (f a).toList
    rw [List.filterMap_cons]
    cases f a <;> rfl

section Runs

variable {queueName workerId : String} {events : List Event}

/-- The connection of a worker is in order, and all that was written on it is accounted for. -/
theorem accounts_run
    (uncancelled : Uncancelled (trace Attached.step (.initial queueName workerId) events)) :
    ∃ slot, SharedChannel.Orderly
        (after Attached.step (.initial queueName workerId) events).connection slot ∧
      SharedChannel.Accounts
        (occurrences (trace Attached.step (.initial queueName workerId) events)) slot := by
  obtain ⟨activities, isTrace, isAfter, -⟩ :=
    exists_activities (.initial queueName workerId) events
  unfold Uncancelled at uncancelled
  rw [isTrace] at uncancelled ⊢
  rw [isAfter]
  exact SharedChannel.accounts uncancelled

theorem returns_concat (s : Attached) (event : Event) :
    SharedChannel.returns (occurrences (trace Attached.step s (events ++ [event]))) =
      SharedChannel.returns (occurrences (trace Attached.step s events)) ++
        ((after Attached.step s events).returned? event).toList := by
  rw [occurrences_concat, SharedChannel.returns_append, returns_step]

theorem assigned_concat (s : Attached) (event : Event) :
    assigned (trace Attached.step s (events ++ [event])) =
      assigned (trace Attached.step s events) ++
        ((after Attached.step s events).came? event).toList := by
  unfold assigned Attached.came?
  rw [returns_concat, List.filterMap_append, filterMap_toList]

theorem settled_concat (s : Attached) (event : Event) :
    settled (trace Attached.step s (events ++ [event])) =
      settled (trace Attached.step s events) ++
        ((after Attached.step s events).settles? event).toList := by
  unfold settled Attached.settles?
  rw [returns_concat, List.filterMap_append, filterMap_toList]

theorem executions_concat (s : Attached) (event : Event) :
    executions (trace Attached.step s (events ++ [event])) =
      executions (trace Attached.step s events) ++
        ((after Attached.step s events).react event).1.started?.toList := by
  unfold executions
  rw [trace_concat, List.filterMap_append]
  exact congrArg _ (filterMap_toList _ (some _))

theorem Uncancelled.front {event : Event}
    (uncancelled : Uncancelled (trace Attached.step s (events ++ [event]))) :
    Uncancelled (trace Attached.step s events) ∧
      SharedChannel.Uncancelled ((after Attached.step s events).step event).1.occurrences := by
  unfold Uncancelled at uncancelled ⊢
  rw [occurrences_concat] at uncancelled
  exact ⟨fun entry inside => uncancelled entry (List.mem_append_left _ inside),
    fun entry inside => uncancelled entry (List.mem_append_right _ inside)⟩

/-- **Every run.**  The calls under way are where the coroutines wait, and the tasks that came
were executed. -/
theorem synced_run
    (uncancelled : Uncancelled (trace Attached.step (.initial queueName workerId) events)) :
    Synced (after Attached.step (.initial queueName workerId) events) ∧
      executions (trace Attached.step (.initial queueName workerId) events) =
        (assigned (trace Attached.step (.initial queueName workerId) events)).filterMap
          Assignment.execution? := by
  -- one event needs the channel in order, which `accounts_run` gives for what came before it
  induction events using List.reverseRecOn with
  | nil => exact ⟨synced_initial queueName workerId, rfl⟩
  | append_singleton front event ih =>
    obtain ⟨before, now⟩ := uncancelled.front
    obtain ⟨synced, executed⟩ := ih before
    obtain ⟨slot, orderly, -⟩ := accounts_run before
    refine ⟨?_, ?_⟩
    · rw [after_concat]
      exact synced.step orderly now
    · rw [executions_concat, assigned_concat, List.filterMap_append, executed,
        synced.started orderly event, filterMap_toList]

/-- **Every run in which executions end as they should.**  The tasks that came are those whose
answers are through, and the task in hand. -/
theorem tally_run
    (uncancelled : Uncancelled (trace Attached.step (.initial queueName workerId) events))
    (presentable : EachStep Attached.step (.initial queueName workerId)
      (fun _ s event => s.worker.presentable event = true) events) :
    (assigned (trace Attached.step (.initial queueName workerId) events)).map Assignment.taskId =
        settled (trace Attached.step (.initial queueName workerId) events) ++
          (after Attached.step (.initial queueName workerId) events).worker.inHand ∧
      (after Attached.step (.initial queueName workerId) events).worker.Formats := by
  induction events using List.reverseRecOn with
  | nil =>
    refine ⟨rfl, ?_⟩
    rintro taskId text ⟨⟩
  | append_singleton front event ih =>
    obtain ⟨before, now⟩ := uncancelled.front
    obtain ⟨balanced, formats⟩ := ih before presentable.front
    obtain ⟨synced, -⟩ := synced_run before
    obtain ⟨slot, orderly, -⟩ := accounts_run before
    obtain ⟨hand, formats'⟩ := synced.tally orderly formats presentable.last now
    rw [after_concat]
    refine ⟨?_, formats'⟩
    -- the task in hand stands between what came before the event and what came with it
    rw [assigned_concat, settled_concat, List.map_append, balanced, List.append_assoc,
      List.append_assoc, hand]
    rfl

end Runs

/-! ## Calls return -/

/-- Both coroutines get a turn, and the broker answers. -/
def Fair (round : List Event) : Prop :=
  (∀ coroutine, .turn coroutine ∈ round) ∧ ∃ response, .serve response ∈ round

/-- Fair rounds of the worker are fair rounds of its connection. -/
theorem exists_rounds (s : Attached) {rounds : List (List Event)}
    (fair : ∀ round ∈ rounds, Fair round) :
    ∃ channelRounds : List (List Activity), channelRounds.length = rounds.length ∧
      (∀ round ∈ channelRounds, SharedChannel.Fair round) ∧
        occurrences (trace Attached.step s rounds.flatten) =
          trace SharedChannel.Channel.step s.connection channelRounds.flatten := by
  induction rounds generalizing s with
  | nil => exact ⟨[], rfl, nofun, rfl⟩
  | cons round later ih =>
    obtain ⟨activities, isTrace, isAfter, among⟩ := exists_activities s round
    obtain ⟨channelRounds, sameLength, channelFair, isRest⟩ :=
      ih (after Attached.step s round) fun other inside =>
        fair other (List.mem_cons_of_mem _ inside)
    -- a turn of a coroutine is a turn on the connection, whatever else the worker does in it
    obtain ⟨turns, response, serves⟩ := fair round List.mem_cons_self
    have fairNow : SharedChannel.Fair activities :=
      ⟨fun coroutine => among _ (turns coroutine) _ rfl, response, among _ serves _ rfl⟩
    refine ⟨activities :: channelRounds, congrArg _ sameLength, ?_, ?_⟩
    · intro other inside
      rcases List.mem_cons.mp inside with rfl | inLater
      · exact fairNow
      · exact channelFair other inLater
    · rw [List.flatten_cons, List.flatten_cons, trace_append, trace_append, occurrences_append,
        isTrace, isRest, isAfter]

/-- Only the two coroutines wait for the lock. -/
theorem rank_lt {c : Connection} (orderly : SharedChannel.Orderly c slot) (caller : Coroutine) :
    c.rank slot caller < 15 := by
  have among : c.waiters ⊆ [.heartbeat, .consume] := fun waiter _ => by cases waiter <;> simp
  have few : c.waiters.length ≤ 2 := (List.subperm_of_subset orderly.nodup among).length_le
  have bound := c.rank_le slot caller
  omega

/-- **A `_send` returns** within fifteen rounds in which both coroutines get a turn and the
broker answers. -/
theorem returns_of_rounds (synced : Synced s) (orderly : SharedChannel.Orderly s.connection slot)
    {caller : Coroutine} (waits : s.worker.request? caller = some request)
    {rounds : List (List Event)} (enough : 15 ≤ rounds.length) (fair : ∀ round ∈ rounds, Fair round)
    (uncancelled : Uncancelled (trace Attached.step s rounds.flatten)) :
    ∃ response, (caller, request, response) ∈
      SharedChannel.returns (occurrences (trace Attached.step s rounds.flatten)) := by
  obtain ⟨channelRounds, sameLength, channelFair, isTrace⟩ := exists_rounds s fair
  unfold Uncancelled at uncancelled
  rw [isTrace] at uncancelled ⊢
  have rank := rank_lt orderly caller
  rw [← synced.pending_eq] at waits
  obtain ⟨entry, inside, response, returned⟩ :=
    orderly.returns_of_rounds waits channelFair uncancelled (by omega)
  refine ⟨response, List.mem_filterMap.mpr ⟨entry, inside, ?_⟩⟩
  rw [returned]

/-! ## Pairing -/

/-- The requests of a worker and the responses to them, in a run that has led to `s`. -/
structure Paired (trace : List (Event × Entry)) (s : Attached) : Prop where
  /-- The call that returned as number `k` wrote request number `k` and returned what the broker
  answered to that. -/
  own : ∀ (k : Nat) caller request response,
    (SharedChannel.returns (occurrences trace))[k]? = some (caller, request, response) →
      (SharedChannel.writes (occurrences trace))[k]? = some (caller, request) ∧
        (SharedChannel.serves (occurrences trace))[k]? = some (request, response)
  /-- At most one request is outstanding. -/
  outstanding : (SharedChannel.writes (occurrences trace)).length ≤
    (SharedChannel.returns (occurrences trace)).length + 1
  /-- Every call under way returns. -/
  returns : ∀ caller request, s.worker.request? caller = some request →
    ∀ rounds : List (List Event), 15 ≤ rounds.length → (∀ round ∈ rounds, Fair round) →
      Uncancelled (Trace.trace Attached.step s rounds.flatten) →
        ∃ response, (caller, request, response) ∈
          SharedChannel.returns (occurrences (Trace.trace Attached.step s rounds.flatten))
  /-- The tasks that were executed are those that the broker assigned, each with its payload. -/
  executed : executions trace = (assigned trace).filterMap Assignment.execution?

/-- Every task that was assigned is answered by one ACK or NACK, in the order in which they came;
only the last may still be executed, or its answer wait for the lock. -/
structure Answered (trace : List (Event × Entry)) (s : Attached) : Prop where
  exists_rest : ∃ rest, (assigned trace).map Assignment.taskId = answered trace ++ rest ∧
    ∀ taskId ∈ rest, rest = [taskId] ∧ (s.worker.consumeLoop = .executing taskId ∨
      ∃ request, s.connection.phase .consume = .queued request ∧ answer? request = some taskId)

section Pairing

variable {queueName workerId : String} {events : List Event}

/-- **Pairing**, whatever comes of the executions. -/
theorem paired_run
    (uncancelled : Uncancelled (trace Attached.step (.initial queueName workerId) events)) :
    Paired (trace Attached.step (.initial queueName workerId) events)
      (after Attached.step (.initial queueName workerId) events) := by
  obtain ⟨slot, orderly, writes_eq, serves_eq⟩ := accounts_run uncancelled
  obtain ⟨synced, executed⟩ := synced_run uncancelled
  refine ⟨?_, ?_, ?_, executed⟩
  · intro k caller request response isCall
    have inside := (List.getElem?_eq_some_iff.mp isCall).1
    constructor
    · rw [writes_eq, List.getElem?_append_left (by rwa [List.length_map]), List.getElem?_map,
        isCall]
      rfl
    · rw [serves_eq, List.getElem?_append_left (by rwa [List.length_map]), List.getElem?_map,
        isCall]
      rfl
  · rw [writes_eq, List.length_append, List.length_map, List.length_map]
    cases slot <;> simp
  · intro caller request waits rounds enough fair further
    exact returns_of_rounds synced orderly waits enough fair further

/-- The answers that were written are those that are through, and the one under way. -/
theorem answered_eq {trace : List (Event × Entry)}
    (accounts : SharedChannel.Accounts (occurrences trace) slot) :
    answered trace = settled trace ++
      slot.toList.filterMap fun exchange => answer? exchange.request := by
  unfold answered settled
  rw [accounts.writes_eq, List.filterMap_append, List.filterMap_map, List.filterMap_map]
  rfl

/-- The task in hand is being executed, or its answer is under way. -/
theorem of_mem_inHand {w : BaseWorker} {taskId : Json} (held : taskId ∈ w.inHand) :
    w.inHand = [taskId] ∧ (w.consumeLoop = .executing taskId ∨
      ∃ request, w.request? .consume = some request ∧ answer? request = some taskId) := by
  unfold inHand at held ⊢
  cases loop : w.consumeLoop with
  | executing task =>
    rw [loop] at held
    obtain rfl := List.mem_singleton.mp held
    exact ⟨rfl, Or.inl rfl⟩
  | acknowledging task result =>
    rw [loop] at held
    obtain rfl := List.mem_singleton.mp held
    exact ⟨rfl, Or.inr ⟨w.ackRequest taskId, by simp only [request?, loop], rfl⟩⟩
  | rejecting task error =>
    rw [loop] at held
    obtain rfl := List.mem_singleton.mp held
    exact ⟨rfl, Or.inr ⟨w.nackRequest taskId error, by simp only [request?, loop], rfl⟩⟩
  | _ =>
    rw [loop] at held
    cases held

/-- The answer that `run` waits for is the one for the task in hand. -/
theorem inHand_of_answer {w : BaseWorker} {taskId : Json}
    (waits : w.request? .consume = some request) (answers : answer? request = some taskId) :
    w.inHand = [taskId] := by
  obtain ⟨isAnswer, -⟩ := of_request_consume waits
  rw [isAnswer] at answers
  unfold inHand
  cases loop : w.consumeLoop with
  | acknowledging task result =>
    rw [loop] at answers
    cases answers
    rfl
  | rejecting task error =>
    rw [loop] at answers
    cases answers
    rfl
  | _ =>
    rw [loop] at answers
    cases answers

/-- A call that is under way before it has the lock waits for it. -/
theorem queued_of_waits {phase : SharedChannel.Phase Message} (waits : phase.waits = true)
    (isCall : phase.request? = some request) :
    phase = .queued request := by
  cases phase with
  | queued other => exact congrArg _ (Option.some.inj isCall)
  | idle => cases isCall
  | _ => cases waits

/-- What was written is what is through, if `run` has not written. -/
theorem answered_of_waits {trace : List (Event × Entry)} (synced : Synced s)
    (same : answered trace = settled trace) (waits : (s.connection.phase .consume).waits = true)
    (balanced : (assigned trace).map Assignment.taskId = settled trace ++ s.worker.inHand) :
    Answered trace s := by
  refine ⟨s.worker.inHand, by rw [same, balanced], fun taskId held => ?_⟩
  obtain ⟨isHand, executing | ⟨request, isCall, answers⟩⟩ := of_mem_inHand held
  · exact ⟨isHand, Or.inl executing⟩
  · rw [← synced.pending_eq] at isCall
    exact ⟨isHand, Or.inr ⟨request, queued_of_waits waits isCall, answers⟩⟩

/-- The answer under way, and the task in hand. -/
theorem answered_of_tally {trace : List (Event × Entry)} (synced : Synced s)
    (orderly : SharedChannel.Orderly s.connection slot)
    (accounts : SharedChannel.Accounts (occurrences trace) slot)
    (balanced : (assigned trace).map Assignment.taskId = settled trace ++ s.worker.inHand) :
    Answered trace s := by
  have written := answered_eq accounts
  cases slot with
  | none =>
    have free : SharedChannel.Free s.connection := orderly.holds
    exact answered_of_waits synced (written.trans (List.append_nil _)) (free.waits _) balanced
  | some exchange =>
    have busy : SharedChannel.Busy s.connection exchange := orderly.holds
    have isCall := busy.pending
    rw [synced.pending_eq] at isCall
    obtain ⟨caller, request, response⟩ := exchange
    cases caller with
    | heartbeat =>
      -- the heartbeat has the lock, so `run` has not written what it wants to send
      obtain ⟨noAnswer, -⟩ := of_request_heartbeat isCall
      refine answered_of_waits synced (written.trans ?_) (busy.waits _ nofun) balanced
      show _ ++ (some _).toList.filterMap _ = _
      rw [filterMap_toList]
      show _ ++ (answer? request).toList = _
      rw [noAnswer]
      exact List.append_nil _
    | consume =>
      replace written : answered trace = settled trace ++ (answer? request).toList :=
        written.trans (congrArg _ (filterMap_toList _ (some _)))
      cases answers : answer? request with
      | some taskId =>
        -- the answer is written, and with that the task out of hand
        refine ⟨[], ?_, nofun⟩
        rw [balanced, written, answers, inHand_of_answer isCall answers, List.append_nil]
        rfl
      | none =>
        rw [answers] at written
        refine ⟨s.worker.inHand, ?_, fun taskId held => ?_⟩
        · rw [balanced, written]
          exact congrArg (· ++ _) (List.append_nil _).symm
        · obtain ⟨isHand, executing | ⟨other, isOther, isAnswer⟩⟩ := of_mem_inHand held
          · exact ⟨isHand, Or.inl executing⟩
          · cases isOther.symm.trans isCall
            rw [answers] at isAnswer
            cases isAnswer

/-- **Requests and responses of a worker are paired.**  In every run in which no `_send` is
cancelled and what comes of an execution is always presentable, a `_send` returns the response
to the request that it wrote, at most one request is outstanding, the tasks that are executed
are those that the broker assigned, and each is answered by exactly one ACK or NACK. -/
theorem requests_paired (queueName workerId : String) (events : List Event)
    (uncancelled : Uncancelled (trace Attached.step (.initial queueName workerId) events))
    (presentable : EachStep Attached.step (.initial queueName workerId)
      (fun _ s event => s.worker.presentable event = true) events) :
    Paired (trace Attached.step (.initial queueName workerId) events)
        (after Attached.step (.initial queueName workerId) events) ∧
      Answered (trace Attached.step (.initial queueName workerId) events)
        (after Attached.step (.initial queueName workerId) events) := by
  obtain ⟨slot, orderly, accounts⟩ := accounts_run uncancelled
  obtain ⟨synced, -⟩ := synced_run uncancelled
  obtain ⟨balanced, -⟩ := tally_run uncancelled presentable
  exact ⟨paired_run uncancelled, answered_of_tally synced orderly accounts balanced⟩

end Pairing

/-! ## An answer too many -/

/-- The task that the broker assigns in the run below. -/
def sampleTask : Delivery :=
  { taskId := "task-1", queueName := .str "jobs", payload := .obj [("data", .arr [])]
    attempts := 1 }

/-- The turns of a `_send`, from the response to its end. -/
def exchangeTurns (caller : Coroutine) (response : Response) : List Event :=
  [.serve (response.toJson .plain), .turn caller, .turn caller, .turn caller]

/-- A worker registers, gets a task, executes it and reads the response to its ACK.  The
heartbeat loop wakes up while `run` waits for its task, so its message goes out first when the
lock is released, and the ACK has to wait for the response to it. -/
def sampleRun (outcome : Outcome) : List Event :=
  .turn .consume :: exchangeTurns .consume (.registered true "") ++
    [.turn .heartbeat, .turn .heartbeat] ++ exchangeTurns .consume (.consumed sampleTask) ++
    [.executed outcome, .turn .heartbeat] ++ exchangeTurns .heartbeat .heartbeat ++
    .turn .consume :: exchangeTurns .consume (.acknowledged "")

/-- What Python says of an integer with more than 4300 digits. -/
def tooManyDigits : Raised :=
  ⟨some "Exceeds the limit (4300 digits) for integer string conversion"⟩

/-- A task whose result has no text is acknowledged and rejected. -/
theorem result_without_text_answered_twice :
    Uncancelled (trace Attached.step (.initial "jobs" "worker-1")
        (sampleRun (.returned (.error tooManyDigits)))) ∧
      (assigned (trace Attached.step (.initial "jobs" "worker-1")
        (sampleRun (.returned (.error tooManyDigits))))).map Assignment.taskId =
          [.str "task-1"] ∧
      answered (trace Attached.step (.initial "jobs" "worker-1")
        (sampleRun (.returned (.error tooManyDigits)))) = [.str "task-1", .str "task-1"] ∧
      ¬Answered (trace Attached.step (.initial "jobs" "worker-1")
          (sampleRun (.returned (.error tooManyDigits))))
        (after Attached.step (.initial "jobs" "worker-1")
          (sampleRun (.returned (.error tooManyDigits)))) := by
  have isAssigned : (assigned (trace Attached.step (.initial "jobs" "worker-1")
      (sampleRun (.returned (.error tooManyDigits))))).map Assignment.taskId =
        [.str "task-1"] := rfl
  have isAnswered : answered (trace Attached.step (.initial "jobs" "worker-1")
      (sampleRun (.returned (.error tooManyDigits)))) = [.str "task-1", .str "task-1"] := rfl
  refine ⟨SharedChannel.uncancelled_of_all rfl, isAssigned, isAnswered, ?_⟩
  rintro ⟨rest, balanced, -⟩
  rw [isAssigned, isAnswered] at balanced
  have lengths := congrArg List.length balanced
  simp only [List.length_append, List.length_cons, List.length_nil] at lengths
  omega

/-- The same run with a result that has a text. -/
theorem requests_paired_sampleRun :
    (SharedChannel.returns (occurrences (trace Attached.step (.initial "jobs" "worker-1")
        (sampleRun (.returned (.ok "1")))))).map Prod.fst =
          [.consume, .consume, .heartbeat, .consume] ∧
      answered (trace Attached.step (.initial "jobs" "worker-1")
        (sampleRun (.returned (.ok "1")))) = [.str "task-1"] ∧
      Paired (trace Attached.step (.initial "jobs" "worker-1") (sampleRun (.returned (.ok "1"))))
        (after Attached.step (.initial "jobs" "worker-1") (sampleRun (.returned (.ok "1")))) ∧
      Answered (trace Attached.step (.initial "jobs" "worker-1") (sampleRun (.returned (.ok "1"))))
        (after Attached.step (.initial "jobs" "worker-1") (sampleRun (.returned (.ok "1")))) :=
  ⟨rfl, rfl, requests_paired "jobs" "worker-1" (sampleRun (.returned (.ok "1")))
    (SharedChannel.uncancelled_of_all rfl) (eachStep_of_all rfl)⟩

end BaseWorker

end DistroSync
