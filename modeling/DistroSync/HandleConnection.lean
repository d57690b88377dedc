import DistroSync.Raising
import DistroSync.Responses
import DistroSync.Scenario

/-!
# A connection

`handle_connection` of `broker/server.py`.

A `Session` is one connection of a running broker: the receiving end of its stream, what
was written back, and the system, which other connections and loops change as well.  A
turn of the connection is one read of the loop with everything up to the next read.  A
frame that was read is parsed, dispatched and answered in its turn, since nothing in
between suspends.

The loop has three ways to go wrong about a payload.  If it is no UTF-8 or no JSON, the
loop says so and goes on.  Any other exception ends the connection without a reply: a
value that is no object has no `get`, and the handlers raise where `Raises` says.  And a
handler may return what `_send_response` cannot write, a response that is nested too
deeply or too long; then the state has changed, and the client is not told.  `Answerable`
is what is left.

The bytes that `_send_response` makes are written, and the peer's end stays open until it
hangs up.
-/

namespace DistroSync

open Keyed Py Exec Framing

/-! ## The connection loop -/

/-- The longest message that is read: 10 MiB. -/
def maxMessage : Nat := 10 * 1024 * 1024

/-- A connection: what it receives, what was written to it, and the system it belongs to. -/
structure Session where
  receiver : Receiver := {}
  written : Bytes := []
  system : System

/-- What can happen to a connection, and elsewhere in the process. -/
inductive Activity where
  /-- Bytes arrive. -/
  | chunk (bytes : Bytes)
  /-- The peer closes its end. -/
  | hangUp
  /-- The connection gets a turn. -/
  | turn (env : Env)
  /-- Another connection, a background loop or the dashboard gets a turn.  A worker that the
  dashboard crashes is the worker of another connection. -/
  | elsewhere (event : Event)

/-- What comes of an activity. -/
inductive Report where
  | nothing
  /-- The payload was read, and the reply was written. -/
  | replied (payload : Bytes) (data : Json)
  /-- The payload was read, and the connection ended by an exception. -/
  | dropped (payload : Bytes)
  /-- The length was above the limit: the reply was written and the connection ended. -/
  | refused (length : Nat) (data : Json)
  /-- The stream ended, and with it the connection. -/
  | closed

/-- The payload that was read. -/
def Report.payload? : Report → Option Bytes
  | .replied payload _ => some payload
  | .dropped payload => some payload
  | _ => none

/-- The payload that was answered, with the answer. -/
def Report.reply? : Report → Option (Bytes × Json)
  | .replied payload data => some (payload, data)
  | _ => none

namespace Session

/-- The exception handler: the connection is closed without a reply. -/
def drop (s : Session) (payload : Bytes) : Report × Session :=
  (.dropped payload, { s with receiver := { s.receiver with phase := .abandoned } })

/-- `await self._send_response(writer, data)`. -/
def respond (wire : Wire) (s : Session) (payload : Bytes) (data : Json) : Report × Session :=
  match wire.sendResponse data with
  | some bytes => (.replied payload data, { s with written := s.written ++ bytes })
  | none => s.drop payload

/-- What the loop does with a payload. -/
def serve (config : Config) (wire : Wire) (env : Env) (s : Session) (payload : Bytes) :
    Report × Session :=
  match wire.parse payload with
  | .invalid => s.respond wire payload (errorReply "Invalid JSON")
  | .raised => s.drop payload
  | .value (.obj message) =>
    match step config wire.platform s.system { action := .command message, env } with
    | (.answered response, system) =>
      { s with system }.respond wire payload (response.toJson wire)
    | (_, system) => { s with system }.drop payload
  -- `message.get` raises AttributeError
  | .value _ => s.drop payload

/-- A length above the limit: one more reply, and then `break`. -/
def refuse (wire : Wire) (s : Session) (length : Nat) : Report × Session :=
  match wire.sendResponse (errorReply "Message too large") with
  | some bytes =>
    (.refused length (errorReply "Message too large"), { s with written := s.written ++ bytes })
  | none => (.closed, s)

/-- A turn of `handle_connection`. -/
def handleConnection (config : Config) (wire : Wire) (env : Env) (s : Session) :
    Report × Session :=
  match s.receiver.advance maxMessage with
  | (.received payload, receiver) => { s with receiver }.serve config wire env payload
  | (.oversized length, receiver) => { s with receiver }.refuse wire length
  | (.cutOff, receiver) => (.closed, { s with receiver })
  | (_, receiver) => (.nothing, { s with receiver })

/-- One activity.  A process that is down takes no turns. -/
def step (config : Config) (wire : Wire) (s : Session) : Activity → Report × Session
  | .chunk bytes => (.nothing, { s with receiver := s.receiver.arrive bytes })
  | .hangUp => (.nothing, { s with receiver := { s.receiver with ended := true } })
  | .turn env =>
    match s.system with
    | .running _ _ => s.handleConnection config wire env
    | .stopped _ => (.nothing, s)
  | .elsewhere event =>
    (.nothing, { s with system := (DistroSync.step config wire.platform s.system event).2 })

end Session

/-- The payloads that were read in a run of a connection. -/
def extracted (trace : List (Activity × Report)) : List Bytes :=
  trace.filterMap fun entry => entry.2.payload?

/-- The payloads that were answered in a run of a connection, with the answers. -/
def replies (trace : List (Activity × Report)) : List (Bytes × Json) :=
  trace.filterMap fun entry => entry.2.reply?

/-! ## One turn -/

/-- The connection's process is up. -/
def Session.Up (s : Session) : Prop := ∃ broker disk, s.system = .running broker disk

/-- The activity does not end the process. -/
def Activity.Spares : Activity → Prop
  | .elsewhere event => event.crashIn = none ∧ event.action ≠ .crash
  | _ => True

/-- The loop answers the payload: it is no JSON, or it is an object that does not raise and
whose response can be written. -/
def Answerable (wire : Wire) (env : Env) (m : Machine) (payload : Bytes) : Prop :=
  match wire.parse payload with
  | .invalid => True
  | .raised => False
  | .value (.obj message) =>
    ¬RaisesMessage wire.platform env m message ∧
      ∀ response m', dispatch wire.platform env message m = .ok response m' →
        wire.Sendable (response.toJson wire)
  | .value _ => False

/-- The connection loop can read the request: it is not too long, and not nested too deeply. -/
structure Readable (wire : Wire) (request : Message) : Prop where
  short : (wire.encoded (.obj request)).length ≤ maxMessage
  shallow : (Json.obj request).depth ≤ wire.readDepth

instance (wire : Wire) (request : Message) : Decidable (Readable wire request) :=
  decidable_of_iff (_ ∧ _) ⟨fun both => ⟨both.1, both.2⟩,
    fun readable => ⟨readable.short, readable.shallow⟩⟩

/-- The payload is no JSON object. -/
def Malformed (wire : Wire) (payload : Bytes) : Prop :=
  ∀ message, wire.parse payload ≠ .value (.obj message)

/-- What a turn does, in a process that is up. -/
inductive Turn (wire : Wire) (env : Env) (m : Machine) (s : Session) : Report × Session → Prop
  | waited {s' : Session} (silent : (s.receiver.advance maxMessage).1.payload? = none)
      (receiver : s'.receiver = (s.receiver.advance maxMessage).2)
      (written : s'.written = s.written) (up : s'.Up) : Turn wire env m s (.nothing, s')
  | replied {payload : Bytes} {data : Json} {s' : Session}
      (taken : (s.receiver.advance maxMessage).1 = .received payload)
      (answerable : Answerable wire env m payload)
      (malformed : Malformed wire payload → data = errorReply "Invalid JSON")
      (sendable : wire.Sendable data)
      (receiver : s'.receiver = (s.receiver.advance maxMessage).2)
      (written : s'.written = s.written ++ frame (wire.encoded data)) (up : s'.Up) :
      Turn wire env m s (.replied payload data, s')
  | dropped {payload : Bytes} {s' : Session}
      (taken : (s.receiver.advance maxMessage).1 = .received payload)
      (unanswerable : ¬Answerable wire env m payload)
      (phase : s'.receiver.phase = .abandoned) (up : s'.Up) :
      Turn wire env m s (.dropped payload, s')
  | refused {length : Nat} {data : Json} {s' : Session}
      (taken : (s.receiver.advance maxMessage).1 = .oversized length)
      (receiver : s'.receiver = (s.receiver.advance maxMessage).2)
      (up : s'.Up) : Turn wire env m s (.refused length data, s')
  | closed {s' : Session} (taken : (s.receiver.advance maxMessage).1 = .cutOff)
      (receiver : s'.receiver = (s.receiver.advance maxMessage).2)
      (up : s'.Up) : Turn wire env m s (.closed, s')

section Turns

variable {config : Config} {wire : Wire} {env : Env} {broker : Broker} {disk : Database}

/-- A command is answered or it raises, and the process is up afterwards. -/
theorem step_of_dispatch (config : Config) (platform : Platform) (env : Env) (broker : Broker)
    (disk : Database) (message : Message) :
    ∃ broker' disk',
      (∃ response m', dispatch platform env message { broker, disk } = .ok response m' ∧
        step config platform (.running broker disk) { action := .command message, env } =
          (.answered response, .running broker' disk')) ∨
      ∃ stop m', dispatch platform env message { broker, disk } = .error stop m' ∧
        ∃ e, step config platform (.running broker disk) { action := .command message, env } =
          (.raised e, .running broker' disk') := by
  obtain ⟨broker', disk', up⟩ := @step_running config platform broker disk
    { action := .command message, env } rfl nofun
  refine ⟨broker', disk', ?_⟩
  have performed : perform platform env (.command message) { broker, disk } =
      match dispatch platform env message { broker, disk } with
      | .ok response m' => .ok (.answered response) m'
      | .error stop m' => .error stop m' := by
    show EStateM.bind (dispatch platform env message)
      (fun response => pure (Outcome.answered response)) _ = _
    unfold EStateM.bind
    cases dispatch platform env message { broker, disk } <;> rfl
  simp only [step, performed] at up ⊢
  cases ran : dispatch platform env message { broker, disk } with
  | ok response m' =>
    refine Or.inl ⟨response, m', rfl, ?_⟩
    simp only [ran, conclude] at up ⊢
    split_ifs at up ⊢ with whole
    rw [Prod.mk.injEq]
    exact ⟨rfl, up⟩
  | error stop m' =>
    refine Or.inr ⟨stop, m', rfl, ?_⟩
    cases stop with
    | raised e =>
      refine ⟨e, ?_⟩
      simp only [ran, conclude] at up ⊢
      split_ifs at up ⊢ with whole
      rw [Prod.mk.injEq]
      exact ⟨rfl, up⟩
    | crashed =>
      simp only [ran, conclude] at up
      cases up

theorem Session.respond_of_sendable {s : Session} {payload : Bytes} {data : Json}
    (sendable : wire.Sendable data) :
    s.respond wire payload data =
      (.replied payload data, { s with written := s.written ++ frame (wire.encoded data) }) := by
  unfold respond
  rw [Wire.sendResponse_of_sendable sendable]

/-- What `_send_response` raises ends the connection like any other exception. -/
theorem Session.respond_of_not_sendable {s : Session} {payload : Bytes} {data : Json}
    (unsendable : ¬wire.Sendable data) : s.respond wire payload data = s.drop payload := by
  unfold respond
  rw [Wire.sendResponse_of_not_sendable unsendable]

/-- The replies that the loop makes up itself can be written. -/
theorem Wire.sendable_errorReply {reason : String}
    (own : reason ∈ ["Invalid JSON", "Message too large"]) :
    wire.Sendable (errorReply reason) :=
  ⟨wire.replyDepth_pos, wire.jsonText_reason reason own⟩

theorem Wire.sendable_invalid : wire.Sendable (errorReply "Invalid JSON") :=
  sendable_errorReply (by simp)

/-- The payloads that are not answerable end the connection. -/
theorem Session.serve_turn {s : Session} {payload : Bytes} {receiver : Receiver}
    (up : s.system = .running broker disk)
    (taken : s.receiver.advance maxMessage = (.received payload, receiver)) :
    Turn wire env { broker, disk } s
      ({ s with receiver }.serve config wire env payload) := by
  have reads : (s.receiver.advance maxMessage).1 = .received payload := by rw [taken]
  have rest : receiver = (s.receiver.advance maxMessage).2 := by rw [taken]
  have drops {s' : Session} (unanswerable : ¬Answerable wire env { broker, disk } payload)
      (up : s'.Up) : Turn wire env { broker, disk } s (s'.drop payload) :=
    .dropped reads unanswerable rfl up
  unfold serve
  cases parsed : wire.parse payload with
  | invalid =>
    rw [respond_of_sendable Wire.sendable_invalid]
    refine .replied reads ?_ (fun _ => rfl) Wire.sendable_invalid rest rfl ⟨broker, disk, up⟩
    unfold Answerable
    rw [parsed]
    trivial
  | raised =>
    refine drops ?_ ⟨broker, disk, up⟩
    unfold Answerable
    rw [parsed]
    exact id
  | value value =>
    cases value with
    | obj message =>
      have answerable_iff : Answerable wire env { broker, disk } payload ↔
          ¬RaisesMessage wire.platform env { broker, disk } message ∧
            ∀ response m', dispatch wire.platform env message { broker, disk } =
                .ok response m' → wire.Sendable (response.toJson wire) := by
        unfold Answerable
        rw [parsed]
      obtain ⟨broker', disk', dispatched⟩ :=
        step_of_dispatch config wire.platform env broker disk message
      -- a response that cannot be written drops the connection, as an exception does
      rcases dispatched with ⟨response, m', returned, taken'⟩ | ⟨stop, m', failed, e, taken'⟩
      · simp only [up, taken']
        have passes := not_raisesMessage_of_ok rfl returned
        by_cases sendable : wire.Sendable (response.toJson wire)
        · rw [respond_of_sendable sendable]
          refine .replied reads (answerable_iff.mpr ⟨passes, ?_⟩) (fun malformed => ?_)
            sendable rest rfl ⟨broker', disk', rfl⟩
          · intro other m'' again
            cases returned.symm.trans again
            exact sendable
          · exact absurd parsed (malformed message)
        · rw [respond_of_not_sendable sendable]
          refine drops (fun answerable => ?_) ⟨broker', disk', rfl⟩
          exact sendable ((answerable_iff.mp answerable).2 response m' returned)
      · simp only [up, taken']
        refine drops (fun answerable => ?_) ⟨broker', disk', rfl⟩
        exact (answerable_iff.mp answerable).1 (raisesMessage_of_error rfl failed)
    | _ =>
      refine drops ?_ ⟨broker, disk, up⟩
      unfold Answerable
      rw [parsed]
      exact id

theorem Session.step_turn {s : Session} (up : s.system = .running broker disk) :
    Turn wire env { broker, disk } s (s.step config wire (.turn env)) := by
  have alive : ∀ {s' : Session}, s'.system = s.system → s'.Up :=
    fun same => ⟨broker, disk, same.trans up⟩
  simp only [Session.step, up]
  unfold handleConnection
  cases advanced : s.receiver.advance maxMessage with
  | mk signal receiver =>
    have shown : (s.receiver.advance maxMessage).1 = signal := by rw [advanced]
    have rest : receiver = (s.receiver.advance maxMessage).2 := by rw [advanced]
    cases signal with
    | received payload => exact serve_turn up advanced
    | oversized length =>
      simp only [refuse]
      have sendable : wire.Sendable (errorReply "Message too large") :=
        Wire.sendable_errorReply (by simp)
      rw [Wire.sendResponse_of_sendable sendable]
      exact .refused shown rest (alive rfl)
    | cutOff => exact .closed shown rest (alive rfl)
    | idle => exact .waited (by rw [shown]; rfl) rest rfl (alive rfl)
    | announced length => exact .waited (by rw [shown]; rfl) rest rfl (alive rfl)

theorem Session.Up.step {s : Session} {activity : Activity} (up : s.Up) (spares : activity.Spares) :
    (s.step config wire activity).2.Up := by
  obtain ⟨broker, disk, up⟩ := up
  cases activity with
  | chunk bytes => exact ⟨broker, disk, up⟩
  | hangUp => exact ⟨broker, disk, up⟩
  | turn env =>
    have turn := @step_turn config wire env broker disk s up
    generalize s.step config wire (.turn env) = next at turn ⊢
    cases turn with
    | waited _ _ _ up => exact up
    | replied _ _ _ _ _ _ up => exact up
    | dropped _ _ _ up => exact up
    | refused _ _ up => exact up
    | closed _ _ up => exact up
  | elsewhere event =>
    obtain ⟨whole, other⟩ := spares
    obtain ⟨broker', disk', next⟩ := @step_running config wire.platform broker disk event
      whole other
    refine ⟨broker', disk', ?_⟩
    simp only [Session.step, up]
    exact next

end Turns

/-! ## Whole runs -/

/-- The part of an activity that the receiving end sees. -/
def Activity.onReceiver : Activity → List Framing.Event
  | .chunk bytes => [.chunk bytes]
  | .hangUp => [.hangUp]
  | .turn _ => [.turn]
  | .elsewhere _ => []

/-- The part of a run that the receiving end sees. -/
def onReceiver (activities : List Activity) : List Framing.Event :=
  activities.flatMap Activity.onReceiver

/-- If the activity is a turn that reads a payload, the payload is answerable. -/
def Answers (wire : Wire) (s : Session) (activity : Activity) : Prop :=
  ∀ env payload broker disk, activity = .turn env → s.system = .running broker disk →
    (s.receiver.advance maxMessage).1 = .received payload →
      Answerable wire env { broker, disk } payload

section Runs

variable {config : Config} {wire : Wire} {s : Session} {activities : List Activity}

theorem extracted_cons (activity : Activity) (report : Report) (trace : List (Activity × Report)) :
    extracted ((activity, report) :: trace) = report.payload?.toList ++ extracted trace := by
  unfold extracted
  rw [List.filterMap_cons]
  cases report.payload? <;> rfl

theorem replies_cons (activity : Activity) (report : Report) (trace : List (Activity × Report)) :
    replies ((activity, report) :: trace) = report.reply?.toList ++ replies trace := by
  unfold replies
  rw [List.filterMap_cons]
  cases report.reply? <;> rfl

/-- A step is one of the receiver, or it drops the connection over a payload. -/
theorem Session.step_simulates {activity : Activity} (up : s.Up) :
    Answers wire s activity ∧
        (s.step config wire activity).2.receiver =
          Trace.after (Receiver.step maxMessage) s.receiver activity.onReceiver ∧
        (s.step config wire activity).1.payload?.toList =
          received (Trace.trace (Receiver.step maxMessage) s.receiver activity.onReceiver) ∨
      ¬Answers wire s activity ∧ ∃ payload, (∃ env m, ¬Answerable wire env m payload) ∧
        (s.step config wire activity).1 = .dropped payload ∧
        received (Trace.trace (Receiver.step maxMessage) s.receiver activity.onReceiver) =
          [payload] ∧
        (s.step config wire activity).2.receiver.phase = .abandoned := by
  obtain ⟨broker, disk, up⟩ := up
  cases activity with
  | chunk bytes =>
    refine Or.inl ⟨?_, ?_, ?_⟩
    · intro env payload broker disk isTurn
      cases isTurn
    · simp only [Session.step, Activity.onReceiver, Trace.after, Receiver.step]
    · simp [Session.step, Activity.onReceiver, Trace.trace, Receiver.step, received,
        Signal.payload?, Report.payload?]
  | hangUp =>
    refine Or.inl ⟨?_, ?_, ?_⟩
    · intro env payload broker disk isTurn
      cases isTurn
    · simp only [Session.step, Activity.onReceiver, Trace.after, Receiver.step]
    · simp [Session.step, Activity.onReceiver, Trace.trace, Receiver.step, received,
        Signal.payload?, Report.payload?]
  | elsewhere event =>
    refine Or.inl ⟨?_, ?_, ?_⟩
    · intro env payload broker disk isTurn
      cases isTurn
    · simp only [Session.step, Activity.onReceiver, Trace.after]
    · simp [Session.step, Activity.onReceiver, received, Report.payload?]
  | turn env =>
    have turn := @step_turn config wire env broker disk s up
    generalize s.step config wire (.turn env) = next at turn ⊢
    have shown : received (Trace.trace (Receiver.step maxMessage) s.receiver
        (Activity.turn env).onReceiver) =
          (s.receiver.advance maxMessage).1.payload?.toList := by
      show received [(Framing.Event.turn, (s.receiver.advance maxMessage).1)] = _
      rw [received_cons]
      exact List.append_nil _
    have unread {signal : Signal} (taken : (s.receiver.advance maxMessage).1 = signal)
        (other : signal.payload? = none) : Answers wire s (.turn env) := by
      rintro env' payload broker' disk' - - reads
      rw [taken.symm.trans reads] at other
      cases other
    rw [shown]
    cases turn with
    | waited silent receiver written up =>
      exact Or.inl ⟨unread rfl silent, receiver, by rw [silent]; rfl⟩
    | replied taken answerable malformed sendable receiver written up' =>
      refine Or.inl ⟨?_, receiver, by rw [taken]; rfl⟩
      rintro env' payload broker' disk' same position reads
      cases same
      cases up.symm.trans position
      cases taken.symm.trans reads
      exact answerable
    | dropped taken unanswerable phase up' =>
      refine Or.inr ⟨fun answers => ?_, _, ⟨_, _, unanswerable⟩, rfl, by rw [taken]; rfl, phase⟩
      exact unanswerable (answers env _ broker disk rfl up taken)
    | refused taken receiver up => exact Or.inl ⟨unread taken rfl, receiver, by rw [taken]; rfl⟩
    | closed taken receiver up => exact Or.inl ⟨unread taken rfl, receiver, by rw [taken]; rfl⟩

/-- A connection that has ended does not go on. -/
theorem Session.step_of_final (final : s.receiver.phase.final = true) (activity : Activity) :
    (s.step config wire activity).1 = .nothing ∧
      (s.step config wire activity).2.receiver.phase = s.receiver.phase := by
  cases activity with
  | chunk bytes => exact ⟨rfl, s.receiver.phase_arrive bytes⟩
  | hangUp => exact ⟨rfl, rfl⟩
  | elsewhere event => exact ⟨rfl, rfl⟩
  | turn env =>
    have same : s.step config wire (.turn env) = (.nothing, s) := by
      obtain ⟨receiver, written, system⟩ := s
      have stopped : receiver.advance maxMessage = (.idle, receiver) :=
        Receiver.advance_of_final _ final
      cases system with
      | running broker disk => simp only [Session.step, handleConnection, stopped]
      | stopped disk => rfl
    rw [same]
    exact ⟨rfl, rfl⟩

theorem Session.run_of_final (final : s.receiver.phase.final = true) :
    (Trace.after (Session.step config wire) s activities).receiver.phase = s.receiver.phase ∧
      extracted (Trace.trace (Session.step config wire) s activities) = [] := by
  induction activities generalizing s with
  | nil => exact ⟨rfl, rfl⟩
  | cons activity later ih =>
    obtain ⟨silent, phase⟩ := @step_of_final config wire s final activity
    obtain ⟨stays, rest⟩ := @ih (s.step config wire activity).2 (by rw [phase]; exact final)
    refine ⟨stays.trans phase, ?_⟩
    rw [Trace.trace, extracted_cons, silent, rest]
    rfl

/-- **As long as nothing is dropped, a connection reads what its receiver reads.** -/
theorem Session.simulates (up : s.Up) (spares : ∀ activity ∈ activities, activity.Spares)
    (answers : Trace.EachStep (Session.step config wire) s (fun _ s a => Answers wire s a)
      activities) :
    (Trace.after (Session.step config wire) s activities).receiver =
        Trace.after (Receiver.step maxMessage) s.receiver (onReceiver activities) ∧
      extracted (Trace.trace (Session.step config wire) s activities) =
        received (Trace.trace (Receiver.step maxMessage) s.receiver (onReceiver activities)) := by
  induction activities generalizing s with
  | nil => exact ⟨rfl, rfl⟩
  | cons activity later ih =>
    rcases @step_simulates config wire s activity up with ⟨-, receiver, payload⟩ | ⟨fails, -⟩
    · obtain ⟨receivers, payloads⟩ := ih (up.step (spares activity List.mem_cons_self))
        (fun a inside => spares a (List.mem_cons_of_mem _ inside)) answers.tail
      rw [receiver] at receivers payloads
      have split : onReceiver (activity :: later) = activity.onReceiver ++ onReceiver later := rfl
      refine ⟨?_, ?_⟩
      · rw [Trace.after_cons, split, Trace.after_append, receivers]
      · rw [Trace.trace, extracted_cons, split, Trace.trace_append, payload, payloads]
        unfold received
        rw [List.filterMap_append]
    · exact absurd answers.head fails

/-- A connection reads no payload that its receiver would not read. -/
theorem Session.extracted_isPrefix (up : s.Up) (spares : ∀ activity ∈ activities, activity.Spares) :
    extracted (Trace.trace (Session.step config wire) s activities) <+:
      received (Trace.trace (Receiver.step maxMessage) s.receiver (onReceiver activities)) := by
  induction activities generalizing s with
  | nil => exact List.prefix_rfl
  | cons activity later ih =>
    have split : onReceiver (activity :: later) = activity.onReceiver ++ onReceiver later := rfl
    have parted : received (Trace.trace (Receiver.step maxMessage) s.receiver
        (onReceiver (activity :: later))) =
          received (Trace.trace (Receiver.step maxMessage) s.receiver activity.onReceiver) ++
            received (Trace.trace (Receiver.step maxMessage) (Trace.after
              (Receiver.step maxMessage) s.receiver activity.onReceiver) (onReceiver later)) := by
      rw [split, Trace.trace_append]
      exact List.filterMap_append
    rw [Trace.trace, extracted_cons, parted]
    rcases @step_simulates config wire s activity up with
      ⟨-, receiver, payload⟩ | ⟨-, payload, -, dropped, read, phase⟩
    · have rest := @ih (s.step config wire activity).2
        (up.step (spares activity List.mem_cons_self))
        fun a inside => spares a (List.mem_cons_of_mem _ inside)
      rw [receiver] at rest
      rw [payload]
      exact (List.prefix_append_right_inj _).mpr rest
    · -- nothing is read after the drop
      have rest := (@run_of_final config wire (s.step config wire activity).2 later
        (by rw [phase]; rfl)).2
      rw [dropped, read, rest]
      exact ⟨_, rfl⟩

/-- What is known of a run at whose end the connection is open. -/
structure Attended (config : Config) (wire : Wire) (s : Session) (activities : List Activity) :
    Prop where
  answers : Trace.EachStep (Session.step config wire) s (fun _ s a => Answers wire s a) activities
  extracted_eq : extracted (Trace.trace (Session.step config wire) s activities) =
    (replies (Trace.trace (Session.step config wire) s activities)).map Prod.fst
  written_eq : (Trace.after (Session.step config wire) s activities).written =
    s.written ++ frames ((replies (Trace.trace (Session.step config wire) s activities)).map
      fun reply => wire.encoded reply.2)
  sendable : ∀ reply ∈ replies (Trace.trace (Session.step config wire) s activities),
    wire.Sendable reply.2
  malformed : ∀ reply ∈ replies (Trace.trace (Session.step config wire) s activities),
    Malformed wire reply.1 → reply.2 = errorReply "Invalid JSON"

/-- A step after which the connection is open. -/
theorem Session.step_of_open {activity : Activity} (up : s.Up)
    (isOpen : (s.step config wire activity).2.receiver.phase.final = false) :
    Answers wire s activity ∧
      (s.step config wire activity).1.payload?.toList =
        (s.step config wire activity).1.reply?.toList.map Prod.fst ∧
      (s.step config wire activity).2.written = s.written ++
        frames ((s.step config wire activity).1.reply?.toList.map fun reply =>
          wire.encoded reply.2) ∧
      ∀ reply ∈ (s.step config wire activity).1.reply?.toList,
        wire.Sendable reply.2 ∧
          (Malformed wire reply.1 → reply.2 = errorReply "Invalid JSON") := by
  have answers : Answers wire s activity := by
    rcases @step_simulates config wire s activity up with
      ⟨answers, -⟩ | ⟨-, payload, -, -, -, phase⟩
    · exact answers
    · rw [phase] at isOpen
      cases isOpen
  refine ⟨answers, ?_⟩
  obtain ⟨broker, disk, up⟩ := up
  cases activity with
  | chunk bytes => simp [Session.step, Report.payload?, Report.reply?]
  | hangUp => simp [Session.step, Report.payload?, Report.reply?]
  | elsewhere event => simp [Session.step, Report.payload?, Report.reply?]
  | turn env =>
    have turn := @step_turn config wire env broker disk s up
    generalize s.step config wire (.turn env) = next at turn isOpen ⊢
    cases turn with
    | waited silent receiver written up => simp [Report.payload?, Report.reply?, written]
    | replied taken answerable malformed sendable receiver written up =>
      refine ⟨rfl, by simp [Report.reply?, written], ?_⟩
      intro reply inside
      obtain rfl := List.mem_singleton.mp inside
      exact ⟨sendable, malformed⟩
    | dropped taken unanswerable phase up =>
      rw [phase] at isOpen
      cases isOpen
    | refused taken receiver up =>
      rw [receiver, Receiver.final_advance (by rw [taken]; rfl)] at isOpen
      cases isOpen
    | closed taken receiver up =>
      rw [receiver, Receiver.final_advance (by rw [taken]; rfl)] at isOpen
      cases isOpen

/-- **A connection that is open has answered everything it has read.** -/
theorem Session.attended_of_open (up : s.Up) (spares : ∀ activity ∈ activities, activity.Spares)
    (isOpen : (Trace.after (Session.step config wire) s activities).receiver.phase.final = false) :
    Attended config wire s activities := by
  induction activities generalizing s with
  | nil => exact ⟨fun front e back split => by simp at split, rfl, by simp [replies], nofun, nofun⟩
  | cons activity later ih =>
    rw [Trace.after_cons] at isOpen
    -- if the step had ended the connection, it would still be ended
    have still : (s.step config wire activity).2.receiver.phase.final = false := by
      by_contra ended
      rw [Bool.not_eq_false] at ended
      rw [(run_of_final ended).1, ended] at isOpen
      cases isOpen
    obtain ⟨answers, read, written, replied⟩ := step_of_open up still
    have rest := ih (up.step (spares activity List.mem_cons_self))
      (fun a inside => spares a (List.mem_cons_of_mem _ inside)) isOpen
    have parted : replies (Trace.trace (Session.step config wire) s (activity :: later)) =
        (s.step config wire activity).1.reply?.toList ++
          replies
            (Trace.trace (Session.step config wire) (s.step config wire activity).2 later) :=
      replies_cons _ _ _
    refine ⟨?_, ?_, ?_, ?_, ?_⟩
    · exact Trace.EachStep.cons answers rest.answers
    · rw [parted, Trace.trace, extracted_cons, read, rest.extracted_eq, List.map_append]
    · rw [parted, Trace.after_cons, rest.written_eq, written, List.map_append, frames_append,
        List.append_assoc]
    · intro reply inside
      rw [parted] at inside
      rcases List.mem_append.mp inside with now | later
      · exact (replied reply now).1
      · exact rest.sendable reply later
    · intro reply inside
      rw [parted] at inside
      rcases List.mem_append.mp inside with now | later
      · exact (replied reply now).2
      · exact rest.malformed reply later

end Runs

end DistroSync
