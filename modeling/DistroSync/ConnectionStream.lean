import DistroSync.HandleConnection

/-!
# The stream of a connection

What a client can rely on when it sends frames over a connection and reads the replies.

The frames are cut right: a connection never reads anything but the payloads that were
sent, in their order, and never one that is not complete (`extracted_isPrefix`).  A client
that reads what was written gets the replies that were sent (`Wire.reads_of_sendable`).

Whether all the payloads are read is another matter.  A payload that is not answerable
ends the connection: it has no reply, and the frames behind it are never read.  This
includes a payload whose reply cannot be written, and then the command was done.  So there
is one reply for each request exactly if every payload is answerable when its turn comes
(`oneResponsePerRequest_iff`), and all the payloads are read exactly if every one but the
last is (`framesRead_iff`).
-/

namespace DistroSync

open Keyed Py Framing

/-! ## The client's end -/

/-- A client accepts every length that four bytes can say. -/
def clientLimit : Nat := 2 ^ 32 - 1

theorem clientLimit_lt : clientLimit < 2 ^ 32 := by decide

/-- A client that reads a stream of replies, in any chunks, is left with the texts of these,
and `json.loads` makes of a text the reply that it was written from, unless that is nested too
deeply to be read. -/
def Wire.Reads (wire : Wire) (written : Bytes) (data : List Json) : Prop :=
  ∀ early late : List Framing.Event, arrived (early ++ late) = written →
    (∀ bytes, .chunk bytes ∉ late) → 2 * data.length + 2 ≤ turns late →
      List.Forall₂ (fun value payload => payload = wire.encoded value ∧
          (value.depth ≤ wire.readDepth → wire.parse payload = .value value))
        data (received (Trace.trace (Receiver.step clientLimit) {} (early ++ late)))

/-- **A client reads what was written for it.** -/
theorem Wire.reads_of_sendable {wire : Wire} {data : List Json}
    (sendable : ∀ value ∈ data, wire.Sendable value) :
    wire.Reads (frames (data.map wire.encoded)) data := by
  intro early late stream quiet enough
  have small : ∀ payload ∈ data.map wire.encoded, payload.length ≤ clientLimit := by
    intro payload inside
    obtain ⟨value, isValue, rfl⟩ := List.mem_map.mp inside
    exact Nat.le_pred_of_lt (sendable value isValue).2
  have nothing : Stuck clientLimit [] := stuck_of_short (by decide)
  have whole : arrived (early ++ late) = frames (data.map wire.encoded) ++ [] := by
    rw [stream, List.append_nil]
  have turned : 2 * (data.map wire.encoded).length + 2 ≤ turns late := by
    rwa [List.length_map]
  rw [received_eq clientLimit_lt small nothing whole (Receiver.feeds_eq_nil _ quiet) turned,
    List.forall₂_map_right_iff, List.forall₂_same]
  intro value _
  exact ⟨rfl, parse_encoded⟩

/-! ## Runs in which a stream arrives -/

theorem maxMessage_lt : maxMessage < 2 ^ 32 := by decide

/-- The stream arrives, in any chunks, and then the connection gets turns enough to read it.
Meanwhile the process does not die. -/
structure Arrives (payloads : List Bytes) (tail : Bytes) (early late : List Activity) : Prop where
  small : ∀ payload ∈ payloads, payload.length ≤ maxMessage
  stream : arrived (onReceiver (early ++ late)) = frames payloads ++ tail
  quiet : ∀ bytes, .chunk bytes ∉ late
  enough : 2 * payloads.length + 2 ≤ turns (onReceiver late)
  spares : ∀ activity ∈ early ++ late, activity.Spares

section Runs

variable {config : Config} {wire : Wire} {broker : Broker} {disk : Database}
variable {payloads : List Bytes} {tail : Bytes} {early late activities : List Activity}

/-- A connection that is up stays up while nothing ends it. -/
theorem Session.Up.after {s : Session} (up : s.Up)
    (spares : ∀ activity ∈ activities, activity.Spares) :
    (Trace.after (Session.step config wire) s activities).Up := by
  induction activities generalizing s with
  | nil => exact up
  | cons activity later ih =>
    exact ih (up.step (spares activity List.mem_cons_self))
      fun a inside => spares a (List.mem_cons_of_mem _ inside)

/-- Where a payload is not answerable, the run of the connection ends. -/
theorem Session.extracted_of_drop {s : Session} {front back : List Activity} {activity : Activity}
    (up : s.Up) (spares : ∀ a ∈ front ++ activity :: back, a.Spares)
    (fails : ¬Answers wire (Trace.after (Session.step config wire) s front) activity) :
    (∃ payload, (∃ env m, ¬Answerable wire env m payload) ∧
        extracted (Trace.trace (Session.step config wire) s (front ++ activity :: back)) =
          extracted (Trace.trace (Session.step config wire) s front) ++ [payload]) ∧
      (Trace.after (Session.step config wire) s
        (front ++ activity :: back)).receiver.phase = .abandoned := by
  have upFront : (Trace.after (Session.step config wire) s front).Up :=
    up.after fun a inside => spares a (List.mem_append_left _ inside)
  rw [Trace.trace_append, Trace.after_append, Trace.after_cons]
  generalize Trace.after (Session.step config wire) s front = t at fails upFront ⊢
  rcases @step_simulates config wire t activity upFront with
    ⟨answers, -⟩ | ⟨-, payload, unanswerable, dropped, -, phase⟩
  · exact absurd answers fails
  · obtain ⟨stays, nothing⟩ := @run_of_final config wire (t.step config wire activity).2 back
      (by rw [phase]; rfl)
    refine ⟨⟨payload, unanswerable, ?_⟩, stays.trans phase⟩
    show List.filterMap _ (_ ++ _) = _
    rw [List.filterMap_append]
    congr 1
    show extracted ((activity, (t.step config wire activity).1) ::
      Trace.trace (Session.step config wire) (t.step config wire activity).2 back) = [payload]
    rw [extracted_cons, dropped, nothing]
    rfl

theorem onReceiver_append (first second : List Activity) :
    onReceiver (first ++ second) = onReceiver first ++ onReceiver second :=
  List.flatMap_append

/-- The receiver sees a chunk or the end of the stream only if there was one. -/
theorem mem_onReceiver {event : Framing.Event} (inside : event ∈ onReceiver activities) :
    ∃ activity ∈ activities, event ∈ activity.onReceiver := List.mem_flatMap.mp inside

theorem Arrives.quiet_onReceiver (arrives : Arrives payloads tail early late) (bytes : Bytes) :
    .chunk bytes ∉ onReceiver late := by
  intro inside
  obtain ⟨activity, isLate, shown⟩ := mem_onReceiver inside
  cases activity with
  | chunk other => exact arrives.quiet other isLate
  | hangUp => simp [Activity.onReceiver] at shown
  | turn env => simp [Activity.onReceiver] at shown
  | elsewhere event => simp [Activity.onReceiver] at shown

/-- The receiver by itself reads the payloads. -/
theorem Arrives.received_eq (arrives : Arrives payloads tail early late)
    (stuck : Stuck maxMessage tail) :
    received (Trace.trace (Receiver.step maxMessage) {} (onReceiver (early ++ late))) =
      payloads := by
  have stream := arrives.stream
  rw [onReceiver_append] at stream ⊢
  exact Framing.received_eq maxMessage_lt arrives.small stuck stream
    (Receiver.feeds_eq_nil _ arrives.quiet_onReceiver) arrives.enough

/-- **A connection reads only what was sent**, whatever happens. -/
theorem Arrives.extracted_isPrefix (arrives : Arrives payloads tail early late)
    (stuck : Stuck maxMessage tail) :
    extracted (Trace.trace (Session.step config wire) { system := .running broker disk }
      (early ++ late)) <+: payloads := by
  have reads := @Session.extracted_isPrefix config wire { system := .running broker disk }
    (early ++ late) ⟨broker, disk, rfl⟩ arrives.spares
  rwa [arrives.received_eq stuck] at reads

/-! ## One response for each request -/

/-- The `status` of a reply. -/
def statusOf : Json → Json
  | .obj fields => Message.get fields "status" .null
  | _ => .null

/-- Every request has its reply, the client reads the replies in the order of the requests, a
malformed request gets an error, and the connection waits for the next frame. -/
structure OneResponsePerRequest (config : Config) (wire : Wire) (s : Session)
    (payloads : List Bytes) (activities : List Activity) : Prop where
  answered : (replies (Trace.trace (Session.step config wire) s activities)).map Prod.fst =
    payloads
  written : (Trace.after (Session.step config wire) s activities).written =
    frames ((replies (Trace.trace (Session.step config wire) s activities)).map
      fun reply => wire.encoded reply.2)
  reads : wire.Reads (Trace.after (Session.step config wire) s activities).written
    ((replies (Trace.trace (Session.step config wire) s activities)).map Prod.snd)
  malformed : ∀ reply ∈ replies (Trace.trace (Session.step config wire) s activities),
    Malformed wire reply.1 → statusOf reply.2 = .str "error"
  connected : (Trace.after (Session.step config wire) s activities).receiver.phase = .header ∧
    (Trace.after (Session.step config wire) s activities).receiver.ended = false

theorem not_hangUp_onReceiver (connected : .hangUp ∉ activities) :
    .hangUp ∉ onReceiver activities := by
  intro inside
  obtain ⟨activity, isActivity, shown⟩ := mem_onReceiver inside
  cases activity with
  | chunk bytes => simp [Activity.onReceiver] at shown
  | hangUp => exact connected isActivity
  | turn env => simp [Activity.onReceiver] at shown
  | elsewhere event => simp [Activity.onReceiver] at shown

/-- Where every payload is answerable, the connection is open at the end. -/
theorem Arrives.open_of_answers (arrives : Arrives payloads [] early late)
    (connected : .hangUp ∉ early ++ late)
    (answers : Trace.EachStep (Session.step config wire) { system := .running broker disk }
      (fun _ s a => Answers wire s a) (early ++ late)) :
    (Trace.after (Session.step config wire) { system := .running broker disk }
        (early ++ late)).receiver.phase = .header ∧
      (Trace.after (Session.step config wire) { system := .running broker disk }
        (early ++ late)).receiver.ended = false := by
  have start : ({} : Receiver).Valid maxMessage := trivial
  obtain ⟨same, -⟩ := Session.simulates ⟨broker, disk, rfl⟩ arrives.spares answers
  rw [same]
  have remains : (Trace.after (Receiver.step maxMessage) {} (onReceiver (early ++ late))).ended =
      false := Receiver.ended_after (not_hangUp_onReceiver connected)
  have account := accounts maxMessage {} (onReceiver (early ++ late))
  rw [show ({} : Receiver).residue = [] from rfl, List.nil_append,
    show ({} : Receiver).feeds (onReceiver (early ++ late)) =
      arrived (onReceiver (early ++ late)) from rfl,
    arrives.stream, arrives.received_eq (stuck_of_short (by decide))] at account
  have empty := (List.append_cancel_left account).symm
  exact ⟨((start.after maxMessage_lt).waits remains empty).1, remains⟩

/-- **One response for each request**, exactly if every payload that the connection reads is
answerable in the state that its turn finds. -/
theorem oneResponsePerRequest_iff (arrives : Arrives payloads [] early late)
    (connected : .hangUp ∉ early ++ late) :
    OneResponsePerRequest config wire { system := .running broker disk } payloads
        (early ++ late) ↔
      Trace.EachStep (Session.step config wire) { system := .running broker disk }
        (fun _ s a => Answers wire s a) (early ++ late) := by
  have up : ({ system := .running broker disk } : Session).Up := ⟨broker, disk, rfl⟩
  constructor
  · intro holds
    have isOpen : (Trace.after (Session.step config wire) { system := .running broker disk }
        (early ++ late)).receiver.phase.final = false := by
      rw [holds.connected.1]
      rfl
    exact (Session.attended_of_open up arrives.spares isOpen).answers
  · intro answers
    obtain ⟨waits, remains⟩ := arrives.open_of_answers connected answers
    have attended := Session.attended_of_open up arrives.spares (by rw [waits]; rfl)
    obtain ⟨-, reads⟩ := Session.simulates up arrives.spares answers
    have written := attended.written_eq
    rw [List.nil_append] at written
    refine ⟨?_, written, ?_, fun reply inside malformed => ?_, waits, remains⟩
    · rw [← attended.extracted_eq, reads]
      exact arrives.received_eq (stuck_of_short (by decide))
    · rw [written]
      have split : (replies (Trace.trace (Session.step config wire)
          { system := .running broker disk } (early ++ late))).map
            (fun reply => wire.encoded reply.2) =
          ((replies (Trace.trace (Session.step config wire) { system := .running broker disk }
            (early ++ late))).map Prod.snd).map wire.encoded := by
        rw [List.map_map]
        rfl
      rw [split]
      refine Wire.reads_of_sendable fun value inside => ?_
      obtain ⟨reply, isReply, rfl⟩ := List.mem_map.mp inside
      exact attended.sendable reply isReply
    · rw [attended.malformed reply inside malformed]
      rfl

/-- Payloads that are answerable in every state are answerable when their turns come. -/
theorem Arrives.answers_of_forall (arrives : Arrives payloads tail early late)
    (stuck : Stuck maxMessage tail)
    (answerable : ∀ payload ∈ payloads, ∀ env m, Answerable wire env m payload) :
    Trace.EachStep (Session.step config wire) { system := .running broker disk }
      (fun _ s a => Answers wire s a) (early ++ late) := by
  intro front activity back split
  have up : ({ system := .running broker disk } : Session).Up := ⟨broker, disk, rfl⟩
  have spares := arrives.spares
  have isPrefix := @Arrives.extracted_isPrefix config wire broker disk _ _ _ _ arrives stuck
  rw [split] at spares isPrefix
  by_contra fails
  obtain ⟨⟨payload, ⟨env, m, unanswerable⟩, reads⟩, -⟩ := Session.extracted_of_drop up spares fails
  refine unanswerable (answerable payload (isPrefix.subset ?_) env m)
  rw [reads]
  exact List.mem_append_right _ List.mem_cons_self

/-! ## All the payloads are read -/

/-- What can follow the last whole frame of a stream: a part of another one, or a length
above the limit with anything behind it. -/
def Rest (tail : Bytes) : Prop :=
  Truncated tail ∨ ∃ length rest, maxMessage < length ∧ length < 2 ^ 32 ∧
    tail = toBytes 4 length ++ rest

theorem Rest.stuck (rest : Rest tail) : Stuck maxMessage tail := by
  rcases rest with truncated | ⟨length, rest, above, small, rfl⟩
  · exact truncated.stuck maxMessage_lt
  · exact stuck_of_oversized small above

/-- The payloads of the stream are read, those and no others; what is no UTF-8 or no JSON gets
its reply; what the two clients and `_send_response` write are frames, and a client reads what
`_send_response` wrote. -/
structure FramesRead (config : Config) (wire : Wire) (s : Session) (payloads : List Bytes)
    (activities : List Activity) : Prop where
  extracted_eq : extracted (Trace.trace (Session.step config wire) s activities) = payloads
  invalid : ∀ entry ∈ Trace.trace (Session.step config wire) s activities, ∀ payload,
    entry.2.payload? = some payload → wire.parse payload = .invalid →
      entry.2 = .replied payload (errorReply "Invalid JSON")
  requests : ∀ data, wire.Writable wire.requestDepth data →
    wire.producerSend data = some (frame (wire.encoded data)) ∧
      wire.workerSend data = some (frame (wire.encoded data))
  responses : ∀ data, wire.Sendable data →
    wire.sendResponse data = some (frame (wire.encoded data))
  reads : ∀ data : List Json, (∀ value ∈ data, wire.Sendable value) →
    ∃ written, data.mapM wire.sendResponse = some written ∧ wire.Reads written.flatten data

theorem Wire.mapM_sendResponse {wire : Wire} {data : List Json}
    (sendable : ∀ value ∈ data, wire.Sendable value) :
    data.mapM wire.sendResponse = some (data.map fun value => frame (wire.encoded value)) := by
  induction data with
  | nil => rfl
  | cons value rest ih =>
    have first : wire.sendResponse value = some (frame (wire.encoded value)) :=
      sendResponse_of_sendable (sendable value List.mem_cons_self)
    have later : ∀ value ∈ rest, wire.Sendable value :=
      fun value inside => sendable value (List.mem_cons_of_mem _ inside)
    rw [List.mapM_cons, first, ih later]
    rfl

/-- The client reads the responses back, one frame each. -/
theorem Wire.reads_sendResponse {wire : Wire} {data : List Json}
    (sendable : ∀ value ∈ data, wire.Sendable value) :
    ∃ written, data.mapM wire.sendResponse = some written ∧ wire.Reads written.flatten data := by
  refine ⟨_, mapM_sendResponse sendable, ?_⟩
  have joined : (data.map fun value => frame (wire.encoded value)).flatten =
      frames (data.map wire.encoded) := by
    unfold frames
    rw [List.flatMap_map]
    rfl
  rw [joined]
  exact reads_of_sendable sendable

/-- The loop answers what is no UTF-8 or no JSON, and goes on. -/
theorem Session.replied_of_invalid {s : Session} {entry : Activity × Report} {payload : Bytes}
    (up : s.Up) (spares : ∀ activity ∈ activities, activity.Spares)
    (logged : entry ∈ Trace.trace (Session.step config wire) s activities)
    (read : entry.2.payload? = some payload) (invalid : wire.parse payload = .invalid) :
    entry.2 = .replied payload (errorReply "Invalid JSON") := by
  obtain ⟨activity, report⟩ := entry
  obtain ⟨before, later, split⟩ := List.append_of_mem logged
  obtain ⟨front, back, rfl, -, shown⟩ := Trace.trace_split _ _ split
  obtain ⟨broker, disk, upFront⟩ : (Trace.after (Session.step config wire) s front).Up :=
    up.after fun a inside => spares a (List.mem_append_left _ inside)
  generalize Trace.after (Session.step config wire) s front = t at upFront shown
  simp only at shown read ⊢
  subst shown
  cases activity with
  | chunk bytes => cases read
  | hangUp => cases read
  | elsewhere event => cases read
  | turn env =>
    have turn := @step_turn config wire env broker disk t upFront
    generalize t.step config wire (.turn env) = next at turn read ⊢
    cases turn with
    | waited => cases read
    | refused => cases read
    | closed => cases read
    | replied taken answerable malformed =>
      cases read
      rw [malformed fun message isObject => by simp [invalid] at isObject]
    | dropped taken unanswerable =>
      cases read
      refine absurd ?_ unanswerable
      unfold Answerable
      rw [invalid]
      trivial

/-- **All the payloads are read** exactly if every one but the last is answerable in the state
that its turn finds. -/
theorem framesRead_iff (arrives : Arrives payloads tail early late) (rest : Rest tail) :
    FramesRead config wire { system := .running broker disk } payloads (early ++ late) ↔
      Trace.EachStep (Session.step config wire) { system := .running broker disk }
        (fun front s a => Answers wire s a ∨
          (extracted (Trace.trace (Session.step config wire) { system := .running broker disk }
            front)).length + 1 = payloads.length) (early ++ late) := by
  have up : ({ system := .running broker disk } : Session).Up := ⟨broker, disk, rfl⟩
  have isPrefix := @Arrives.extracted_isPrefix config wire broker disk _ _ _ _ arrives rest.stuck
  have spares := arrives.spares
  constructor
  · intro holds front activity back split
    by_contra neither
    obtain ⟨fails, early⟩ := not_or.mp neither
    have extracted_eq := holds.extracted_eq
    rw [split] at spares extracted_eq
    obtain ⟨⟨payload, -, reads⟩, -⟩ := Session.extracted_of_drop up spares fails
    rw [reads] at extracted_eq
    exact early (by rw [← extracted_eq, List.length_append, List.length_singleton])
  · intro condition
    refine ⟨?_, fun entry logged payload => Session.replied_of_invalid up spares logged,
      fun data writable => ?_, fun data => Wire.sendResponse_of_sendable,
      fun data => Wire.reads_sendResponse⟩
    · by_cases answers : Trace.EachStep (Session.step config wire)
        { system := .running broker disk } (fun _ s a => Answers wire s a) (early ++ late)
      · exact (Session.simulates up spares answers).2.trans (arrives.received_eq rest.stuck)
      · -- the connection ended at a payload; by the condition there were no more than this one
        obtain ⟨front, activity, back, split, fails⟩ : ∃ front activity back,
            early ++ late = front ++ activity :: back ∧
              ¬Answers wire (Trace.after (Session.step config wire)
                { system := .running broker disk } front) activity := by
          simpa only [Trace.EachStep, not_forall, exists_prop] using answers
        have last := (condition front activity back split).resolve_left fails
        rw [split] at spares isPrefix ⊢
        obtain ⟨⟨payload, -, reads⟩, -⟩ := Session.extracted_of_drop up spares fails
        refine isPrefix.eq_of_length ?_
        rw [reads, List.length_append, List.length_singleton, last]
    · exact ⟨Wire.framed_of_writable writable, Wire.framed_of_writable writable⟩

/-! ## Streams that end a connection, and streams that do not -/

/-- A list, which has no `get`. -/
def listPayload : Bytes := Wire.plain.encoded (.arr [])

/-- A heartbeat without its worker. -/
def anonymousHeartbeat : Bytes := Wire.plain.encoded (.obj [("command", .str "HEARTBEAT")])

/-- Turns enough for three frames. -/
def readTurns : List Activity := List.replicate 8 (.turn (.at 1))

/-- A stream of at most three frames that arrives in one chunk. -/
theorem arrives_atOnce (small : ∀ payload ∈ payloads, payload.length ≤ maxMessage)
    (few : payloads.length ≤ 3) :
    Arrives payloads tail [.chunk (frames payloads ++ tail)] readTurns where
  small := small
  stream := by
    rw [onReceiver_append]
    show (frames payloads ++ tail) ++ [] = _
    exact List.append_nil _
  quiet := by simp [readTurns]
  enough := by
    have counted : turns (onReceiver readTurns) = 8 := rfl
    omega
  spares := by simp [readTurns, Activity.Spares]

/-- The broker right after its start. -/
theorem started : ∃ broker disk,
    reach { persistent := false } .plain [.at 0 .start] = .running broker disk := by
  obtain ⟨broker, disk, position, -⟩ := @System.of_passes (fun _ _ => true)
    (reach { persistent := false } .plain [.at 0 .start]) (by decide +kernel)
  exact ⟨broker, disk, position⟩

/-- **A list ends the connection**, and has no reply. -/
theorem list_has_no_reply :
    ∃ broker disk, reach { persistent := false } .plain [.at 0 .start] = .running broker disk ∧
      Arrives [listPayload] [] [.chunk (frames [listPayload] ++ [])] readTurns ∧
      ¬OneResponsePerRequest { persistent := false } .plain { system := .running broker disk }
        [listPayload] ([.chunk (frames [listPayload] ++ [])] ++ readTurns) := by
  obtain ⟨broker, disk, position⟩ := started
  refine ⟨broker, disk, position, arrives_atOnce (by decide +kernel) (by decide), ?_⟩
  have silent : (replies (Trace.trace (Session.step { persistent := false } .plain)
      { system := reach { persistent := false } .plain [.at 0 .start] }
      ([.chunk (frames [listPayload] ++ [])] ++ readTurns))).map Prod.fst = [] := by
    decide +kernel
  rw [position] at silent
  intro holds
  cases silent.symm.trans holds.answered

/-- **The frame behind a list is never read.** -/
theorem frame_behind_list_unread :
    ∃ broker disk, reach { persistent := false } .plain [.at 0 .start] = .running broker disk ∧
      Arrives [listPayload, anonymousHeartbeat] []
        [.chunk (frames [listPayload, anonymousHeartbeat] ++ [])] readTurns ∧
      ¬FramesRead { persistent := false } .plain { system := .running broker disk }
        [listPayload, anonymousHeartbeat]
        ([.chunk (frames [listPayload, anonymousHeartbeat] ++ [])] ++ readTurns) := by
  obtain ⟨broker, disk, position⟩ := started
  refine ⟨broker, disk, position, arrives_atOnce (by decide +kernel) (by decide), ?_⟩
  have only : extracted (Trace.trace (Session.step { persistent := false } .plain)
      { system := reach { persistent := false } .plain [.at 0 .start] }
      ([.chunk (frames [listPayload, anonymousHeartbeat] ++ [])] ++ readTurns)) =
        [listPayload] := by
    decide +kernel
  rw [position] at only
  intro holds
  cases only.symm.trans holds.extracted_eq

/-- Bytes that are no UTF-8 are answered in every state, and so is a heartbeat that names no
worker. -/
theorem answerable_harmless (env : Env) (m : Machine) :
    ∀ payload ∈ [[0xff], anonymousHeartbeat], Answerable .plain env m payload := by
  have invalid : Wire.plain.parse [0xff] = .invalid := by
    have noText : decode [0xff] = none := by decide +kernel
    unfold Wire.parse
    rw [noText]
  have parsed : Wire.plain.parse anonymousHeartbeat =
      .value (.obj [("command", .str "HEARTBEAT")]) := Wire.parse_encoded (by decide)
  have replied : dispatch .plain env [("command", .str "HEARTBEAT")] m =
      .ok (.error "Missing 'worker_id' field") m := rfl
  intro payload inside
  simp only [List.mem_cons, List.not_mem_nil, or_false] at inside
  rcases inside with rfl | rfl
  · unfold Answerable
    rw [invalid]
    trivial
  · unfold Answerable
    rw [parsed]
    refine ⟨?_, fun response m' returned => ?_⟩
    · rintro (⟨-, unhashable⟩ | ⟨command, named, raises⟩)
      · cases unhashable
      · cases named
        cases raises.1
    · cases replied.symm.trans returned
      decide +kernel

theorem oneResponsePerRequest_iff_answered :
    ∃ broker disk, reach { persistent := false } .plain [.at 0 .start] = .running broker disk ∧
      OneResponsePerRequest { persistent := false } .plain { system := .running broker disk }
        [[0xff], anonymousHeartbeat]
        ([.chunk (frames [[0xff], anonymousHeartbeat] ++ [])] ++ readTurns) := by
  obtain ⟨broker, disk, position⟩ := started
  have arrives : Arrives [[0xff], anonymousHeartbeat] []
      [.chunk (frames [[0xff], anonymousHeartbeat] ++ [])] readTurns :=
    arrives_atOnce (by decide +kernel) (by decide)
  refine ⟨broker, disk, position, (oneResponsePerRequest_iff arrives ?_).mpr ?_⟩
  · simp [readTurns]
  · exact arrives.answers_of_forall (stuck_of_short (by decide))
      fun payload inside env m => answerable_harmless env m payload inside

/-- The stream ends inside a prefix. -/
theorem framesRead_iff_cutOff :
    ∃ broker disk, reach { persistent := false } .plain [.at 0 .start] = .running broker disk ∧
      FramesRead { persistent := false } .plain { system := .running broker disk }
        [[0xff], anonymousHeartbeat]
        ([.chunk (frames [[0xff], anonymousHeartbeat] ++ [0, 0])] ++ readTurns) := by
  obtain ⟨broker, disk, position⟩ := started
  have arrives : Arrives [[0xff], anonymousHeartbeat] [0, 0]
      [.chunk (frames [[0xff], anonymousHeartbeat] ++ [0, 0])] readTurns :=
    arrives_atOnce (by decide +kernel) (by decide)
  have rest : Rest [0, 0] := Or.inl ⟨[], by decide, 2, by decide, rfl⟩
  refine ⟨broker, disk, position, (framesRead_iff arrives rest).mpr ?_⟩
  have answers : Trace.EachStep (Session.step { persistent := false } .plain)
      { system := .running broker disk } (fun _ s a => Answers .plain s a)
      ([.chunk (frames [[0xff], anonymousHeartbeat] ++ [0, 0])] ++ readTurns) :=
    arrives.answers_of_forall rest.stuck
      fun payload inside env m => answerable_harmless env m payload inside
  exact answers.mono fun _ _ _ holds => Or.inl holds

end Runs

end DistroSync
