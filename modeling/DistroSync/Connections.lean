import DistroSync.ConnectionStream
import DistroSync.Lib.Projection

/-!
# Many connections

The server runs `handle_connection` once for every connection, and the loops take turns: at
every `await` another one may go on.  All of them work on the same queues, but each reads and
writes a stream of its own.

To its clients the server is a single desk that serves one request at a time
(`Request.serve`).  In every run there is an order of the requests, namely the order in which
their turns came, such that the queues, the registry and the store are what they are after
serving the requests in this order, and every client reads the answers to its own requests,
in the order in which it sent them.

Each connection sees such a run as a run of its own `Session`, in which the turns of the
others are events elsewhere; so what is known of a single connection holds of each.
-/

namespace DistroSync

open Keyed Py Framing

/-! ## Requests, one at a time -/

/-- The command in a payload. -/
def Wire.command? (wire : Wire) (env : Env) (payload : Bytes) : Option Event :=
  match wire.parse payload with
  | .value (.obj message) => some { action := .command message, env }
  | _ => none

/-- What is answered to a payload, if anything, and the system afterwards. -/
def answer (config : Config) (wire : Wire) (env : Env) (system : System) (payload : Bytes) :
    Option Json × System :=
  match wire.parse payload with
  | .invalid => (some (errorReply "Invalid JSON"), system)
  | .raised => (none, system)
  | .value (.obj message) =>
    match step config wire.platform system { action := .command message, env } with
    | (.answered response, system) =>
      if wire.Sendable (response.toJson wire) then
        (some (response.toJson wire), system)
      else (none, system)
    | (_, system) => (none, system)
  | .value _ => (none, system)

universe u

/-- What is brought to the desk. -/
inductive Request (ι : Type u) where
  | ask (connection : ι) (env : Env) (payload : Bytes)
  /-- A pass of the eviction loop, or an event of the dashboard. -/
  | background (event : Event)

/-- The desk. -/
def Request.serve {ι : Type u} (config : Config) (wire : Wire) (system : System) :
    Request ι → Option Json × System
  | .ask _ env payload => answer config wire env system payload
  | .background event => (none, (step config wire.platform system event).2)

/-- The event of a request. -/
def Request.event? {ι : Type u} (wire : Wire) : Request ι → Option Event
  | .ask _ env payload => wire.command? env payload
  | .background event => some event

/-- The requests of a connection, with the answers. -/
def exchanges {ι : Type u} [DecidableEq ι] (i : ι) (log : List (Request ι × Option Json)) :
    List (Bytes × Option Json) :=
  log.flatMap fun entry =>
    match entry.1 with
    | .ask j _ payload => if j = i then [(payload, entry.2)] else []
    | .background _ => []

/-! ## A turn of one connection -/

/-- The payload that was read, with what was answered. -/
def Report.exchange? : Report → Option (Bytes × Option Json)
  | .replied payload data => some (payload, some data)
  | .dropped payload => some (payload, none)
  | _ => none

/-- The loop has ended: the `finally` clause runs. -/
def Report.ends : Report → Bool
  | .dropped _ => true
  | .refused _ _ => true
  | .closed => true
  | _ => false

/-- The payload that a turn reads. -/
def Session.reading (s : Session) : Option Bytes :=
  match s.system with
  | .running _ _ => (s.receiver.advance maxMessage).1.payload?
  | .stopped _ => none

section Turns

variable {config : Config} {wire : Wire} {env : Env} {payload : Bytes}

/-- An answer changes the system by its command. -/
theorem answer_system (system : System) :
    (answer config wire env system payload).2 =
      Trace.after (step config wire.platform) system (wire.command? env payload).toList := by
  unfold answer Wire.command?
  cases wire.parse payload with
  | invalid => rfl
  | raised => rfl
  | value value =>
    cases value with
    | obj message =>
      dsimp only [Option.toList, Trace.after]
      generalize step config wire.platform system { action := .command message, env } = next
      obtain ⟨outcome, system'⟩ := next
      cases outcome with
      | answered response =>
        dsimp only
        split_ifs <;> rfl
      | _ => rfl
    | _ => rfl

/-- The desk's system is that of a broker that receives the commands one after the other. -/
theorem Request.after_serve {ι : Type u} (system : System) (requests : List (Request ι)) :
    Trace.after (Request.serve config wire) system requests =
      Trace.after (step config wire.platform) system
        (requests.filterMap (Request.event? wire)) := by
  induction requests generalizing system with
  | nil => rfl
  | cons request rest ih =>
    have first : (request.serve config wire system).2 =
        Trace.after (step config wire.platform) system (request.event? wire).toList := by
      cases request with
      | ask j env payload => exact answer_system system
      | background event => rfl
    rw [Trace.after_cons, ih, first, ← Trace.after_append, List.filterMap_cons]
    cases request.event? wire <;> rfl

/-- The loop writes the answer, or drops the connection. -/
theorem Session.serve_eq (s : Session) :
    s.serve config wire env payload =
      match (answer config wire env s.system payload).1 with
      | some data =>
        (.replied payload data,
          { s with
            system := (answer config wire env s.system payload).2
            written := s.written ++ frame (wire.encoded data) })
      | none => { s with system := (answer config wire env s.system payload).2 }.drop payload := by
  unfold serve answer
  cases wire.parse payload with
  | invalid => exact respond_of_sendable Wire.sendable_invalid
  | raised => rfl
  | value value =>
    cases value with
    | obj message =>
      dsimp only
      generalize DistroSync.step config wire.platform s.system
        { action := .command message, env } = next
      obtain ⟨outcome, system'⟩ := next
      cases outcome with
      | answered response =>
        dsimp only
        by_cases sendable : wire.Sendable (response.toJson wire)
        · rw [if_pos sendable, respond_of_sendable sendable]
        · rw [if_neg sendable, respond_of_not_sendable sendable]
      | _ => rfl
    | _ => rfl

/-- The signals of a receiver that are no payload. -/
theorem Session.turn_of_unread {s : Session} (unread : s.reading = none) :
    (s.step config wire (.turn env)).1.exchange? = none ∧
      (s.step config wire (.turn env)).2.system = s.system := by
  obtain ⟨receiver, written, system⟩ := s
  cases system with
  | stopped disk => exact ⟨rfl, rfl⟩
  | running broker disk =>
    change (receiver.advance maxMessage).1.payload? = none at unread
    simp only [Session.step, handleConnection]
    generalize receiver.advance maxMessage = advanced at unread ⊢
    obtain ⟨signal, receiver'⟩ := advanced
    cases signal with
    | received payload => cases unread
    | oversized length =>
      simp only [refuse]
      split <;> exact ⟨rfl, rfl⟩
    | _ => exact ⟨rfl, rfl⟩

theorem Session.turn_of_reading {s : Session} (reads : s.reading = some payload) :
    s.step config wire (.turn env) =
      { s with receiver := (s.receiver.advance maxMessage).2 }.serve config wire env payload := by
  obtain ⟨receiver, written, system⟩ := s
  cases system with
  | stopped disk => cases reads
  | running broker disk =>
    change (receiver.advance maxMessage).1.payload? = some payload at reads
    simp only [Session.step, handleConnection]
    generalize receiver.advance maxMessage = advanced at reads ⊢
    obtain ⟨signal, receiver'⟩ := advanced
    cases signal with
    | received other =>
      cases reads
      rfl
    | _ => cases reads

/-- **A turn is what the desk does with the payload that is read.** -/
theorem Session.turn_exchange (s : Session) :
    (s.step config wire (.turn env)).1.exchange? =
        s.reading.map (fun payload => (payload, (answer config wire env s.system payload).1)) ∧
      (s.step config wire (.turn env)).2.system =
        s.reading.elim s.system fun payload => (answer config wire env s.system payload).2 := by
  cases reads : s.reading with
  | none => exact turn_of_unread reads
  | some payload =>
    rw [turn_of_reading reads, serve_eq]
    show _ = some (payload, (answer config wire env s.system payload).1) ∧
      _ = (answer config wire env s.system payload).2
    dsimp only
    generalize answer config wire env s.system payload = answered
    obtain ⟨data, system'⟩ := answered
    cases data <;> exact ⟨rfl, rfl⟩

/-- A loop has ended exactly if one of its turns said so. -/
theorem Session.turn_final (s : Session) :
    (s.step config wire (.turn env)).2.receiver.phase.final =
      (s.receiver.phase.final || (s.step config wire (.turn env)).1.ends) := by
  obtain ⟨receiver, written, system⟩ := s
  cases system with
  | stopped disk => exact (Bool.or_false _).symm
  | running broker disk =>
    have stops := receiver.final_advance_eq maxMessage
    cases reads : Session.reading ⟨receiver, written, .running broker disk⟩ with
    | some payload =>
      rw [turn_of_reading reads, serve_eq]
      change (receiver.advance maxMessage).1.payload? = some payload at reads
      have going : (receiver.advance maxMessage).1.stops = false := by
        cases signal : (receiver.advance maxMessage).1 <;> rw [signal] at reads <;>
          first | rfl | cases reads
      rw [going] at stops
      dsimp only
      generalize answer config wire env (.running broker disk) payload = answered
      obtain ⟨data, system'⟩ := answered
      cases data with
      | some data => exact stops
      | none => exact (Bool.or_true _).symm
    | none =>
      change (receiver.advance maxMessage).1.payload? = none at reads
      simp only [Session.step, handleConnection]
      generalize receiver.advance maxMessage = advanced at reads stops ⊢
      obtain ⟨signal, receiver'⟩ := advanced
      cases signal with
      | received payload => cases reads
      | oversized length =>
        simp only [refuse]
        split <;> exact stops
      | cutOff => exact stops
      | idle => exact stops
      | announced length => exact stops

end Turns

/-! ## The server -/

/-- One of the connections: the two directions of its stream, and whether its loop was started. -/
structure Peer where
  receiver : Receiver := {}
  written : Bytes := []
  accepted : Bool := false

/-- Its loop is running. -/
def Peer.isOpen (peer : Peer) : Bool := peer.accepted && !peer.receiver.phase.final

/-- `BrokerServer`, with its connections. -/
structure BrokerServer (ι : Type u) where
  system : System
  peers : ι → Peer := fun _ => {}
  activeConnections : Int := 0

namespace BrokerServer

variable {ι : Type u}

/-- A server that runs and has no connection yet. -/
def listening (broker : Broker) (disk : Database) : BrokerServer ι :=
  { system := .running broker disk }

/-- What can happen to the server. -/
inductive Event (ι : Type u) where
  /-- `handle_connection` is started for a new connection. -/
  | accept (i : ι)
  | chunk (i : ι) (bytes : Bytes)
  | hangUp (i : ι)
  /-- The loop of the connection gets a turn. -/
  | turn (i : ι) (env : Env)
  /-- The eviction loop or the dashboard gets a turn. -/
  | background (event : DistroSync.Event)

/-- The event neither ends the process nor severs a connection. -/
def Event.Spares : Event ι → Prop
  | .background event =>
    event.crashIn = none ∧ event.action ≠ .crash ∧ ∀ pick, event.action ≠ .crashWorker pick
  | _ => True

/-- The connection and the system it works on. -/
def session (server : BrokerServer ι) (i : ι) : Session where
  receiver := (server.peers i).receiver
  written := (server.peers i).written
  system := server.system

variable [DecidableEq ι]

/-- A connection has changed, and the system with it. -/
def update (server : BrokerServer ι) (i : ι) (session : Session) : BrokerServer ι :=
  { server with
    system := session.system
    peers := Function.update server.peers i
      { server.peers i with receiver := session.receiver, written := session.written } }

/-- The start of `handle_connection`. -/
def accept (server : BrokerServer ι) (i : ι) : BrokerServer ι :=
  if (server.peers i).accepted then server
  else
    { server with
      peers := Function.update server.peers i { server.peers i with accepted := true }
      activeConnections := server.activeConnections + 1 }

/-- A turn of a loop that was started, and its `finally` clause if the loop ends. -/
def handleConnection (config : Config) (wire : Wire) (env : Env) (server : BrokerServer ι) (i : ι) :
    Report × BrokerServer ι :=
  if (server.peers i).accepted then
    let (report, session) := (server.session i).step config wire (.turn env)
    (report,
      { server.update i session with
        activeConnections := server.activeConnections - if report.ends then 1 else 0 })
  else (.nothing, server)

/-- One event. -/
def step (config : Config) (wire : Wire) (server : BrokerServer ι) :
    Event ι → Report × BrokerServer ι
  | .accept i => (.nothing, server.accept i)
  | .chunk i bytes =>
    (.nothing, server.update i ((server.session i).step config wire (.chunk bytes)).2)
  | .hangUp i => (.nothing, server.update i ((server.session i).step config wire .hangUp).2)
  | .turn i env => server.handleConnection config wire env i
  | .background event =>
    (.nothing,
      { server with system := (DistroSync.step config wire.platform server.system event).2 })

/-- The requests that an event brings to the desk. -/
def requestOf (server : BrokerServer ι) : Event ι → List (Request ι)
  | .turn i env =>
    if (server.peers i).accepted then
      ((server.session i).reading.map fun payload => .ask i env payload).toList
    else []
  | .background event => [.background event]
  | _ => []

/-- The requests of a run, in the order of their turns. -/
def requests (config : Config) (wire : Wire) (server : BrokerServer ι) (events : List (Event ι)) :
    List (Request ι) :=
  Trace.project (step config wire) requestOf server events

/-- What a connection sees of an event. -/
def activityOf (wire : Wire) (i : ι) (server : BrokerServer ι) : Event ι → List Activity
  | .accept _ => []
  | .chunk j bytes => if j = i then [.chunk bytes] else []
  | .hangUp j => if j = i then [.hangUp] else []
  | .turn j env =>
    if (server.peers j).accepted then
      if j = i then [.turn env]
      else ((server.session j).reading.bind (wire.command? env)).toList.map .elsewhere
    else []
  | .background event => [.elsewhere event]

/-- What a connection sees of a run. -/
def activities (config : Config) (wire : Wire) (i : ι) (server : BrokerServer ι)
    (events : List (Event ι)) : List Activity :=
  Trace.project (step config wire) (activityOf wire i) server events

/-- The exchange of a connection in an event. -/
def exchangeOf (i : ι) (entry : Event ι × Report) : List (Bytes × Option Json) :=
  match entry.1 with
  | .turn j _ => if j = i then entry.2.exchange?.toList else []
  | _ => []

section Views

variable {config : Config} {wire : Wire} (server : BrokerServer ι) (i : ι)

theorem peers_update_self (session : Session) :
    (server.update i session).peers i =
      { server.peers i with receiver := session.receiver, written := session.written } :=
  Function.update_self ..

theorem peers_update_of_ne {j : ι} (other : i ≠ j) (session : Session) :
    (server.update j session).peers i = server.peers i :=
  Function.update_of_ne other ..

theorem session_update_self (session : Session) :
    (server.update i session).session i = session := by
  unfold BrokerServer.session
  rw [peers_update_self]
  rfl

theorem session_update_of_ne {j : ι} (other : i ≠ j) (session : Session) :
    (server.update j session).session i = { server.session i with system := session.system } := by
  unfold BrokerServer.session
  rw [peers_update_of_ne server i other]
  rfl

/-- A loop that is started finds its stream as it is. -/
theorem session_accept (j : ι) : (server.accept j).session i = server.session i := by
  unfold accept
  split_ifs with accepted
  · rfl
  · unfold BrokerServer.session
    by_cases same : i = j
    · subst same
      dsimp only
      rw [Function.update_self]
    · dsimp only
      rw [Function.update_of_ne same]

/-- A turn of a loop that was started. -/
theorem handleConnection_of_accepted {env : Env} (accepted : (server.peers i).accepted = true) :
    server.handleConnection config wire env i =
      (((server.session i).step config wire (.turn env)).1,
        { server.update i ((server.session i).step config wire (.turn env)).2 with
          activeConnections := server.activeConnections -
            if ((server.session i).step config wire (.turn env)).1.ends then 1 else 0 }) :=
  if_pos accepted

/-- A loop that was not started gets no turn. -/
theorem handleConnection_of_waiting {env : Env} (waiting : ¬(server.peers i).accepted = true) :
    server.handleConnection config wire env i = (.nothing, server) := if_neg waiting

/-- The system is left as the desk leaves it. -/
theorem after_requestOf (event : Event ι) :
    Trace.after (Request.serve config wire) server.system (server.requestOf event) =
      (server.step config wire event).2.system := by
  cases event with
  | accept j => exact (congrArg Session.system (server.session_accept j j)).symm
  | chunk j bytes => rfl
  | hangUp j => rfl
  | background event => rfl
  | turn j env =>
    show _ = (server.handleConnection config wire env j).2.system
    by_cases accepted : (server.peers j).accepted = true
    · obtain ⟨-, system⟩ := @Session.turn_exchange config wire env (server.session j)
      rw [handleConnection_of_accepted server j accepted,
        show server.requestOf (.turn j env) = _ from if_pos accepted]
      show _ = ((server.session j).step config wire (.turn env)).2.system
      rw [system]
      cases (server.session j).reading <;> rfl
    · rw [handleConnection_of_waiting server j accepted,
        show server.requestOf (.turn j env) = _ from if_neg accepted]
      rfl

/-- **The server is a desk.** -/
theorem shows_requests (event : Event ι) :
    Trace.Shows (step config wire) (Request.serve config wire) system requestOf (exchangeOf i)
      (fun entry => exchanges i [entry]) server event := by
  refine ⟨server.after_requestOf event, ?_⟩
  cases event with
  | accept j => rfl
  | chunk j bytes => rfl
  | hangUp j => rfl
  | background event => rfl
  | turn j env =>
    show _ =
      if j = i then (server.handleConnection config wire env j).1.exchange?.toList else []
    by_cases accepted : (server.peers j).accepted = true
    · obtain ⟨exchange, -⟩ := @Session.turn_exchange config wire env (server.session j)
      rw [handleConnection_of_accepted server j accepted,
        show server.requestOf (.turn j env) = _ from if_pos accepted]
      dsimp only
      rw [exchange]
      cases (server.session j).reading with
      | none => split_ifs <;> rfl
      | some payload =>
        show ((if j = i then [_] else []) ++ []) ++ [] = _
        split_ifs <;> rfl
    · rw [handleConnection_of_waiting server j accepted,
        show server.requestOf (.turn j env) = _ from if_neg accepted]
      split_ifs <;> rfl

/-- Something arrives at a connection, which only this connection sees. -/
theorem session_feed {j : ι} {activity : Activity}
    (silent : ((server.session j).step config wire activity).1.exchange? = none)
    (same : ((server.session j).step config wire activity).2.system = server.system) :
    Trace.after (Session.step config wire) (server.session i) (if j = i then [activity] else []) =
        (server.update j ((server.session j).step config wire activity).2).session i ∧
      (Trace.trace (Session.step config wire) (server.session i)
        (if j = i then [activity] else [])).flatMap (fun entry => entry.2.exchange?.toList) =
      [] := by
  split_ifs with own
  · subst own
    refine ⟨(server.session_update_self j _).symm, ?_⟩
    show Option.toList _ ++ [] = []
    rw [silent]
    rfl
  · rw [session_update_of_ne server i (Ne.symm own), same]
    exact ⟨rfl, rfl⟩

/-- **A connection has a session of its own.** -/
theorem shows_session (event : Event ι) :
    Trace.Shows (step config wire) (Session.step config wire) (fun server => server.session i)
      (activityOf wire i) (exchangeOf i) (fun entry => entry.2.exchange?.toList) server event := by
  cases event with
  | accept j => exact ⟨(server.session_accept i j).symm, rfl⟩
  | background event => exact ⟨rfl, rfl⟩
  | chunk j bytes =>
    obtain ⟨ends, silent⟩ := @session_feed ι _ config wire server i j (.chunk bytes) rfl rfl
    exact ⟨ends, silent⟩
  | hangUp j =>
    obtain ⟨ends, silent⟩ := @session_feed ι _ config wire server i j .hangUp rfl rfl
    exact ⟨ends, silent⟩
  | turn j env =>
    by_cases accepted : (server.peers j).accepted = true
    · have turns := @handleConnection_of_accepted ι _ config wire server j env accepted
      by_cases own : j = i
      · subst own
        have sees : server.activityOf wire j (.turn j env) = [.turn env] := by
          simp only [activityOf, accepted, if_true]
        refine ⟨?_, ?_⟩
        · show _ = (server.handleConnection config wire env j).2.session j
          rw [sees, turns]
          exact (server.session_update_self j _).symm
        · show _ =
            if j = j then (server.handleConnection config wire env j).1.exchange?.toList else []
          rw [sees, turns, if_pos rfl]
          exact List.append_nil _
      · have sees : server.activityOf wire i (.turn j env) =
            ((server.session j).reading.bind (wire.command? env)).toList.map .elsewhere := by
          simp only [activityOf, accepted, own, if_true, if_false]
        obtain ⟨-, system⟩ := @Session.turn_exchange config wire env (server.session j)
        -- the turn of another connection is its command
        have ends : ((server.session j).step config wire (.turn env)).2.system =
            Trace.after (DistroSync.step config wire.platform) server.system
              ((server.session j).reading.bind (wire.command? env)).toList := by
          rw [system]
          cases (server.session j).reading with
          | none => rfl
          | some payload => exact answer_system _
        refine ⟨?_, ?_⟩
        · show _ = (server.handleConnection config wire env j).2.session i
          rw [sees, turns]
          refine Eq.trans ?_ (server.session_update_of_ne i (Ne.symm own) _).symm
          rw [ends]
          cases (server.session j).reading.bind (wire.command? env) <;> rfl
        · show _ =
            if j = i then (server.handleConnection config wire env j).1.exchange?.toList else []
          rw [sees, if_neg own]
          cases (server.session j).reading.bind (wire.command? env) <;> rfl
    · have sees : server.activityOf wire i (.turn j env) = [] := if_neg accepted
      have waits := @handleConnection_of_waiting ι _ config wire server j env accepted
      refine ⟨?_, ?_⟩
      · show _ = (server.handleConnection config wire env j).2.session i
        rw [waits, sees]
        rfl
      · show _ =
          if j = i then (server.handleConnection config wire env j).1.exchange?.toList else []
        rw [waits, sees]
        split_ifs <;> rfl

end Views

end BrokerServer

/-! ## Counting the connections -/

namespace BrokerServer

section Count

variable {ι : Type u} [Fintype ι] {config : Config} {wire : Wire} {server : BrokerServer ι}

/-- The number of loops that are running. -/
def openConnections (server : BrokerServer ι) : Nat :=
  (Finset.univ.filter fun i => (server.peers i).isOpen = true).card

/-- What the counter stands for. -/
structure Counted (server : BrokerServer ι) : Prop where
  active : server.activeConnections = server.openConnections
  unstarted : ∀ i, (server.peers i).accepted = false →
    (server.peers i).receiver.phase.final = false

/-- One connection has changed, and the counter by what that means. -/
theorem Counted.change (counted : server.Counted) {next : BrokerServer ι} {i : ι} {peer : Peer}
    (others : ∀ j, j ≠ i → next.peers j = server.peers j) (own : next.peers i = peer)
    (active : next.activeConnections = server.activeConnections +
      ((if peer.isOpen then 1 else 0) - if (server.peers i).isOpen then 1 else 0))
    (unstarted : peer.accepted = false → peer.receiver.phase.final = false) : next.Counted := by
  subst own
  refine ⟨?_, fun j waiting => ?_⟩
  · have difference : (next.openConnections : Int) - server.openConnections =
        ∑ j, (((if (next.peers j).isOpen then 1 else 0) -
          if (server.peers j).isOpen then 1 else 0 : Int)) := by
      unfold openConnections
      rw [Finset.sum_sub_distrib, Finset.natCast_card_filter, Finset.natCast_card_filter]
    rw [Finset.sum_eq_single i (fun j _ other => by rw [others j other, sub_self])
      (fun outside => absurd (Finset.mem_univ i) outside)] at difference
    rw [active, counted.active]
    omega
  · by_cases own : j = i
    · subst own
      exact unstarted waiting
    · rw [others j own] at waiting ⊢
      exact counted.unstarted j waiting

/-- **The counter is right after every event.** -/
theorem Counted.step [DecidableEq ι] (counted : server.Counted) (event : Event ι) :
    (server.step config wire event).2.Counted := by
  cases event with
  | background event => exact ⟨counted.active, counted.unstarted⟩
  | chunk i bytes =>
    have phase := (server.peers i).receiver.phase_arrive bytes
    refine counted.change (fun j other => server.peers_update_of_ne j other _)
      (server.peers_update_self i _) ?_ ?_
    · unfold Peer.isOpen
      show server.activeConnections = _ + ((if (_ &&
        !((server.peers i).receiver.arrive bytes).phase.final) = true then 1 else 0) - _)
      rw [phase, sub_self, add_zero]
    · intro waiting
      show ((server.peers i).receiver.arrive bytes).phase.final = false
      rw [phase]
      exact counted.unstarted i waiting
  | hangUp i =>
    refine counted.change (fun j other => server.peers_update_of_ne j other _)
      (server.peers_update_self i _) ?_ (counted.unstarted i)
    unfold Peer.isOpen
    show server.activeConnections = _ +
      ((if (_ && !(server.peers i).receiver.phase.final) = true then 1 else 0) - _)
    rw [sub_self, add_zero]
  | accept i =>
    show (server.accept i).Counted
    unfold accept
    split_ifs with accepted
    · exact counted
    · have waiting : (server.peers i).accepted = false := by simpa using accepted
      have going := counted.unstarted i waiting
      refine counted.change (fun j other => Function.update_of_ne other ..)
        (Function.update_self ..) ?_ nofun
      simp [Peer.isOpen, waiting, going]
  | turn i env =>
    show (server.handleConnection config wire env i).2.Counted
    by_cases accepted : (server.peers i).accepted = true
    · rw [handleConnection_of_accepted server i accepted]
      refine counted.change (fun j other => server.peers_update_of_ne j other _)
        (server.peers_update_self i _) ?_ ?_
      · have final := @Session.turn_final config wire env (server.session i)
        have quiet := fun ended =>
          (@Session.step_of_final config wire (server.session i) ended (.turn env)).1
        unfold Peer.isOpen
        dsimp only
        rw [final, accepted]
        show _ = _ +
          ((if (true && !((server.peers i).receiver.phase.final || _)) = true then 1 else 0) - _)
        -- a loop that has ended is not counted again
        cases ended : (server.peers i).receiver.phase.final with
        | true =>
          rw [quiet ended]
          rfl
        | false =>
          cases ((server.session i).step config wire (.turn env)).1.ends <;> rfl
      · intro waiting
        cases accepted.symm.trans waiting
    · rw [handleConnection_of_waiting server i accepted]
      exact counted

theorem Counted.run [DecidableEq ι] (counted : server.Counted) (events : List (Event ι)) :
    (Trace.after (BrokerServer.step config wire) server events).Counted := by
  induction events generalizing server with
  | nil => exact counted
  | cons event rest ih => exact ih (counted.step event)

end Count

/-! ## Whole runs -/

section Runs

variable {ι : Type u} [DecidableEq ι] {config : Config} {wire : Wire} {server : BrokerServer ι}
  {events : List (Event ι)} {i : ι}

/-- The bytes that arrive at a connection. -/
def arrivedAt (i : ι) (events : List (Event ι)) : Bytes :=
  arrived (events.flatMap fun event =>
    match event with
    | .chunk j bytes => if j = i then [.chunk bytes] else []
    | .hangUp j => if j = i then [.hangUp] else []
    | _ => [])

/-- A connection sees the bytes that arrive at it. -/
theorem arrived_activities (server : BrokerServer ι) (events : List (Event ι)) :
    arrived (onReceiver (activities config wire i server events)) = arrivedAt i events := by
  unfold activities arrivedAt
  induction events generalizing server with
  | nil => rfl
  | cons event rest ih =>
    have rest := ih (server.step config wire event).2
    rw [Trace.project, onReceiver_append, List.flatMap_cons]
    cases event with
    | accept j => exact rest
    | background event => exact rest
    | chunk j bytes =>
      by_cases own : j = i
      · subst own
        simp only [activityOf, if_true]
        exact congrArg (bytes ++ ·) rest
      · simp only [activityOf, own, if_false]
        exact rest
    | hangUp j =>
      by_cases own : j = i
      · simp only [activityOf, own, if_true]
        rfl
      · simp only [activityOf, own, if_false]
        exact rest
    | turn j env =>
      simp only [activityOf]
      split_ifs
      · exact rest
      · cases (server.session j).reading.bind (wire.command? env) <;> exact rest
      · exact rest

/-- Who spares the process spares it in every view. -/
theorem spares_activities (spares : ∀ event ∈ events, event.Spares) :
    ∀ activity ∈ activities config wire i server events, activity.Spares := by
  intro activity inside
  obtain ⟨t, event, isEvent, seen⟩ := Trace.mem_project inside
  have spared := spares event isEvent
  cases event with
  | accept j => cases seen
  | background event =>
    obtain rfl := List.mem_singleton.mp seen
    exact ⟨spared.1, spared.2.1⟩
  | chunk j bytes =>
    simp only [activityOf] at seen
    split_ifs at seen
    · obtain rfl := List.mem_singleton.mp seen
      trivial
    · cases seen
  | hangUp j =>
    simp only [activityOf] at seen
    split_ifs at seen
    · obtain rfl := List.mem_singleton.mp seen
      trivial
    · cases seen
  | turn j env =>
    simp only [activityOf] at seen
    split_ifs at seen
    · obtain rfl := List.mem_singleton.mp seen
      trivial
    · obtain ⟨command, isCommand, rfl⟩ := List.mem_map.mp seen
      obtain ⟨payload, -, parsed⟩ := Option.bind_eq_some_iff.mp (Option.mem_toList.mp isCommand)
      unfold Wire.command? at parsed
      split at parsed
      · cases parsed
        exact ⟨rfl, nofun⟩
      · cases parsed
    · cases seen

/-- **The exchanges at the desk are those of the connection's own session.** -/
theorem exchanges_requests :
    exchanges i (Trace.trace (Request.serve config wire) server.system
        (requests config wire server events)) =
      (Trace.trace (Session.step config wire) (server.session i)
          (activities config wire i server events)).flatMap
        fun entry => entry.2.exchange?.toList := by
  have desk := @Trace.project_trace _ _ _ _ _ _ _ _ _ _ _ (exchangeOf i)
    (fun entry => exchanges i [entry]) server events
    fun front event back _ => @shows_requests ι _ config wire (Trace.after _ server front) i event
  have own := @Trace.project_trace _ _ _ _ _ _ _ _ _ _ _ (exchangeOf i)
    (fun entry : Activity × Report => entry.2.exchange?.toList) server events
    fun front event back _ => @shows_session ι _ config wire (Trace.after _ server front) i event
  refine Eq.trans ?_ (desk.trans own.symm)
  unfold exchanges
  refine List.flatMap_congr fun entry _ => ?_
  exact (List.append_nil _).symm

theorem extracted_eq_exchanges (trace : List (Activity × Report)) :
    extracted trace =
      (trace.flatMap fun entry => entry.2.exchange?.toList).map Prod.fst := by
  induction trace with
  | nil => rfl
  | cons entry rest ih =>
    obtain ⟨activity, report⟩ := entry
    rw [extracted_cons, List.flatMap_cons, List.map_append, ih]
    cases report <;> rfl

theorem replies_eq_exchanges (trace : List (Activity × Report)) :
    replies trace = (trace.flatMap fun entry => entry.2.exchange?.toList).filterMap
      fun exchange => exchange.2.map fun data => (exchange.1, data) := by
  induction trace with
  | nil => rfl
  | cons entry rest ih =>
    obtain ⟨activity, report⟩ := entry
    rw [replies_cons, List.flatMap_cons, List.filterMap_append, ih]
    cases report <;> rfl

/-- If nothing was left without an answer, these are the answers. -/
theorem exchanges_of_answered {exchanged : List (Bytes × Option Json)}
    (all : exchanged.map Prod.fst = (exchanged.filterMap fun exchange =>
      exchange.2.map fun data => (exchange.1, data)).map Prod.fst) :
    exchanged = (exchanged.filterMap fun exchange =>
      exchange.2.map fun data => (exchange.1, data)).map fun reply => (reply.1, some reply.2) := by
  have lengths := congrArg List.length all
  rw [List.length_map, List.length_map] at lengths
  clear all
  induction exchanged with
  | nil => rfl
  | cons exchange rest ih =>
    obtain ⟨payload, data⟩ := exchange
    cases data with
    | none =>
      -- one of them would be left over
      have fewer : (rest.filterMap fun exchange =>
          exchange.2.map fun data => (exchange.1, data)).length ≤ rest.length :=
        List.length_filterMap_le ..
      rw [List.filterMap_cons_none rfl, List.length_cons] at lengths
      omega
    | some data =>
      exact congrArg ((payload, some data) :: ·) (ih (Nat.succ.inj lengths))

/-- The server has served its clients like a desk that takes one request at a time. -/
structure OneAtATime [Fintype ι] (config : Config) (wire : Wire) (start final : BrokerServer ι)
    (events : List (Event ι)) (requests : List (Request ι)) : Prop where
  /-- The system is what the desk leaves behind. -/
  system : final.system = Trace.after (Request.serve config wire) start.system requests
  /-- That is, what the broker is after the commands in this order. -/
  commands : final.system = Trace.after (DistroSync.step config wire.platform) start.system
    (requests.filterMap (Request.event? wire))
  /-- A client asks what it has sent, from the first frame on. -/
  asked : ∀ i payloads tail, (∀ payload ∈ payloads, payload.length ≤ maxMessage) →
    Stuck maxMessage tail → arrivedAt i events = frames payloads ++ tail →
      (exchanges i (Trace.trace (Request.serve config wire) start.system requests)).map Prod.fst <+:
        payloads
  /-- On a connection whose loop is running, the desk's answers are what was written: one for
  each request, in this order. -/
  answered : ∀ i, (final.peers i).receiver.phase.final = false → ∃ replies : List (Bytes × Json),
    exchanges i (Trace.trace (Request.serve config wire) start.system requests) =
        replies.map (fun reply => (reply.1, some reply.2)) ∧
      (final.peers i).written = frames (replies.map fun reply => wire.encoded reply.2)
  /-- `_active_connections` is the number of loops that are running. -/
  counted : final.activeConnections = final.openConnections

/-- **A server of many connections serves one request at a time.**  Let any number of clients
connect, send and disconnect, in any order and in any pieces, and let the loops take their turns
in any order.  As long as the process does not end, the broker is what it would be if the requests
had come one after the other, in the order of their turns; and every client is answered what it
would then have been answered, in the order of its own requests. -/
theorem served_one_at_a_time [Fintype ι] {broker : Broker} {disk : Database}
    (spares : ∀ event ∈ events, event.Spares) :
    OneAtATime config wire (listening broker disk)
      (Trace.after (step config wire) (listening broker disk) events) events
      (requests config wire (listening broker disk) events) := by
  generalize isStart : (listening broker disk : BrokerServer ι) = start
  have up (i : ι) : (start.session i).Up := by
    subst isStart
    exact ⟨broker, disk, rfl⟩
  have fresh (i : ι) : (start.session i).receiver = {} ∧ (start.session i).written = [] := by
    subst isStart
    exact ⟨rfl, rfl⟩
  have system : (Trace.after (step config wire) start events).system =
      Trace.after (Request.serve config wire) start.system (requests config wire start events) :=
    (Trace.project_after fun front event _ _ => after_requestOf _ event).symm
  have session (i : ι) : (Trace.after (step config wire) start events).session i =
      Trace.after (Session.step config wire) (start.session i)
        (activities config wire i start events) :=
    (@Trace.project_after _ _ _ _ _ _ _ _ (fun server => server.session i) _ start events
      fun front event _ _ => (shows_session _ i event).ends).symm
  refine ⟨system, system.trans (Request.after_serve _ _), ?_, ?_, ?_⟩
  · intro i payloads tail small stuck stream
    have reads := @Session.extracted_isPrefix config wire (start.session i)
      (activities config wire i start events) (up i) (spares_activities spares)
    rw [extracted_eq_exchanges, ← exchanges_requests, (fresh i).1] at reads
    refine reads.trans (received_isPrefix maxMessage_lt small stuck ⟨[], ?_⟩)
    rw [arrived_activities, stream, List.append_nil]
  · intro i going
    have attended := @Session.attended_of_open config wire (start.session i)
      (activities config wire i start events) (up i) (spares_activities spares)
      (by rw [← session]; exact going)
    have all := attended.extracted_eq
    have written := attended.written_eq
    rw [← session, (fresh i).2, List.nil_append] at written
    rw [extracted_eq_exchanges, replies_eq_exchanges, ← exchanges_requests] at all
    rw [replies_eq_exchanges, ← exchanges_requests] at written
    exact ⟨_, exchanges_of_answered all, written⟩
  · refine (Counted.run ?_ events).active
    subst isStart
    exact ⟨by simp [openConnections, Peer.isOpen, listening], fun i _ => rfl⟩

end Runs

/-- Two clients talk to the server at once; the frame of the first one comes in two pieces. -/
def twoClients : List (Event Bool) :=
  [.accept true, .chunk true ((frames [anonymousHeartbeat]).take 6), .accept false,
    .chunk false (frames [anonymousHeartbeat]), .turn true (.at 1), .turn false (.at 2),
    .turn true (.at 3), .turn false (.at 4), .background (.at 5 (.evict .insertion)),
    .chunk true ((frames [anonymousHeartbeat]).drop 6), .turn true (.at 6)]

/-- The second one is answered first, and both of them are connected at the end. -/
theorem served_one_at_a_time_two :
    ∃ broker disk, reach { persistent := false } .plain [.at 0 .start] = .running broker disk ∧
      OneAtATime { persistent := false } .plain (listening broker disk)
        (Trace.after (step { persistent := false } .plain) (listening broker disk) twoClients)
        twoClients (requests { persistent := false } .plain (listening broker disk)
          twoClients) := by
  obtain ⟨broker, disk, position⟩ := started
  refine ⟨broker, disk, position, ?_⟩
  apply served_one_at_a_time
  simp only [twoClients, List.mem_cons, List.not_mem_nil, or_false]
  rintro event (rfl | rfl | rfl | rfl | rfl | rfl | rfl | rfl | rfl | rfl | rfl) <;>
    first | trivial | exact ⟨rfl, nofun, nofun⟩

end BrokerServer

end DistroSync
