import DistroSync.Assignments
import DistroSync.HandleConnection
import DistroSync.ProducerClient

/-!
# A `produce` call and the broker

The retry loop of `ProducerClient.produce` against a broker that it shares with others.  The
connection loop of the broker reads the frames of the call one by one; before it gets to request
`n`, whatever else happens in the process happens (`Turns`).  What the loop writes is what the
client reads, so the responses of the call are those of a run of the broker
(`Turns.before_eq`).

The two ends agree on what was submitted.  A call that returns has put exactly one task into
the queue, with its last request, and knows its id; a call that raises has put none, and
neither has any request but the last (`submitted_once`).

A request that is lost on the way would break this, and there are several ways to lose one: it
is longer than the loop accepts, nested too deeply for `json.loads`, or the store cannot take
its queue name or its payload.  In the last case the handler raises when the task is already
in its queue, so that the call raises although it has submitted something.
-/

namespace DistroSync

open Keyed Py Exec Framing ProducerClient

/-! ## A frame and its reply -/

/-- The turns of `handle_connection` that read a frame and act on it.  The first one reads the
length, and goes no further if it is above the limit. -/
def Session.take (config : Config) (wire : Wire) (env : Env) (s : Session) (payload : Bytes) :
    Report × Session :=
  match { s with receiver := s.receiver.arrive (frame payload) }.handleConnection config wire
    env with
  | (.nothing, s') => s'.handleConnection config wire env
  | ended => ended

/-- A connection on which everything was read. -/
def Session.idle (system : System) : Session := { system }

/-- A frame that is not too long is read in two turns. -/
theorem Session.take_of_fits {config : Config} {wire : Wire} {env : Env} {system : System}
    {payload : Bytes} (fits : payload.length ≤ maxMessage) :
    (Session.idle system).take config wire env payload =
      (Session.idle system).serve config wire env payload := by
  have short : payload.length < 2 ^ 32 := by
    unfold maxMessage at fits
    omega
  have arrived : ({} : Receiver).arrive (frame payload) = { buffer := frame payload } := rfl
  have enough : 4 ≤ (frame payload).length := by
    rw [length_frame]
    omega
  have header : (frame payload).take 4 = toBytes 4 payload.length := by
    unfold frame
    exact List.take_left' (length_toBytes 4 _)
  have body : (frame payload).drop 4 = payload := by
    unfold frame
    exact List.drop_left' (length_toBytes 4 _)
  have announces : ({ buffer := frame payload } : Receiver).advance maxMessage =
      (.announced payload.length, { buffer := payload, phase := .body payload.length }) := by
    simp only [Receiver.advance, if_pos enough, header, body,
      @fromBytes_toBytes 4 payload.length short, if_neg (not_lt.mpr fits)]
  have receives : ({ buffer := payload, phase := .body payload.length } : Receiver).advance
      maxMessage = (.received payload, {}) := by
    simp [Receiver.advance]
  simp only [take, idle, arrived, handleConnection, announces, receives]

/-! ## The requests of a call -/

/-- When the broker gets to the requests of a call. -/
structure Turns where
  /-- What happens before request `n` gets its turn. -/
  others : Nat → List Event
  /-- What the handler of request `n` draws from outside. -/
  env : Nat → Env

namespace Turns

variable (config : Config) (wire : Wire) (turns : Turns) (system : System) (request : Message)

/-- Request `n`. -/
def event (n : Nat) : Event := { action := .command request, env := turns.env n }

/-- What the connection loop does with the request, in this state of the system. -/
def serve (n : Nat) (system : System) : Report × Session :=
  (Session.idle system).take config wire (turns.env n) (wire.encoded (.obj request))

/-- The system when request `n` gets its turn. -/
def before : Nat → System
  | 0 => Trace.after (step config wire.platform) system (turns.others 0)
  | n + 1 =>
    Trace.after (step config wire.platform)
      (turns.serve config wire request n (before n)).2.system (turns.others (n + 1))

/-- What comes of request `n`. -/
def report (n : Nat) : Report :=
  (turns.serve config wire request n (turns.before config wire system request n)).1

/-- The system after request `n`. -/
def done (n : Nat) : System :=
  (turns.serve config wire request n (turns.before config wire system request n)).2.system

/-- What happens up to request `n`. -/
def run (n : Nat) : List Event :=
  (List.range n).flatMap fun k => turns.others k ++ [turns.event request k]

theorem run_succ (n : Nat) :
    turns.run request (n + 1) =
      turns.run request n ++ turns.others n ++ [turns.event request n] := by
  simp [run, List.range_succ]

/-- What the client reads after request `n`. -/
def response (n : Nat) : Json :=
  match turns.report config wire system request n with
  | .replied _ data => data
  | _ => .null

/-- The process is not ended while the call lasts. -/
def Calm : Prop := ∀ n, ∀ event ∈ turns.others n, event.crashIn = none ∧ event.action ≠ .crash

end Turns

/-- `produce`, answered by the broker. -/
def submit (config : Config) (wire : Wire) (jitter : Jitter) (turns : Turns) (system : System)
    (queueName : String) (payload : Json) (maxRetries : Nat) : Produced :=
  produce wire jitter
    (turns.response config wire system (produceRequest queueName payload)) 0 queueName payload
    maxRetries

/-- A request that can be read gets to its handler. -/
theorem Readable.serve {config : Config} {wire : Wire} {turns : Turns} {request : Message}
    (readable : Readable wire request) (n : Nat) (system : System) :
    (turns.serve config wire request n system).2.system =
        (step config wire.platform system (turns.event request n)).2 ∧
      ∀ response, (step config wire.platform system (turns.event request n)).1 =
          .answered response → wire.Sendable (response.toJson wire) →
        (turns.serve config wire request n system).1 =
          .replied (wire.encoded (.obj request)) (response.toJson wire) := by
  unfold Turns.serve Turns.event
  rw [Session.take_of_fits readable.short]
  unfold Session.serve Session.idle
  rw [Wire.parse_encoded readable.shallow]
  simp only
  generalize step config wire.platform system { action := .command request, env := turns.env n } =
    next
  obtain ⟨outcome, system'⟩ := next
  cases outcome with
  | answered answer =>
    dsimp only
    by_cases sendable : wire.Sendable (answer.toJson wire)
    · rw [Session.respond_of_sendable sendable]
      refine ⟨rfl, ?_⟩
      rintro response ⟨⟩ -
      rfl
    · rw [Session.respond_of_not_sendable sendable]
      refine ⟨rfl, ?_⟩
      rintro response ⟨⟩ able
      exact absurd able sendable
  | _ => exact ⟨rfl, nofun⟩

/-- **The requests are events of one run of the broker**, if they can be read. -/
theorem Turns.before_eq {config : Config} {wire : Wire} {turns : Turns} {system : System}
    {request : Message} (readable : Readable wire request) (n : Nat) :
    turns.before config wire system request n =
      Trace.after (step config wire.platform) system
        (turns.run request n ++ turns.others n) := by
  induction n with
  | zero => rfl
  | succ n ih =>
    rw [before, (readable.serve n _).1, ih, ← Trace.after_concat, ← run_succ,
      Trace.after_append]

/-! ## One request -/

/-- The answers to PRODUCE. -/
inductive Response.ToProduce : Response → Prop
  | produced (taskId : String) : ToProduce (.produced taskId)
  | rateLimited (retryAfter : Rat) (reason : String) : ToProduce (.rateLimited retryAfter reason)
  | error (reason : String) : ToProduce (.error reason)

section

variable {platform : Platform} {env : Env} {queueName : String} {payload : Json}

theorem toProduce_of_dispatch {m m' : Machine} {response : Response}
    (responds : dispatch platform env (produceRequest queueName payload) m = .ok response m') :
    response.ToProduce := by
  have holds : wp (dispatch platform env (produceRequest queueName payload))
      (fun response _ => response.ToProduce) (fun _ _ => True) m := by
    show wp (handleProduce platform env (produceRequest queueName payload)) _ _ m
    unfold handleProduce
    simp only [wp_ite, wp_bind, wp_hashable, wp_pure, wp_onLoadShedder, wp_onQueueManager, wp_get,
      wp_onMetrics]
    refine ⟨fun _ => .error _, fun _ => ⟨fun _ => .error _, fun _ => ⟨?_, fun _ => trivial⟩⟩⟩
    intro queue _
    refine ⟨fun _ => .rateLimited _ _, fun _ => ?_⟩
    -- the row that is saved may be refused, but not with another answer
    exact wp_of_forall (fun _ _ => .produced _) fun _ _ => trivial
  unfold wp at holds
  rw [responds] at holds
  exact holds

/-- A PRODUCE with a text for a queue name does not raise, if the store can take it. -/
theorem not_raises_produceRequest {m : Machine}
    (storable : m.broker.walStore.isSome = true →
      platform.Binds queueName ∧ platform.Writes payload) :
    ¬RaisesMessage platform env m (produceRequest queueName payload) := by
  have isProduce : commandOf (produceRequest queueName payload) = some .produce := rfl
  rintro (⟨-, unhashable⟩ | ⟨command, named, raises⟩)
  · cases unhashable
  · obtain rfl := Option.some.inj (isProduce.symm.trans named)
    obtain ⟨-, -, unhashable | ⟨-, opened, ⟨e, unbound⟩ | unwritable⟩⟩ := raises
    · cases unhashable
    · cases unbound.symm.trans (storable opened).1.requiredTextOf
    · exact unwritable (storable opened).2

end

/-- The task that the request creates. -/
structure Accepted (platform : Platform) (env : Env) (queueName : String) (payload : Json)
    (c c' : Core) : Prop where
  /-- It is the last one of its queue; nothing else changes in memory. -/
  enqueued : c'.queueManager =
    c.queueManager.enqueue env.uuid.text env.time (.str queueName) payload
  workers : c'.workerRegistry = c.workerRegistry
  /-- It is stored. -/
  stored : c.walStore.isSome = true → ∃ row,
    platform.taskRow (env.task (.str queueName) payload) env.time = .ok row ∧
      c'.disk = c.disk.saveTask row

/-- What a request does to a broker that is up, with the answer. -/
inductive Handled (platform : Platform) (env : Env) (queueName : String) (payload : Json)
    (c : Core) : Response → Core → Prop
  | accepted {c' : Core} (accepted : Accepted platform env queueName payload c c') :
      Handled platform env queueName payload c (.produced env.uuid.text) c'
  | rateLimited (retryAfter : Rat) (reason : String) :
      Handled platform env queueName payload c (.rateLimited retryAfter reason) c
  | refused (reason : String) : Handled platform env queueName payload c (.error reason) c

section

variable {config : Config} {platform : Platform} {env : Env} {queueName : String} {payload : Json}
  {broker : Broker} {disk : Database}

/-- A PRODUCE creates its task, or leaves the stores alone. -/
theorem Effect.of_produceRequest {m : Machine} {response : Response} {c : Core}
    (effect : Effect platform env m (.command (produceRequest queueName payload))
      (.ok (.answered response)) c) :
    c = m.core ∧ response.Silent ∨
      response = .produced env.uuid.text ∧ c.workerRegistry = m.core.workerRegistry := by
  have isProduce : commandOf (produceRequest queueName payload) = some .produce := rfl
  cases effect with
  | quiet idle silent => exact Or.inl ⟨rfl, silent⟩
  | produce command admitted named hashed persisted =>
    have answered := persisted.of_ok.1
    cases answered
    exact Or.inr ⟨rfl, persisted.memory.2.1⟩
  | _ =>
    have other := isProduce.symm.trans ‹commandOf (produceRequest queueName payload) = some _›
    cases other

/-- **A request is answered, and it is accepted or changes nothing**, if the store can take it. -/
theorem step_produceRequest
    (storable : broker.walStore.isSome = true →
      platform.Binds queueName ∧ platform.Writes payload) :
    ∃ response broker' disk',
      step config platform (.running broker disk)
          { action := .command (produceRequest queueName payload), env } =
        (.answered response, .running broker' disk') ∧
      Handled platform env queueName payload (broker.core disk) response
        (broker'.core disk') := by
  obtain ⟨response, m, broker', disk', responds, steps, effect⟩ :=
    @step_of_not_raises config platform broker disk env _
      (not_raises_produceRequest storable)
  refine ⟨response, broker', disk', steps, ?_⟩
  generalize broker'.core disk' = c at effect
  cases toProduce_of_dispatch responds with
  | produced taskId =>
    obtain ⟨rfl, queue, hashed, enqueued, stored⟩ := effect.of_produced
    cases hashed
    rcases effect.of_produceRequest with ⟨-, silent⟩ | ⟨-, workers⟩
    · exact silent.elim
    · exact .accepted ⟨enqueued, workers, stored⟩
  | rateLimited retryAfter reason =>
    rcases effect.of_produceRequest with ⟨rfl, -⟩ | ⟨isProduced, -⟩
    · exact .rateLimited retryAfter reason
    · cases isProduced
  | error reason =>
    rcases effect.of_produceRequest with ⟨rfl, -⟩ | ⟨isProduced, -⟩
    · exact .refused reason
    · cases isProduced

end

/-! ## The call -/

/-- The stores of a broker that is up. -/
def System.stores? : System → Option Core
  | .running broker disk => some (broker.core disk)
  | .stopped _ => none

/-- What a `produce` call has done to the broker. -/
structure Submitted (config : Config) (wire : Wire) (turns : Turns) (system : System)
    (queueName : String) (payload : Json) (maxRetries : Nat) (call : Produced) : Prop where
  requests : call.exchanges.length ≤ maxRetries + 1
  /-- The call returns or raises. -/
  ends : call.result ≠ .asleep
  /-- The requests are events of a run of the broker. -/
  history : ∀ n, turns.before config wire system (produceRequest queueName payload) n =
    Trace.after (step config wire.platform) system
      (turns.run (produceRequest queueName payload) n ++ turns.others n)
  /-- Every request was answered. -/
  answered : ∀ n < call.exchanges.length, ∃ data,
    turns.report config wire system (produceRequest queueName payload) n =
      .replied (wire.encoded (.obj (produceRequest queueName payload))) data
  /-- If the call returns an id, its last request has created the task of this id. -/
  returned : ∀ taskId, call.result = .returned taskId → ∃ last c c',
    call.exchanges.length = last + 1 ∧ taskId = .str (turns.env last).uuid.text ∧
    (turns.before config wire system (produceRequest queueName payload) last).stores? = some c ∧
    (turns.done config wire system (produceRequest queueName payload) last).stores? = some c' ∧
    Accepted wire.platform (turns.env last) queueName payload c c'
  /-- No other request has changed a store, and none at all if the call raises. -/
  spared : ∀ n < call.exchanges.length,
    n + 1 < call.exchanges.length ∨ (∃ error, call.result = .raised error) →
    (turns.done config wire system (produceRequest queueName payload) n).stores? =
      (turns.before config wire system (produceRequest queueName payload) n).stores?

section

variable {config : Config} {wire : Wire} {turns : Turns} {broker : Broker} {disk : Database}
  {queueName : String} {payload : Json}

/-- Whatever others do, the process stays up, and whether there is a store does not change. -/
theorem running_after {events : List Event}
    (calm : ∀ event ∈ events, event.crashIn = none ∧ event.action ≠ .crash) :
    ∃ broker' disk', Trace.after (step config wire.platform) (.running broker disk) events =
        .running broker' disk' ∧
      broker'.walStore.isSome = broker.walStore.isSome := by
  induction events generalizing broker disk with
  | nil => exact ⟨broker, disk, rfl, rfl⟩
  | cons event events ih =>
    obtain ⟨whole, other⟩ := calm event List.mem_cons_self
    obtain ⟨r, broker', disk', steps, effect⟩ :=
      @step_effect_running config wire.platform broker disk event whole other
    obtain ⟨broker'', disk'', up, opened⟩ := @ih broker' disk' fun later isLater =>
      calm later (List.mem_cons_of_mem _ isLater)
    rw [Trace.after_cons, steps]
    exact ⟨broker'', disk'', up, opened.trans effect.store.1⟩

/-- The process is up at every turn. -/
theorem Turns.Calm.before_running (calm : turns.Calm)
    (readable : Readable wire (produceRequest queueName payload)) (n : Nat) :
    ∃ broker' disk', turns.before config wire (.running broker disk)
        (produceRequest queueName payload) n = .running broker' disk' ∧
      broker'.walStore.isSome = broker.walStore.isSome := by
  have spares : ∀ event ∈ turns.run (produceRequest queueName payload) n ++ turns.others n,
      event.crashIn = none ∧ event.action ≠ .crash := by
    intro event inside
    rcases List.mem_append.mp inside with earlier | now
    · obtain ⟨k, -, isOther | isOwn⟩ := by
        simpa only [run, List.mem_flatMap, List.mem_append] using earlier
      · exact calm k event isOther
      · obtain rfl := List.mem_singleton.mp isOwn
        exact ⟨rfl, nofun⟩
    · exact calm n event now
  rw [Turns.before_eq readable]
  exact running_after spares

/-- What comes of request `n`. -/
theorem Turns.Calm.handled (calm : turns.Calm)
    (readable : Readable wire (produceRequest queueName payload))
    (storable : broker.walStore.isSome = true →
      wire.platform.Binds queueName ∧ wire.platform.Writes payload) (n : Nat) :
    ∃ c response c', (turns.before config wire (.running broker disk)
        (produceRequest queueName payload) n).stores? = some c ∧
      (step config wire.platform (turns.before config wire (.running broker disk)
        (produceRequest queueName payload) n) (turns.event (produceRequest queueName payload)
          n)).1 = .answered response ∧
      (turns.done config wire (.running broker disk) (produceRequest queueName payload)
        n).stores? = some c' ∧
      Handled wire.platform (turns.env n) queueName payload c response c' := by
  obtain ⟨broker', disk', up, opened⟩ :=
    @Turns.Calm.before_running config wire turns broker disk queueName payload calm readable n
  obtain ⟨response, broker'', disk'', steps, handled⟩ :=
    @step_produceRequest config wire.platform (turns.env n) queueName payload broker' disk'
      fun present => storable (opened.symm.trans present)
  refine ⟨_, response, _, by rw [up]; rfl, ?_, ?_, handled⟩
  · rw [up, Turns.event, steps]
  · rw [Turns.done, (readable.serve n _).1, up, Turns.event, steps]
    rfl

end

section

variable {platform : Platform} {env : Env} {queueName : String} {payload : Json} {c c' : Core}
  {response : Response} (wire : Wire)

/-- A response without `ok` has changed nothing. -/
theorem Handled.spared (handled : Handled platform env queueName payload c response c')
    (notOk : status? (response.toJson wire) ≠ some "ok") : c' = c := by
  cases handled with
  | accepted _ => exact absurd rfl notOk
  | rateLimited retryAfter reason => rfl
  | refused reason => rfl

/-- A response with `ok` has created the task that it names. -/
theorem Handled.accepts (handled : Handled platform env queueName payload c response c')
    (isOk : status? (response.toJson wire) = some "ok") :
    Accepted platform env queueName payload c c' ∧
      Accepts (response.toJson wire) (.str env.uuid.text) := by
  cases handled with
  | accepted accepted => exact ⟨accepted, rfl, rfl, rfl⟩
  | rateLimited retryAfter reason => exact absurd (Option.some.inj isOk) (by decide)
  | refused reason => exact absurd (Option.some.inj isOk) (by decide)

/-- The broker never hints at an endless wait. -/
theorem Handled.hint_ne (handled : Handled platform env queueName payload c response c') :
    hint (response.toJson wire) ≠ .nonFinite .inf := by
  cases handled with
  | accepted _ => nofun
  | rateLimited retryAfter reason => nofun
  | refused reason => nofun

end

/-- The responses to the first `maxRetries + 1` requests fit into their frames. -/
def Turns.Framed (config : Config) (wire : Wire) (turns : Turns) (system : System)
    (request : Message) (maxRetries : Nat) : Prop :=
  ∀ n < maxRetries + 1, (step config wire.platform (turns.before config wire system request n)
    (turns.event request n)).1.Framed wire

/-- What the client reads after a request is what the handler answered. -/
theorem Turns.Calm.reads {config : Config} {wire : Wire} {turns : Turns} {broker : Broker}
    {disk : Database} {queueName : String} {payload : Json} (calm : turns.Calm)
    (readable : Readable wire (produceRequest queueName payload))
    (storable : broker.walStore.isSome = true →
      wire.platform.Binds queueName ∧ wire.platform.Writes payload)
    {maxRetries : Nat} (framed : turns.Framed config wire (.running broker disk)
      (produceRequest queueName payload) maxRetries) {n : Nat} (inCall : n < maxRetries + 1) :
    ∃ c response c', (turns.before config wire (.running broker disk)
        (produceRequest queueName payload) n).stores? = some c ∧
      turns.report config wire (.running broker disk) (produceRequest queueName payload) n =
        .replied (wire.encoded (.obj (produceRequest queueName payload)))
          (response.toJson wire) ∧
      turns.response config wire (.running broker disk) (produceRequest queueName payload) n =
        response.toJson wire ∧
      (turns.done config wire (.running broker disk) (produceRequest queueName payload)
        n).stores? = some c' ∧
      Handled wire.platform (turns.env n) queueName payload c response c' := by
  obtain ⟨c, response, c', before, outcome, done, handled⟩ :=
    @Turns.Calm.handled config wire turns broker disk queueName payload calm readable storable n
  have flat : response.Flat := by cases handled <;> trivial
  have short := framed n inCall
  rw [outcome] at short
  have replied := (readable.serve n _).2 response outcome (flat.conveys short).1
  exact ⟨c, response, c', before, replied, by rw [Turns.response, Turns.report, replied], done,
    handled⟩

/-- **A `produce` call submits its task exactly once, or raises and submits nothing**, whatever
else happens at the broker between its requests.  The broker has to be able to read the request
and, if it has a store, to save the task: otherwise the handler raises after it has enqueued
the task, and so does the call. -/
theorem submitted_once (config : Config) (wire : Wire) (jitter : Jitter) (turns : Turns)
    (broker : Broker) (disk : Database) (queueName : String) (payload : Json) (maxRetries : Nat)
    (calm : turns.Calm) (readable : Readable wire (produceRequest queueName payload))
    (storable : broker.walStore.isSome = true →
      wire.platform.Binds queueName ∧ wire.platform.Writes payload)
    (framed : turns.Framed config wire (.running broker disk)
      (produceRequest queueName payload) maxRetries) :
    Submitted config wire turns (.running broker disk) queueName payload maxRetries
      (submit config wire jitter turns (.running broker disk) queueName payload maxRetries) := by
  generalize isCall : submit config wire jitter turns (.running broker disk) queueName payload
    maxRetries = call
  have history := @Turns.before_eq config wire turns (.running broker disk) _ readable
  by_cases writable : wire.Writable wire.requestDepth (.obj (produceRequest queueName payload))
  swap
  · -- nothing is sent
    have unsent : call = ⟨.raised _, [], []⟩ :=
      isCall.symm.trans (produceLoop_of_not_writable _ writable)
    subst unsent
    exact ⟨Nat.zero_le _, nofun, history, nofun, nofun, nofun⟩
  obtain ⟨last, conducted⟩ : ∃ last, Conducted
      (turns.response config wire (.running broker disk) (produceRequest queueName payload))
      (produceRequest queueName payload) maxRetries 0 0 last call :=
    isCall ▸ produce_conducted jitter _ 0 queueName payload maxRetries writable
  have length_eq : call.exchanges.length = last + 1 := by simp [conducted.sent]
  have within : 0 + last ≤ maxRetries := conducted.within
  have reads {n : Nat} (inCall : n < last + 1) := @Turns.Calm.reads config wire turns broker disk
    queueName payload calm readable storable maxRetries framed n (by omega)
  -- the loop goes on after `rate_limited` only, and an `ok` ends it
  have notOk : ∀ n < last + 1, n + 1 < last + 1 ∨ (∃ error, call.result = .raised error) →
      status? (turns.response config wire (.running broker disk)
        (produceRequest queueName payload) n) ≠ some "ok" := by
    intro n inCall other isOk
    by_cases isLast : n = last
    · subst isLast
      obtain ⟨error, raised⟩ : ∃ error, call.result = .raised error :=
        other.resolve_left (Nat.lt_irrefl _)
      obtain ⟨c, response, c', -, -, read, -, handled⟩ := reads inCall
      have accepts := (handled.accepts wire (read ▸ isOk)).2
      have ends := conducted.ends
      rw [raised, Nat.zero_add] at ends
      cases ends with
      | refused other rejects => exact rejects _ (read ▸ accepts)
      | gaveUp limited stuck => exact absurd (Option.some.inj (isOk.symm.trans limited)) (by decide)
    · have limited := conducted.limited n (by omega)
      rw [Nat.zero_add, isOk] at limited
      exact absurd (Option.some.inj limited) (by decide)
  exact {
    requests := by omega
    ends := by
      intro asleep
      have ends := conducted.ends
      rw [asleep, Nat.zero_add] at ends
      obtain ⟨c, response, c', -, -, read, -, handled⟩ := reads (Nat.lt_succ_self last)
      cases ends with
      | slept limited unspent small endless =>
        rw [read] at endless
        exact handled.hint_ne wire endless
    history
    answered := by
      intro n inCall
      rw [length_eq] at inCall
      obtain ⟨c, response, c', -, replied, -⟩ := reads inCall
      exact ⟨_, replied⟩
    returned := by
      intro taskId returns
      have accepts := conducted.returned returns
      rw [Nat.zero_add] at accepts
      obtain ⟨c, response, c', before, -, read, done, handled⟩ := reads (Nat.lt_succ_self last)
      obtain ⟨accepted, isOk, named, -⟩ := handled.accepts wire (read ▸ accepts.1)
      have same : some taskId = some (.str (turns.env last).uuid.text) := by
        rw [← accepts.2.1, read, named]
      exact ⟨last, c, c', length_eq, Option.some.inj same, before, done, accepted⟩
    spared := by
      intro n inCall other
      rw [length_eq] at inCall other
      obtain ⟨c, response, c', before, -, read, done, handled⟩ := reads inCall
      rw [before, done, handled.spared wire (read ▸ notOk n inCall other)] }

/-- A worker asks for a task before every request. -/
def busyTurns : Turns where
  others n := [.at (2 * n) (.consume "*" "w")]
  env n := .at (2 * n + 1)

theorem submitted_once_busy :
    busyTurns.Calm ∧
      Submitted { persistent := true } .plain busyTurns
        (.running (Broker.new { persistent := true } (.at 0)) {}) "q" (.str "p") 3
        (submit { persistent := true } Wire.plain .half busyTurns
          (.running (Broker.new { persistent := true } (.at 0)) {}) "q" (.str "p") 3) := by
  have calm : busyTurns.Calm := by
    intro n event isOther
    obtain rfl := List.mem_singleton.mp isOther
    refine ⟨rfl, ?_⟩
    intro isCrash
    cases isCrash
  have framed : busyTurns.Framed { persistent := true } .plain
      (.running (Broker.new { persistent := true } (.at 0)) {})
      (produceRequest "q" (.str "p")) 3 := by
    unfold Turns.Framed
    decide +kernel
  exact ⟨calm, submitted_once _ Wire.plain .half busyTurns _ _ _ _ _ calm
    ⟨by decide +kernel, by decide +kernel⟩ (fun _ => by decide +kernel) framed⟩

end DistroSync
