import DistroSync.Wire

/-!
# The producer's retry loop

`producer/client.py` and `producer/backoff.py`: `produce` sends a PRODUCE request, waits
and sends it again as long as the broker answers `rate_limited`, until its backoff is
exhausted; `produce_batch` calls it for one payload after the other.

The responses are an arbitrary sequence of JSON values: the client does not check what
it reads, and what it makes of a response (`ProducerClient.read`) includes the
exceptions that the subscripts, the slice and the comparison raise.  The loop is a total
function: every further round has used up one attempt of the backoff.

Durations are rational.  Where Python's floats leave the range of doubles the source
does not go on with a value: `2.0 ** attempt` raises `OverflowError` from attempt 1024
on, and so does formatting an integer that is too large for a double.

A hint can also be one of the doubles that are no numbers, since `json.loads` reads them.
`max(delay, hint)` takes the hint only where it is greater.  So minus infinity and NaN change
nothing, although no wait is at least a NaN, while plus infinity is taken, and a call that
sleeps for it neither returns nor raises.
-/

namespace DistroSync

open Keyed Py

/-- The exceptions that end a `produce` call. -/
inductive ClientError where
  | keyError
  | typeError
  | overflowError
  | recursionError
  | runtimeError (message : String)

/-- The smallest number that does not round to a double. -/
def doubleLimit : Rat := 2 ^ 1024 - 2 ^ 970

/-- Whether rounding the number to a double overflows. -/
def overflows (x : Rat) : Bool := doubleLimit ≤ x

/-- `2 ** k` is a double as long as `k` is below 1024. -/
theorem two_pow_lt_doubleLimit {k : Nat} (small : k < 1024) : (2 : Rat) ^ k < doubleLimit := by
  have half : (2 : Rat) ^ k ≤ 2 ^ 1023 := pow_le_pow_right₀ one_le_two (by omega)
  have gap : (2 : Rat) ^ 970 < 2 ^ 1023 := pow_lt_pow_right₀ one_lt_two (by omega)
  have double : (2 : Rat) ^ 1024 = 2 ^ 1023 + 2 ^ 1023 := by rw [pow_succ, mul_two]
  unfold doubleLimit
  rw [double]
  generalize (2 : Rat) ^ 1023 = top at half gap
  generalize (2 : Rat) ^ 970 = low at gap
  linarith

/-- The powers of two from the 1024th on are out of range. -/
theorem overflows_two_pow {k : Nat} : overflows (2 ^ k) = true ↔ 1024 ≤ k := by
  rw [overflows, decide_eq_true_eq]
  constructor
  · intro large
    by_contra small
    exact absurd large (not_le.mpr (two_pow_lt_doubleLimit (by omega)))
  · intro large
    have above : (2 : Rat) ^ 1024 ≤ 2 ^ k := pow_le_pow_right₀ one_le_two large
    exact (sub_le_self _ (by positivity)).trans above

/-- `ExponentialBackoff`. -/
structure ExponentialBackoff where
  baseDelay : Rat := 1
  maxDelay : Rat := 60
  multiplier : Rat := 2
  jitter : Bool := true
  maxAttempts : Nat := 10
  attempt : Nat := 0

/-- What `random.uniform(0, bound)` draws for the wait after request number `n`. -/
structure Jitter where
  uniform : Nat → Rat → Rat
  nonneg : ∀ n bound, 0 ≤ bound → 0 ≤ uniform n bound
  le : ∀ n bound, 0 ≤ bound → uniform n bound ≤ bound

/-- Always half of the bound. -/
def Jitter.half : Jitter where
  uniform _ bound := bound / 2
  nonneg _ _ positive := by positivity
  le _ _ positive := by linarith

/-- What `asyncio.sleep` is given. -/
inductive Wait where
  | seconds (duration : Rat)
  /-- Infinitely many. -/
  | forever

namespace ExponentialBackoff

/-- `exhausted`. -/
def exhausted (backoff : ExponentialBackoff) : Bool := backoff.maxAttempts ≤ backoff.attempt

/-- The wait that `next_wait` chooses between its own delay and the hint of the server, whose
value the log line formats; a hint of `None` is no hint. -/
def atLeast (delay : Rat) : Json → Except ClientError Wait
  | .null => .ok (.seconds delay)
  | .bool b => .ok (.seconds (max delay (if b then 1 else 0)))
  | .int i =>
    if delay < i ∧ overflows i then .error .overflowError else .ok (.seconds (max delay i))
  | .float q => .ok (.seconds (max delay q))
  | .nonFinite .inf => .ok .forever
  -- neither is greater than the delay
  | .nonFinite .negInf => .ok (.seconds delay)
  | .nonFinite .nan => .ok (.seconds delay)
  | _ => .error .typeError

/-- The delay of `next_wait` itself: the exponential delay, capped, and jittered unless the
jitter is off. -/
def delay (backoff : ExponentialBackoff) (uniform : Rat → Rat) : Rat :=
  let expDelay := backoff.baseDelay * backoff.multiplier ^ backoff.attempt
  let cappedDelay := min expDelay backoff.maxDelay
  if backoff.jitter then uniform cappedDelay else cappedDelay

/-- `next_wait`: the wait, and the backoff with one more attempt used. -/
def nextWait (backoff : ExponentialBackoff) (uniform : Rat → Rat) (retryAfter : Json) :
    Except ClientError (Wait × ExponentialBackoff) :=
  if backoff.exhausted then
    .error (.runtimeError ("Exponential backoff exhausted after " ++
      toString backoff.maxAttempts ++ " attempts. Giving up."))
  else if overflows (backoff.multiplier ^ backoff.attempt) then .error .overflowError
  else
    match atLeast (backoff.delay uniform) retryAfter with
    | .error e => .error e
    | .ok wait => .ok (wait, { backoff with attempt := backoff.attempt + 1 })

variable {backoff next : ExponentialBackoff} {uniform : Rat → Rat} {retryAfter : Json}
  {wait : Wait}

/-- A wait uses up one attempt. -/
theorem of_nextWait (waits : backoff.nextWait uniform retryAfter = .ok (wait, next)) :
    backoff.attempt < backoff.maxAttempts ∧
      ¬overflows (backoff.multiplier ^ backoff.attempt) = true ∧
      atLeast (backoff.delay uniform) retryAfter = .ok wait ∧
      next = { backoff with attempt := backoff.attempt + 1 } := by
  unfold nextWait at waits
  split at waits
  · cases waits
  · rename_i spent
    have unspent : backoff.attempt < backoff.maxAttempts := by simpa [exhausted] using spent
    split at waits
    · cases waits
    · rename_i inRange
      split at waits
      · cases waits
      · rename_i chosen
        cases waits
        exact ⟨unspent, inRange, chosen, rfl⟩

end ExponentialBackoff

namespace ProducerClient

/-- A request and the response to it. -/
structure Exchange where
  request : Message
  response : Json

/-- How a call ends, if it does. -/
inductive Ending (α : Type) where
  | returned (value : α)
  | raised (error : ClientError)
  /-- It is in `asyncio.sleep` and stays there. -/
  | asleep

/-- The ending of a call that prepares the value it returns. -/
def Ending.map {α β : Type} (f : α → β) : Ending α → Ending β
  | .returned value => .returned (f value)
  | .raised error => .raised error
  | .asleep => .asleep

/-- What comes of a `produce` call: how it ends, the requests it sent, and the hints it got
with the waits it made of them. -/
structure Produced where
  result : Ending Json
  exchanges : List Exchange
  waits : List (Json × Wait)

/-- What `produce` makes of a response. -/
inductive Reading where
  | accepted (taskId : Json)
  | rateLimited (retryAfter : Json)
  | failed (error : ClientError)

/-- `response["status"]` and the branches of `produce` on it. -/
def read (platform : Platform) (response : Json) : Reading :=
  match response with
  | .obj fields =>
    match fields.lookup "status" with
    | none => .failed .keyError
    | some (.str "ok") =>
      match fields.lookup "task_id" with
      | none => .failed .keyError
      | some taskId => if taskId.sliceable then .accepted taskId else .failed .typeError
    | some (.str "rate_limited") =>
      .rateLimited (Message.get fields "retry_after_seconds" (.float 1))
    | some _ =>
      -- the message formats the whole response
      if platform.strDepth < response.depth then .failed .recursionError
      else
        .failed (.runtimeError ("Broker rejected task: " ++
          platform.str (Message.get fields "reason" (.str "Unknown error")) ++
          " (response: " ++ platform.str response ++ ")"))
  | _ => .failed .typeError

/-- The PRODUCE request for a payload. -/
def produceRequest (queueName : String) (payload : Json) : Message :=
  [("command", .str "PRODUCE"), ("queue", .str queueName), ("task", payload)]

/-- What `_send` raises if it does not get to write the request. -/
def sendError (wire : Wire) (request : Message) : ClientError :=
  if wire.requestDepth < (Json.obj request).depth then .recursionError else .overflowError

/-- The loop of `produce`, from request number `n` on.  `backoff.reset()` after a success is
left out: the backoff belongs to the call. -/
def produceLoop (wire : Wire) (jitter : Jitter) (responses : Nat → Json)
    (request : Message) (backoff : ExponentialBackoff) (n : Nat) : Produced :=
  match wire.producerSend (.obj request) with
  | none => ⟨.raised (sendError wire request), [], []⟩
  | some _ =>
    match read wire.platform (responses n) with
    | .accepted taskId => ⟨.returned taskId, [⟨request, responses n⟩], []⟩
    | .failed error => ⟨.raised error, [⟨request, responses n⟩], []⟩
    | .rateLimited retryAfter =>
      match waits : backoff.nextWait (jitter.uniform n) retryAfter with
      | .error error => ⟨.raised error, [⟨request, responses n⟩], []⟩
      | .ok (.forever, _) =>
        ⟨.asleep, [⟨request, responses n⟩], [(retryAfter, .forever)]⟩
      | .ok (.seconds wait, next) =>
        let rest := produceLoop wire jitter responses request next (n + 1)
        ⟨rest.result, ⟨request, responses n⟩ :: rest.exchanges,
          (retryAfter, .seconds wait) :: rest.waits⟩
termination_by backoff.maxAttempts - backoff.attempt
decreasing_by
  obtain ⟨unspent, -, -, rfl⟩ := ExponentialBackoff.of_nextWait waits
  simp only
  omega

/-- `produce`, whose first request is number `n` on the connection. -/
def produce (wire : Wire) (jitter : Jitter) (responses : Nat → Json) (n : Nat)
    (queueName : String) (payload : Json) (maxRetries : Nat) : Produced :=
  produceLoop wire jitter responses (produceRequest queueName payload)
    { maxAttempts := maxRetries } n

/-- What comes of a `produce_batch` call. -/
structure Batch where
  result : Ending (List Json)
  exchanges : List Exchange

/-- `produce_batch`, whose first request is number `n` on the connection. -/
def produceBatch (wire : Wire) (jitter : Jitter) (responses : Nat → Json)
    (queueName : String) : List Json → Nat → Batch
  | [], _ => ⟨.returned [], []⟩
  | payload :: rest, n =>
    let first := produce wire jitter responses n queueName payload 10
    match first.result with
    | .raised error => ⟨.raised error, first.exchanges⟩
    | .asleep => ⟨.asleep, first.exchanges⟩
    | .returned taskId =>
      let later := produceBatch wire jitter responses queueName rest
        (n + first.exchanges.length)
      ⟨later.result.map (taskId :: ·), first.exchanges ++ later.exchanges⟩

/-! ## Responses -/

/-- The status text of a response. -/
def status? : Json → Option String
  | .obj fields =>
    match fields.lookup "status" with
    | some (.str text) => some text
    | _ => none
  | _ => none

/-- The `task_id` field of a response. -/
def taskId? : Json → Option Json
  | .obj fields => fields.lookup "task_id"
  | _ => none

/-- The hint in a response. -/
def hint : Json → Json
  | .obj fields => Message.get fields "retry_after_seconds" (.float 1)
  | _ => .float 1

/-- A hint that `next_wait` can compare with a number and format, and that a wait can be at
least: no string, list or object, no integer that is too large for a double, no NaN, and not
infinite. -/
def Usable : Json → Prop
  | .null => True
  | .bool _ => True
  | .int i => ¬overflows i
  | .float _ => True
  | .nonFinite x => x = .negInf
  | _ => False

/-- A hint with which `next_wait` returns a number of seconds. -/
def Passes (retryAfter : Json) : Prop := Usable retryAfter ∨ retryAfter = .nonFinite .nan

/-- A response that accepts the task, with an id that the log line can slice. -/
def Accepts (response : Json) (taskId : Json) : Prop :=
  status? response = some "ok" ∧ taskId? response = some taskId ∧ taskId.sliceable = true

section Read

variable {platform : Platform} {response : Json}

/-- The client logs `task_id[:8]`: an id that has no slices raises. -/
theorem read_eq_accepted {taskId : Json} :
    read platform response = .accepted taskId ↔ Accepts response taskId := by
  unfold read Accepts status? taskId?
  cases response with
  | obj fields =>
    simp only
    split
    · rename_i absent
      simp [absent]
    · rename_i isOk
      rw [isOk]
      cases fields.lookup "task_id" with
      | none => simp
      | some id =>
        by_cases sliced : id.sliceable = true
        · simp only [sliced, if_true, Reading.accepted.injEq, true_and, Option.some.injEq]
          constructor
          · rintro rfl
            exact ⟨rfl, sliced⟩
          · exact And.left
        · simp only [if_neg sliced, reduceCtorEq, true_and, Option.some.injEq, false_iff]
          rintro ⟨rfl, isSliced⟩
          exact sliced isSliced
    · rename_i isLimited
      simp [isLimited]
    · rename_i value notOk notLimited found
      have failed : ∀ e e' : ClientError, (if platform.strDepth < (Json.obj fields).depth then
          Reading.failed e else .failed e') ≠ .accepted taskId := by
        intro e e'
        split_ifs <;> simp
      simp only [found, failed, false_iff]
      rintro ⟨isOk, -⟩
      split at isOk
      · rename_i text isText
        cases isText
        cases isOk
        exact notOk rfl
      · cases isOk
  | _ => simp

theorem read_eq_rateLimited {retryAfter : Json} :
    read platform response = .rateLimited retryAfter ↔
      status? response = some "rate_limited" ∧ hint response = retryAfter := by
  unfold read status? hint
  cases response with
  | obj fields =>
    simp only
    split
    · rename_i absent
      simp [absent]
    · rename_i isOk
      rw [isOk]
      cases fields.lookup "task_id" with
      | none => simp
      | some id =>
        simp only
        split_ifs <;> simp
    · rename_i isLimited
      simp [isLimited]
    · rename_i value notOk notLimited found
      have failed : ∀ e e' : ClientError, (if platform.strDepth < (Json.obj fields).depth then
          Reading.failed e else .failed e') ≠ .rateLimited retryAfter := by
        intro e e'
        split_ifs <;> simp
      simp only [found, failed, false_iff]
      rintro ⟨isLimited, -⟩
      split at isLimited
      · rename_i text isText
        cases isText
        cases isLimited
        exact notLimited rfl
      · cases isLimited
  | _ => simp

end Read

/-- The number in a hint. -/
def number? : Json → Option Rat
  | .bool b => some (if b then 1 else 0)
  | .int i => some i
  | .float q => some q
  | _ => none

/-- A wait is at least the hint, if there is one, and at most the larger of the hint and the
cap.  No wait is at least a NaN. -/
structure Floored (maxDelay : Rat) (hint : Json) (wait : Wait) : Prop where
  ordered : hint ≠ .nonFinite .nan
  endless : wait = .forever ↔ hint = .nonFinite .inf
  nonneg : ∀ s, wait = .seconds s → 0 ≤ s
  le : ∀ s, wait = .seconds s → s ≤ maxDelay ∨ number? hint = some s
  floor : ∀ s h, wait = .seconds s → number? hint = some h → h ≤ s ∧ s ≤ max h maxDelay

theorem Floored.of_max {maxDelay delay h : Rat} {hint : Json} (nonneg : 0 ≤ delay)
    (capped : delay ≤ maxDelay) (isNumber : number? hint = some h) :
    Floored maxDelay hint (.seconds (max delay h)) where
  ordered := by
    rintro rfl
    cases isNumber
  endless := by
    constructor
    · intro endless
      cases endless
    · rintro rfl
      cases isNumber
  nonneg s isWait := by
    cases isWait
    exact nonneg.trans (le_max_left _ _)
  le s isWait := by
    cases isWait
    rcases max_choice delay h with isDelay | isHint
    · rw [isDelay]
      exact .inl capped
    · rw [isHint]
      exact .inr isNumber
  floor s h' isWait isNumber' := by
    cases isWait
    obtain rfl : h = h' := Option.some.inj (isNumber.symm.trans isNumber')
    refine ⟨le_max_right _ _, max_le ?_ (le_max_left _ _)⟩
    exact capped.trans (le_max_right _ _)

/-- The delay itself is as good a wait where the hint is no number. -/
theorem Floored.of_delay {maxDelay delay : Rat} {hint : Json} (nonneg : 0 ≤ delay)
    (capped : delay ≤ maxDelay) (none : number? hint = none)
    (ordered : hint ≠ .nonFinite .nan) (finite : hint ≠ .nonFinite .inf) :
    Floored maxDelay hint (.seconds delay) where
  ordered := ordered
  endless := by
    constructor
    · intro endless
      cases endless
    · exact fun isInf => absurd isInf finite
  nonneg s isWait := by
    cases isWait
    exact nonneg
  le s isWait := by
    cases isWait
    exact .inl capped
  floor s h isWait isNumber := by
    rw [none] at isNumber
    cases isNumber

section Waits

open ExponentialBackoff

variable {delay maxDelay : Rat} {wait : Wait} {retryAfter : Json}

/-- Whatever `next_wait` returns respects the hint and the cap, unless the hint is a NaN. -/
theorem floored_of_atLeast (nonneg : 0 ≤ delay) (capped : delay ≤ maxDelay)
    (chosen : atLeast delay retryAfter = .ok wait) (ordered : retryAfter ≠ .nonFinite .nan) :
    Floored maxDelay retryAfter wait := by
  cases retryAfter with
  | null =>
    cases chosen
    exact .of_delay nonneg capped rfl ordered (by simp)
  | bool b =>
    cases chosen
    exact .of_max nonneg capped rfl
  | int i =>
    simp only [atLeast] at chosen
    split at chosen
    · cases chosen
    · cases chosen
      exact .of_max nonneg capped rfl
  | float q =>
    cases chosen
    exact .of_max nonneg capped rfl
  | nonFinite x =>
    cases x with
    | inf =>
      cases chosen
      exact ⟨ordered, by simp, by simp, by simp, by simp⟩
    | negInf =>
      cases chosen
      exact .of_delay nonneg capped rfl ordered (by simp)
    | nan => exact absurd rfl ordered
  | str _ => cases chosen
  | arr _ => cases chosen
  | obj _ => cases chosen

/-- `next_wait` returns a number of seconds exactly on the hints that pass, and infinity
exactly on infinity. -/
theorem atLeast_returns_iff (capped : delay ≤ 60) :
    ((∃ s, atLeast delay retryAfter = .ok (.seconds s)) ↔ Passes retryAfter) ∧
      (atLeast delay retryAfter = .ok .forever ↔ retryAfter = .nonFinite .inf) := by
  cases retryAfter with
  | int i =>
    have exceeded : overflows i = true → delay < i := by
      rw [overflows, decide_eq_true_eq]
      intro large
      have sixty : (2 : Rat) ^ 6 < doubleLimit := two_pow_lt_doubleLimit (by omega)
      linarith
    simp only [atLeast, Passes, Usable]
    by_cases large : overflows i = true
    · simp [large, exceeded large]
    · simp [large]
  | nonFinite x => cases x <;> simp [atLeast, Passes, Usable]
  | _ => simp [atLeast, Passes, Usable]

end Waits

/-! ## One call -/

/-- Response `n + k` is the first one from `n` on that is not `rate_limited`, and it is
`ok`. -/
def FirstOk (responses : Nat → Json) (n k : Nat) : Prop :=
  (∀ j < k, status? (responses (n + j)) = some "rate_limited") ∧
    status? (responses (n + k)) = some "ok"

/-- Nothing stops a call with `attempt` attempts used from reaching response `n + k`
and returning its task id. -/
def Clear (responses : Nat → Json) (n attempt k : Nat) : Prop :=
  (∀ j < k, attempt + j < 1024 ∧ Usable (hint (responses (n + j)))) ∧
    ∃ taskId, Accepts (responses (n + k)) taskId

/-- How a call ends at request number `n`, when `used` attempts were used before it. -/
inductive Ends (responses : Nat → Json) (maxAttempts used n : Nat) : Ending Json → Prop where
  | returned {taskId : Json} (accepts : Accepts (responses n) taskId) :
      Ends responses maxAttempts used n (.returned taskId)
  | refused {error : ClientError} (other : status? (responses n) ≠ some "rate_limited")
      (rejects : ∀ taskId, ¬Accepts (responses n) taskId) :
      Ends responses maxAttempts used n (.raised error)
  | gaveUp {error : ClientError} (limited : status? (responses n) = some "rate_limited")
      (stuck : maxAttempts ≤ used ∨ 1024 ≤ used ∨
        ¬Passes (hint (responses n)) ∧ hint (responses n) ≠ .nonFinite .inf) :
      Ends responses maxAttempts used n (.raised error)
  | slept (limited : status? (responses n) = some "rate_limited") (unspent : used < maxAttempts)
      (small : used < 1024) (endless : hint (responses n) = .nonFinite .inf) :
      Ends responses maxAttempts used n .asleep

/-- The waits that were computed after the last request. -/
def Ending.lastWaits {α : Type} : Ending α → Nat
  | .asleep => 1
  | _ => 0

/-- What a call of the loop does that starts with `attempt` attempts used and whose last
request is number `n + last`. -/
structure Conducted (responses : Nat → Json) (request : Message) (maxAttempts attempt n last : Nat)
    (call : Produced) : Prop where
  sent : call.exchanges = (List.range (last + 1)).map fun j => ⟨request, responses (n + j)⟩
  within : attempt + last ≤ maxAttempts
  limited : ∀ j < last, status? (responses (n + j)) = some "rate_limited"
  hints : call.waits.map Prod.fst =
    (List.range (last + call.result.lastWaits)).map fun j => hint (responses (n + j))
  floored : ∀ waited ∈ call.waits, waited.1 ≠ .nonFinite .nan → Floored 60 waited.1 waited.2
  passed : ∀ j < last, attempt + j < 1024 ∧ Passes (hint (responses (n + j)))
  ends : Ends responses maxAttempts (attempt + last) (n + last) call.result

section Loop

variable {wire : Wire} {jitter : Jitter} {responses : Nat → Json} {request : Message}
  {maxAttempts attempt n last : Nat} {rest call : Produced} {retryAfter : Json} {wait : Wait}

/-- A call that returns has read an `ok`. -/
theorem Conducted.returned
    (conducted : Conducted responses request maxAttempts attempt n last call) {taskId : Json}
    (returns : call.result = .returned taskId) : Accepts (responses (n + last)) taskId := by
  have ends := conducted.ends
  rw [returns] at ends
  cases ends with
  | returned accepts => exact accepts

/-- A call that does not return had no clear way to an `ok`. -/
theorem Conducted.obstructed
    (conducted : Conducted responses request maxAttempts attempt n last call)
    (silent : ∀ taskId, call.result ≠ .returned taskId) {k : Nat}
    (affordable : attempt + k ≤ maxAttempts) (first : FirstOk responses n k) :
    ¬Clear responses n attempt k := by
  rintro ⟨passable, taskId, accepts⟩
  have ends := conducted.ends
  rcases Nat.lt_trichotomy k last with before | same | after
  · -- the call went past request `k`, so that was no `ok`
    have isLimited := conducted.limited k before
    rw [first.2] at isLimited
    simp at isLimited
  · subst same
    have isOk := first.2
    generalize call.result = result at ends silent
    cases ends with
    | returned _ => exact silent _ rfl
    | refused other rejects => exact rejects taskId accepts
    | gaveUp limited stuck => simp [limited] at isOk
    | slept limited unspent small endless => simp [limited] at isOk
  · obtain ⟨small, usable⟩ := passable last after
    have isLimited := first.1 last after
    generalize call.result = result at ends silent
    cases ends with
    | returned _ => exact silent _ rfl
    | refused other rejects => exact other isLimited
    | gaveUp limited stuck =>
      rcases stuck with spent | large | ⟨fails, -⟩
      · omega
      · omega
      · exact fails (.inl usable)
    | slept limited unspent small endless =>
      rw [endless] at usable
      cases usable

/-- One more round in front of a call. -/
theorem Conducted.again
    (isLimited : status? (responses n) = some "rate_limited")
    (isHint : hint (responses n) = retryAfter)
    (isFloored : retryAfter ≠ .nonFinite .nan → Floored 60 retryAfter wait)
    (small : attempt < 1024) (passes : Passes retryAfter)
    (later : Conducted responses request maxAttempts (attempt + 1) (n + 1) last rest) :
    Conducted responses request maxAttempts attempt n (last + 1)
      ⟨rest.result, ⟨request, responses n⟩ :: rest.exchanges,
        (retryAfter, wait) :: rest.waits⟩ := by
  have shift : ∀ j, n + 1 + j = n + (j + 1) := by omega
  exact {
    sent := by
      rw [later.sent, List.range_succ_eq_map (n := last + 1)]
      simp [shift]
    within := by
      have := later.within
      omega
    limited := by
      intro j before
      cases j with
      | zero => exact isLimited
      | succ j =>
        rw [← shift]
        exact later.limited j (by omega)
    hints := by
      rw [List.map_cons, later.hints, show last + 1 + rest.result.lastWaits =
        last + rest.result.lastWaits + 1 by omega, List.range_succ_eq_map]
      simp [shift, isHint]
    floored := by
      intro waited isMember
      rcases List.mem_cons.mp isMember with rfl | isLater
      · exact isFloored
      · exact later.floored waited isLater
    passed := by
      intro j before
      cases j with
      | zero => exact ⟨small, by rwa [Nat.add_zero, isHint]⟩
      | succ j =>
        obtain ⟨small', passes'⟩ := later.passed j (by omega)
        rw [← shift]
        exact ⟨by omega, passes'⟩
    ends := by
      have ends := later.ends
      rwa [shift, show attempt + 1 + last = attempt + (last + 1) by omega] at ends }

/-- A call that sends one request and is then left with no wait, or with one that does not
end. -/
theorem Conducted.single {result : Ending Json} {waits : List (Json × Wait)}
    (affordable : attempt ≤ maxAttempts) (ends : Ends responses maxAttempts attempt n result)
    (hints : waits.map Prod.fst =
      (List.range result.lastWaits).map fun j => hint (responses (n + j)))
    (floored : ∀ waited ∈ waits, Floored 60 waited.1 waited.2) :
    Conducted responses request maxAttempts attempt n 0
      ⟨result, [⟨request, responses n⟩], waits⟩ where
  sent := by simp
  within := affordable
  limited := by simp
  hints := by simpa using hints
  floored waited isMember _ := floored waited isMember
  passed := by simp
  ends := ends

/-- The delay of the backoff that `produce` creates is within its cap. -/
theorem delay_bounds (jitter : Jitter) (maxAttempts attempt n : Nat) :
    0 ≤ ExponentialBackoff.delay ⟨1, 60, 2, true, maxAttempts, attempt⟩ (jitter.uniform n) ∧
      ExponentialBackoff.delay ⟨1, 60, 2, true, maxAttempts, attempt⟩ (jitter.uniform n) ≤ 60 := by
  have positive : (0 : Rat) ≤ min (1 * 2 ^ attempt) 60 := le_min (by positivity) (by norm_num)
  exact ⟨jitter.nonneg _ _ positive, (jitter.le _ _ positive).trans (min_le_right _ _)⟩

/-- `next_wait` of that backoff chooses between its delay and the hint while attempts are left
and the power is a double. -/
theorem nextWait_eq (jitter : Jitter) (n : Nat) (unspent : attempt < maxAttempts)
    (small : attempt < 1024) (retryAfter : Json) :
    ExponentialBackoff.nextWait ⟨1, 60, 2, true, maxAttempts, attempt⟩
        (jitter.uniform n) retryAfter =
      (ExponentialBackoff.atLeast
        (ExponentialBackoff.delay ⟨1, 60, 2, true, maxAttempts, attempt⟩ (jitter.uniform n))
        retryAfter).map fun wait => (wait, ⟨1, 60, 2, true, maxAttempts, attempt + 1⟩) := by
  have inRange : ¬overflows ((2 : Rat) ^ attempt) = true := by
    rw [overflows_two_pow]
    omega
  have notSpent : ExponentialBackoff.exhausted ⟨1, 60, 2, true, maxAttempts, attempt⟩ = false := by
    simpa [ExponentialBackoff.exhausted] using unspent
  unfold ExponentialBackoff.nextWait
  rw [if_neg (by simp [notSpent]), if_neg inRange]
  cases ExponentialBackoff.atLeast _ retryAfter <;> rfl

/-- `next_wait` of that backoff raises only if no attempt is left, the power is no double, or
the hint is neither one that passes nor infinite. -/
theorem stuck_of_nextWait {error : ClientError}
    (raises : ExponentialBackoff.nextWait ⟨1, 60, 2, true, maxAttempts, attempt⟩
      (jitter.uniform n) retryAfter = .error error) :
    maxAttempts ≤ attempt ∨ 1024 ≤ attempt ∨
      ¬Passes retryAfter ∧ retryAfter ≠ .nonFinite .inf := by
  by_cases unspent : attempt < maxAttempts
  · by_cases small : attempt < 1024
    · refine .inr (.inr ?_)
      rw [nextWait_eq jitter n unspent small] at raises
      obtain ⟨seconds, forever⟩ := @atLeast_returns_iff _ retryAfter
        (delay_bounds jitter maxAttempts attempt n).2
      refine ⟨fun passes => ?_, fun endless => ?_⟩
      · obtain ⟨s, chosen⟩ := seconds.mpr passes
        rw [chosen] at raises
        cases raises
      · rw [forever.mpr endless] at raises
        cases raises
    · exact .inr (.inl (by omega))
  · exact .inl (by omega)

/-- **What a call of the loop does**, for the backoff of `produce` with some attempts used, if
its request can be written. -/
theorem produceLoop_conducted (affordable : attempt ≤ maxAttempts)
    (writable : wire.Writable wire.requestDepth (.obj request)) :
    ∃ last, Conducted responses request maxAttempts attempt n last
      (produceLoop wire jitter responses request ⟨1, 60, 2, true, maxAttempts, attempt⟩ n) := by
  have sent : wire.producerSend (.obj request) = some _ := Wire.framed_of_writable writable
  -- The induction is on the attempts that are left.
  induction left : maxAttempts - attempt using Nat.strong_induction_on generalizing attempt n with
  | _ left ih =>
    rw [produceLoop]
    simp only [sent]
    split
    · rename_i taskId isAccepted
      exact ⟨0, .single affordable (.returned (read_eq_accepted.mp isAccepted)) rfl (by simp)⟩
    · rename_i error isFailed
      refine ⟨0, .single affordable (.refused (fun isLimited => ?_) fun taskId accepts => ?_) rfl
        (by simp)⟩
      · have isRateLimited := (@read_eq_rateLimited wire.platform _ _).mpr ⟨isLimited, rfl⟩
        rw [isFailed] at isRateLimited
        cases isRateLimited
      · rw [← @read_eq_accepted wire.platform, isFailed] at accepts
        cases accepts
    · rename_i retryAfter isRateLimited
      obtain ⟨isLimited, isHint⟩ := read_eq_rateLimited.mp isRateLimited
      split
      · rename_i error raises
        refine ⟨0, .single affordable (.gaveUp isLimited ?_) rfl (by simp)⟩
        rw [isHint]
        exact stuck_of_nextWait raises
      · rename_i next waits
        obtain ⟨unspent, inRange, chosen, -⟩ := ExponentialBackoff.of_nextWait waits
        simp only at unspent inRange
        have endless := (atLeast_returns_iff (delay_bounds jitter maxAttempts attempt n).2).2.mp
          chosen
        have small : attempt < 1024 := by
          rw [overflows_two_pow] at inRange
          omega
        obtain ⟨nonneg, capped⟩ := delay_bounds jitter maxAttempts attempt n
        refine ⟨0, .single affordable (.slept isLimited unspent small (isHint.trans endless)) ?_
          ?_⟩
        · simp [Ending.lastWaits, isHint]
        · intro waited isMember
          obtain rfl := List.mem_singleton.mp isMember
          exact floored_of_atLeast nonneg capped chosen (by rw [endless]; simp)
      · rename_i wait next waits
        obtain ⟨unspent, inRange, chosen, rfl⟩ := ExponentialBackoff.of_nextWait waits
        simp only at unspent inRange
        have small : attempt < 1024 := by
          rw [overflows_two_pow] at inRange
          omega
        obtain ⟨last, later⟩ := ih (maxAttempts - (attempt + 1)) (by omega) (n := n + 1)
          (show attempt + 1 ≤ maxAttempts by omega) rfl
        obtain ⟨nonneg, capped⟩ := delay_bounds jitter maxAttempts attempt n
        exact ⟨last + 1, later.again isLimited isHint (floored_of_atLeast nonneg capped chosen)
          small ((atLeast_returns_iff capped).1.mp ⟨wait, chosen⟩)⟩

/-- A request that cannot be written is not sent, and the call raises. -/
theorem produceLoop_of_not_writable (backoff : ExponentialBackoff)
    (unwritable : ¬wire.Writable wire.requestDepth (.obj request)) :
    produceLoop wire jitter responses request backoff n =
      ⟨.raised (sendError wire request), [], []⟩ := by
  have unsent : wire.producerSend (.obj request) = none := Wire.framed_of_not_writable unwritable
  rw [produceLoop]
  simp only [unsent]

end Loop

/-- The exchanges in which the broker accepted the task. -/
def accepted (exchanges : List Exchange) : List Exchange :=
  exchanges.filter fun exchange => status? exchange.response = some "ok"

theorem accepted_append (earlier later : List Exchange) :
    accepted (earlier ++ later) = accepted earlier ++ accepted later :=
  List.filter_append _ _

/-- Only the last request of a call can have been accepted. -/
theorem Conducted.accepted_eq {responses : Nat → Json} {request : Message}
    {maxAttempts attempt n last : Nat} {call : Produced}
    (conducted : Conducted responses request maxAttempts attempt n last call) :
    accepted call.exchanges = accepted [⟨request, responses (n + last)⟩] := by
  rw [conducted.sent, List.range_succ, List.map_append, accepted, List.filter_append]
  have earlier : ((List.range last).map fun j => (⟨request, responses (n + j)⟩ : Exchange)).filter
      (fun exchange => status? exchange.response = some "ok") = [] := by
    rw [List.filter_eq_nil_iff]
    intro exchange isMember
    obtain ⟨j, before, rfl⟩ := List.mem_map.mp isMember
    simp [conducted.limited j (List.mem_range.mp before)]
  rw [earlier]
  rfl

/-- What is expected of a `produce` call whose first request is number `n`: it ends; the
requests are at most `maxRetries + 1`, all the same and answered one after the other; it
returns exactly if the first response that is not `rate_limited` is `ok` and one of theirs,
with its task id; an `ok` is the last thing it reads; each wait respects its hint and the
cap. -/
structure Disciplined (responses : Nat → Json) (request : Message) (maxRetries n : Nat)
    (call : Produced) : Prop where
  ends : call.result ≠ .asleep
  requests : call.exchanges.length ≤ maxRetries + 1
  sent : call.exchanges =
    (List.range call.exchanges.length).map fun j => ⟨request, responses (n + j)⟩
  returns_iff : (∃ taskId, call.result = .returned taskId) ↔
    ∃ k ≤ maxRetries, FirstOk responses n k
  result : ∀ k ≤ maxRetries, FirstOk responses n k →
    ∃ taskId, taskId? (responses (n + k)) = some taskId ∧ call.result = .returned taskId
  last : ∀ j, j + 1 < call.exchanges.length → status? (responses (n + j)) ≠ some "ok"
  once : (accepted call.exchanges).length ≤ 1
  hints : call.waits.map Prod.fst =
    (List.range (call.exchanges.length - 1)).map fun j => hint (responses (n + j))
  waits : ∀ waited ∈ call.waits, Floored 60 waited.1 waited.2

/-- Nothing obstructs a call.  Whenever the first response that is not `rate_limited` is an
`ok` within the requests, the request can be written, the `ok` comes before the power of the
backoff overflows, the hints before it can be used, and it has a task id that can be sliced.
And as long as the call goes on, no hint is infinite or a NaN. -/
structure Unobstructed (wire : Wire) (request : Message) (responses : Nat → Json)
    (maxRetries n : Nat) : Prop where
  reaches : ∀ k ≤ maxRetries, FirstOk responses n k →
    wire.Writable wire.requestDepth (.obj request) ∧ k ≤ 1024 ∧
      (∀ j < k, Usable (hint (responses (n + j)))) ∧ ∃ taskId, Accepts (responses (n + k)) taskId
  finite : wire.Writable wire.requestDepth (.obj request) → ∀ j < maxRetries, j < 1024 →
    (∀ i ≤ j, status? (responses (n + i)) = some "rate_limited") →
    (∀ i < j, Usable (hint (responses (n + i)))) →
      hint (responses (n + j)) ≠ .nonFinite .inf ∧ hint (responses (n + j)) ≠ .nonFinite .nan

/-- What is expected of a `produce_batch` call: if it returns, its ids are those of the
accepted requests, one for each payload in order; if it does not, the accepted requests are
those of the first payloads. -/
structure BatchDisciplined (queueName : String) (payloads : List Json) (batch : Batch) : Prop where
  returned : ∀ taskIds, batch.result = .returned taskIds →
    (accepted batch.exchanges).map Exchange.request = payloads.map (produceRequest queueName) ∧
      (accepted batch.exchanges).map (fun exchange => taskId? exchange.response) =
        taskIds.map some
  unreturned : (∀ taskIds, batch.result ≠ .returned taskIds) →
    (accepted batch.exchanges).map Exchange.request <+: payloads.map (produceRequest queueName)

section Calls

variable {wire : Wire} {responses : Nat → Json} {request : Message} {maxRetries n last : Nat}
  {call : Produced}

/-- A call that returns has seen no `ok` before. -/
theorem Conducted.firstOk (conducted : Conducted responses request maxRetries 0 n last call)
    {taskId : Json} (returns : call.result = .returned taskId) : FirstOk responses n last :=
  ⟨conducted.limited, (conducted.returned returns).1⟩

/-- There is one first response that is not `rate_limited`. -/
theorem FirstOk.unique {j k : Nat} (first : FirstOk responses n j)
    (first' : FirstOk responses n k) : j = k := by
  obtain ⟨limited, isOk⟩ := first
  obtain ⟨limited', isOk'⟩ := first'
  rcases Nat.lt_trichotomy j k with before | same | after
  · simp [limited' j before] at isOk
  · exact same
  · simp [limited k after] at isOk'

/-- The hints that an unobstructed call gets past are usable: by induction, the first one that
is not would be a NaN. -/
theorem Conducted.usable (conducted : Conducted responses request maxRetries 0 n last call)
    (writable : wire.Writable wire.requestDepth (.obj request))
    (unobstructed : Unobstructed wire request responses maxRetries n) {j : Nat}
    (before : j < last) :
    Usable (hint (responses (n + j))) := by
  induction j using Nat.strong_induction_on with
  | _ j ih =>
    obtain ⟨small, passes⟩ := conducted.passed j before
    have within := conducted.within
    refine passes.resolve_right ?_
    exact (unobstructed.finite writable j (by omega) (by omega)
      (fun i upTo => conducted.limited i (by omega)) fun i earlier => ih i earlier (by omega)).2

/-- An unobstructed call does not fall asleep. -/
theorem Conducted.awake (conducted : Conducted responses request maxRetries 0 n last call)
    (writable : wire.Writable wire.requestDepth (.obj request))
    (unobstructed : Unobstructed wire request responses maxRetries n) :
    call.result ≠ .asleep := by
  intro isAsleep
  have ends := conducted.ends
  rw [isAsleep, Nat.zero_add] at ends
  cases ends with
  | slept limited unspent small endless =>
    refine (unobstructed.finite writable last unspent small (fun i upTo => ?_)
      fun i earlier => conducted.usable writable unobstructed earlier).1 endless
    rcases Nat.lt_or_eq_of_le upTo with earlier | rfl
    · exact conducted.limited i earlier
    · exact limited

theorem Ending.lastWaits_of_ne {α : Type} {result : Ending α} (awake : result ≠ .asleep) :
    result.lastWaits = 0 := by
  cases result with
  | asleep => exact absurd rfl awake
  | _ => rfl

/-- A call whose way to the `ok` is clear is as expected. -/
theorem Conducted.disciplined (conducted : Conducted responses request maxRetries 0 n last call)
    (writable : wire.Writable wire.requestDepth (.obj request))
    (unobstructed : Unobstructed wire request responses maxRetries n) :
    Disciplined responses request maxRetries n call := by
  have length_eq : call.exchanges.length = last + 1 := by simp [conducted.sent]
  have within : last ≤ maxRetries := by simpa using conducted.within
  have awake := conducted.awake writable unobstructed
  have hints : call.waits.map Prod.fst =
      (List.range last).map fun j => hint (responses (n + j)) := by
    simpa [Ending.lastWaits_of_ne awake] using conducted.hints
  have returns : ∀ k ≤ maxRetries, FirstOk responses n k →
      ∃ taskId, call.result = .returned taskId := by
    intro k affordable first
    -- nothing stands between the call and the first `ok`
    by_contra silent
    obtain ⟨-, small, usable, accepts⟩ := unobstructed.reaches k affordable first
    refine conducted.obstructed (not_exists.mp silent) (by omega) first
      ⟨fun j before => ⟨?_, usable j before⟩, accepts⟩
    omega
  exact {
    ends := awake
    requests := by omega
    sent := by
      rw [length_eq]
      exact conducted.sent
    returns_iff := by
      constructor
      · rintro ⟨taskId, isResult⟩
        exact ⟨last, within, conducted.firstOk isResult⟩
      · rintro ⟨k, affordable, first⟩
        exact returns k affordable first
    result := by
      intro k affordable first
      obtain ⟨taskId, isResult⟩ := returns k affordable first
      obtain rfl := first.unique (conducted.firstOk isResult)
      exact ⟨taskId, (conducted.returned isResult).2.1, isResult⟩
    last := by
      intro j before
      rw [conducted.limited j (by omega)]
      simp
    once := by
      rw [conducted.accepted_eq]
      exact List.length_filter_le _ _
    hints := by
      rw [length_eq]
      exact hints
    waits := by
      intro waited isMember
      refine conducted.floored waited isMember ?_
      have isHint : waited.1 ∈ call.waits.map Prod.fst := List.mem_map_of_mem isMember
      rw [hints] at isHint
      obtain ⟨j, before, same⟩ := List.mem_map.mp isHint
      have usable := conducted.usable writable unobstructed (List.mem_range.mp before)
      rw [same] at usable
      intro isNan
      rw [isNan] at usable
      cases usable }

/-- The waits of a disciplined call tell its hints from a NaN. -/
theorem Conducted.usable_of_disciplined
    (conducted : Conducted responses request maxRetries 0 n last call)
    (disciplined : Disciplined responses request maxRetries n call) {j : Nat} (before : j < last) :
    Usable (hint (responses (n + j))) := by
  refine (conducted.passed j before).2.resolve_right ?_
  have isHint : hint (responses (n + j)) ∈ call.waits.map Prod.fst := by
    rw [conducted.hints]
    exact List.mem_map_of_mem (List.mem_range.mpr (by omega))
  obtain ⟨waited, isMember, same⟩ := List.mem_map.mp isHint
  rw [← same]
  exact (disciplined.waits waited isMember).ordered

/-- A call that is as expected was not obstructed. -/
theorem Conducted.unobstructed (conducted : Conducted responses request maxRetries 0 n last call)
    (writable : wire.Writable wire.requestDepth (.obj request))
    (disciplined : Disciplined responses request maxRetries n call) :
    Unobstructed wire request responses maxRetries n where
  reaches k affordable first := by
    obtain ⟨taskId, -, isResult⟩ := disciplined.result k affordable first
    obtain rfl := first.unique (conducted.firstOk isResult)
    refine ⟨writable, ?_, fun j before => conducted.usable_of_disciplined disciplined before,
      taskId, conducted.returned isResult⟩
    by_contra large
    have := (conducted.passed 1024 (by omega)).1
    omega
  finite _ j affordable small limited usable := by
    rcases Nat.lt_trichotomy j last with before | same | after
    · -- the call got past the hint
      have passes := conducted.usable_of_disciplined disciplined before
      refine ⟨fun isInf => ?_, fun isNan => ?_⟩
      · rw [isInf] at passes
        cases passes
      · rw [isNan] at passes
        cases passes
    · subst same
      have isLimited := limited j le_rfl
      have ends := conducted.ends
      rw [Nat.zero_add] at ends
      generalize isResult : call.result = result at ends
      cases ends with
      | returned accepts =>
        rw [accepts.1] at isLimited
        simp at isLimited
      | refused other rejects => exact absurd isLimited other
      | gaveUp limited' stuck =>
        obtain ⟨fails, finite⟩ := (stuck.resolve_left (by omega)).resolve_left (by omega)
        exact ⟨finite, fun isNan => fails (.inr isNan)⟩
      | slept => exact absurd isResult disciplined.ends
    · -- the call cannot have ended before: the response was `rate_limited`, and the hint usable
      have isLimited := limited last (by omega)
      have isUsable := usable last after
      have ends := conducted.ends
      rw [Nat.zero_add] at ends
      generalize isResult : call.result = result at ends
      cases ends with
      | returned accepts =>
        rw [accepts.1] at isLimited
        simp at isLimited
      | refused other rejects => exact absurd isLimited other
      | gaveUp limited' stuck =>
        obtain ⟨fails, -⟩ := (stuck.resolve_left (by omega)).resolve_left (by omega)
        exact absurd (.inl isUsable) fails
      | slept => exact absurd isResult disciplined.ends

/-- **A call whose request can be written is conducted to its end.** -/
theorem produce_conducted (jitter : Jitter) (responses : Nat → Json) (n : Nat)
    (queueName : String) (payload : Json) (maxRetries : Nat)
    (writable : wire.Writable wire.requestDepth (.obj (produceRequest queueName payload))) :
    ∃ last, Conducted responses (produceRequest queueName payload) maxRetries 0 n last
      (produce wire jitter responses n queueName payload maxRetries) :=
  produceLoop_conducted (Nat.zero_le maxRetries) writable

/-- A call whose request cannot be written is as expected if no `ok` was in reach. -/
theorem disciplined_unsent_iff {error : ClientError}
    (unwritable : ¬wire.Writable wire.requestDepth (.obj request)) :
    Disciplined responses request maxRetries n ⟨.raised error, [], []⟩ ↔
      Unobstructed wire request responses maxRetries n := by
  constructor
  · intro disciplined
    refine ⟨fun k affordable first => ?_, fun writable => absurd writable unwritable⟩
    obtain ⟨taskId, -, isResult⟩ := disciplined.result k affordable first
    cases isResult
  · intro unobstructed
    have nothing : ∀ k ≤ maxRetries, ¬FirstOk responses n k := fun k affordable first =>
      unwritable (unobstructed.reaches k affordable first).1
    exact {
      ends := by simp
      requests := by simp
      sent := by simp
      returns_iff := by
        constructor
        · rintro ⟨taskId, isResult⟩
          cases isResult
        · rintro ⟨k, affordable, first⟩
          exact absurd first (nothing k affordable)
      result := fun k affordable first => absurd first (nothing k affordable)
      last := by simp
      once := by simp [accepted]
      hints := by simp
      waits := by simp }

/-- A call that returns has had its task accepted, under the id that it returns. -/
theorem Conducted.accepted_of_returned
    (conducted : Conducted responses request maxRetries 0 n last call)
    {taskId : Json} (returns : call.result = .returned taskId) :
    (accepted call.exchanges).map Exchange.request = [request] ∧
      (accepted call.exchanges).map (fun exchange => taskId? exchange.response) =
        [some taskId] := by
  obtain ⟨isOk, hasId, -⟩ := conducted.returned returns
  rw [conducted.accepted_eq]
  simp [accepted, isOk, hasId]

/-- Whatever comes of a call, its task was accepted at most once. -/
theorem Conducted.accepted_isPrefix
    (conducted : Conducted responses request maxRetries 0 n last call) :
    (accepted call.exchanges).map Exchange.request <+: [request] := by
  rw [conducted.accepted_eq, accepted, List.filter_cons]
  split
  · exact List.prefix_refl _
  · exact List.nil_prefix

/-- The same for `produce`, whose request may not have been sent at all. -/
theorem accepted_produce_isPrefix (jitter : Jitter) (responses : Nat → Json) (n : Nat)
    (queueName : String) (payload : Json) (maxRetries : Nat) :
    (accepted (produce wire jitter responses n queueName payload maxRetries).exchanges).map
      Exchange.request <+: [produceRequest queueName payload] := by
  by_cases writable : wire.Writable wire.requestDepth (.obj (produceRequest queueName payload))
  · obtain ⟨last, conducted⟩ :=
      produce_conducted jitter responses n queueName payload maxRetries writable
    exact conducted.accepted_isPrefix
  · rw [produce, produceLoop_of_not_writable _ writable]
    exact List.nil_prefix

/-- A call that returns, in front of a batch. -/
theorem BatchDisciplined.cons {queueName : String} {payload taskId : Json} {rest : List Json}
    {batch : Batch} (later : BatchDisciplined queueName rest batch)
    (conducted : Conducted responses (produceRequest queueName payload) maxRetries 0 n last call)
    (outcome : call.result = .returned taskId) :
    BatchDisciplined queueName (payload :: rest)
      ⟨batch.result.map (taskId :: ·), call.exchanges ++ batch.exchanges⟩ := by
  obtain ⟨requests, taskIds⟩ := conducted.accepted_of_returned outcome
  refine ⟨?_, ?_⟩
  · intro ids returns
    rw [accepted_append, List.map_append, List.map_append, requests, taskIds]
    cases isLater : batch.result with
    | returned laterIds =>
      rw [isLater] at returns
      cases returns
      obtain ⟨laterRequests, areLaterIds⟩ := later.returned laterIds isLater
      rw [laterRequests, areLaterIds]
      exact ⟨rfl, rfl⟩
    | raised error =>
      rw [isLater] at returns
      cases returns
    | asleep =>
      rw [isLater] at returns
      cases returns
  · intro silent
    rw [accepted_append, List.map_append, requests]
    have silentLater : ∀ ids, batch.result ≠ .returned ids := by
      intro ids isLater
      exact silent (taskId :: ids) (by rw [isLater]; rfl)
    obtain ⟨missing, isRest⟩ := later.unreturned silentLater
    exact ⟨missing, by rw [List.append_assoc, isRest]; rfl⟩

/-- A batch that returns has one task id for each payload, and one that does not has had a
prefix of them accepted. -/
theorem produceBatch_disciplined (wire : Wire) (jitter : Jitter) (queueName : String)
    (payloads : List Json) (n : Nat) :
    BatchDisciplined queueName payloads
      (produceBatch wire jitter responses queueName payloads n) := by
  induction payloads generalizing n with
  | nil =>
    refine ⟨?_, fun silent => absurd rfl (silent [])⟩
    rintro _ ⟨⟩
    exact ⟨rfl, rfl⟩
  | cons payload rest ih =>
    have first := @accepted_produce_isPrefix wire jitter responses n queueName payload 10
    rw [produceBatch]
    cases outcome : (produce wire jitter responses n queueName payload 10).result with
    | raised error =>
      refine ⟨by rintro _ ⟨⟩, fun _ => ?_⟩
      exact first.trans ⟨_, rfl⟩
    | asleep =>
      refine ⟨by rintro _ ⟨⟩, fun _ => ?_⟩
      exact first.trans ⟨_, rfl⟩
    | returned taskId =>
      by_cases writable :
        wire.Writable wire.requestDepth (.obj (produceRequest queueName payload))
      · obtain ⟨last, conducted⟩ :=
          produce_conducted jitter responses n queueName payload 10 writable
        exact (ih _).cons conducted outcome
      · rw [produce, produceLoop_of_not_writable _ writable] at outcome
        cases outcome

end Calls

/-- **The retry loop is bounded and gets one task accepted**, exactly if nothing obstructs the
call; a batch built from it is always in order. -/
theorem produce_disciplined_iff (wire : Wire) (jitter : Jitter) (responses : Nat → Json)
    (n : Nat) (queueName : String) (payload : Json) (maxRetries : Nat) :
    (Disciplined responses (produceRequest queueName payload) maxRetries n
        (produce wire jitter responses n queueName payload maxRetries) ↔
      Unobstructed wire (produceRequest queueName payload) responses maxRetries n) ∧
    ∀ payloads, BatchDisciplined queueName payloads
      (produceBatch wire jitter responses queueName payloads n) := by
  refine ⟨?_, fun payloads => produceBatch_disciplined wire jitter queueName payloads n⟩
  by_cases writable : wire.Writable wire.requestDepth (.obj (produceRequest queueName payload))
  · obtain ⟨last, conducted⟩ :=
      produce_conducted jitter responses n queueName payload maxRetries writable
    exact ⟨conducted.unobstructed writable, conducted.disciplined writable⟩
  · rw [produce, produceLoop_of_not_writable _ writable]
    exact disciplined_unsent_iff writable

/-- After 1024 waits, one more `rate_limited` ends the call: `2.0 ** 1024` is not a double. -/
theorem produceLoop_overflows {wire : Wire} {jitter : Jitter} {responses : Nat → Json}
    {request : Message} {maxAttempts attempt n : Nat}
    (writable : wire.Writable wire.requestDepth (.obj request)) (many : 1024 < maxAttempts)
    (few : attempt ≤ 1024)
    (limited : ∀ j, attempt + j ≤ 1024 → status? (responses (n + j)) = some "rate_limited" ∧
      Usable (hint (responses (n + j)))) :
    (produceLoop wire jitter responses request
      ⟨1, 60, 2, true, maxAttempts, attempt⟩ n).result = .raised .overflowError := by
  have sent : wire.producerSend (.obj request) = some _ := Wire.framed_of_writable writable
  induction isLeft : 1024 - attempt generalizing attempt n with
  | zero =>
    obtain rfl : attempt = 1024 := by omega
    obtain ⟨isLimited, -⟩ := limited 0 (by omega)
    have isRateLimited := (@read_eq_rateLimited wire.platform _ _).mpr ⟨isLimited, rfl⟩
    have notSpent : ExponentialBackoff.exhausted ⟨1, 60, 2, true, maxAttempts, 1024⟩ = false := by
      simpa [ExponentialBackoff.exhausted] using many
    have raises : ExponentialBackoff.nextWait ⟨1, 60, 2, true, maxAttempts, 1024⟩
        (jitter.uniform n) (hint (responses n)) = .error .overflowError := by
      rw [ExponentialBackoff.nextWait, if_neg (by simp [notSpent]),
        if_pos (overflows_two_pow.mpr le_rfl)]
    rw [produceLoop]
    simp only [Nat.add_zero] at isRateLimited
    simp only [sent, isRateLimited]
    split
    · rename_i error isError
      rw [raises] at isError
      cases isError
      rfl
    · rename_i waits
      rw [raises] at waits
      cases waits
    · rename_i waits
      rw [raises] at waits
      cases waits
  | succ left ih =>
    obtain ⟨isLimited, usable⟩ := limited 0 (by omega)
    have isRateLimited := (@read_eq_rateLimited wire.platform _ _).mpr ⟨isLimited, rfl⟩
    simp only [Nat.add_zero] at isRateLimited usable
    obtain ⟨s, chosen⟩ := (atLeast_returns_iff
      (delay_bounds jitter maxAttempts attempt n).2).1.mpr (.inl usable)
    have returns := nextWait_eq jitter n (show attempt < maxAttempts by omega)
      (show attempt < 1024 by omega) (hint (responses n))
    rw [chosen] at returns
    rw [produceLoop]
    simp only [sent, isRateLimited]
    split
    · rename_i error raises
      rw [returns] at raises
      cases raises
    · rename_i waits
      rw [returns] at waits
      cases waits
    · rename_i wait next waits
      obtain ⟨-, -, -, rfl⟩ := ExponentialBackoff.of_nextWait waits
      have fewer : attempt + 1 ≤ 1024 := by omega
      refine ih fewer (fun j before => ?_) (show 1024 - (attempt + 1) = left by omega)
      simp only at before
      rw [show n + 1 + j = n + (j + 1) by omega]
      exact limited (j + 1) (by omega)

/-- A broker that sheds the first 1025 requests and accepts the next one. -/
def lateOk (j : Nat) : Json :=
  if j < 1025 then .obj [("status", .str "rate_limited"), ("retry_after_seconds", .float 1)]
  else .obj [("status", .str "ok"), ("task_id", .str "a")]

/-- **The backoff overflows before its attempts are used up.**  With 1025 retries the request
after 1025 times `rate_limited` would be accepted, but the call raises `OverflowError` and
never sends it. -/
theorem late_ok_never_reached :
    FirstOk lateOk 0 1025 ∧
      (produce .plain .half lateOk 0 "q" (.obj []) 1025).result = .raised .overflowError := by
  refine ⟨⟨fun j before => ?_, by decide⟩, ?_⟩
  · rw [Nat.zero_add, lateOk, if_pos before]
    rfl
  · refine produceLoop_overflows (by decide +kernel) (by omega) (by omega) fun j few => ?_
    rw [Nat.zero_add, lateOk, if_pos (by omega)]
    exact ⟨rfl, trivial⟩

end ProducerClient

end DistroSync
