import DistroSync.Lib.Trace

/-!
# Calls over a shared channel

Several callers share one channel to a server that answers the requests in order.  A call
takes a lock, writes its request, waits until the request is sent, reads the header and
then the body of a response, and releases the lock.  Every wait is a point where another
caller may get its turn.  The lock is handed over in the order in which the callers asked
for it.

Nothing in a response says which request it belongs to, and a caller takes what it finds:
a header where it expects a body leads it astray.  That this does not happen is a matter
of the lock.  The specification is a `Slot` for one exchange, which a request fills and a
return empties; a channel whose calls are not cancelled implements it (`Orderly.step`).
So the requests that were written are those of the calls that have returned, and at most
one more (`accounts`).
-/

namespace SharedChannel

universe u v w

/-- Where a caller is; the request is that of its call. -/
inductive Phase (α : Type v) where
  | idle
  /-- It waits for the lock. -/
  | queued (request : α)
  /-- It has written its request and waits until that is sent. -/
  | draining (request : α)
  /-- It waits for the header of a response. -/
  | header (request : α)
  /-- It waits for the body of a response. -/
  | body (request : α)
  /-- It has read something else than it expected. -/
  | astray

/-- The parts of a response, as they are read. -/
inductive Part (β : Type w) where
  | header
  | body (response : β)

/-- The lock with those who wait for it, the callers, and what is on the way. -/
structure Channel (ι : Type u) (α : Type v) (β : Type w) where
  locked : Bool := false
  waiters : List ι := []
  phase : ι → Phase α := fun _ => .idle
  requests : List α := []
  responses : List (Part β) := []

/-- What can happen on a channel. -/
inductive Action (ι : Type u) (α : Type v) (β : Type w) where
  | call (caller : ι) (request : α)
  | turn (caller : ι)
  /-- The server answers the next request. -/
  | serve (response : β)
  | cancel (caller : ι)

/-- What comes of an action. -/
inductive Report (ι : Type u) (α : Type v) (β : Type w) where
  | nothing
  | wrote (caller : ι) (request : α)
  | served (request : α) (response : β)
  | returned (caller : ι) (request : α) (response : β)
  | strayed (caller : ι)
  | cancelled (caller : ι)

variable {ι : Type u} {α : Type v} {β : Type w}

namespace Channel

variable [DecidableEq ι]

/-- The caller goes to a phase. -/
def put (c : Channel ι α β) (i : ι) (phase : Phase α) : Channel ι α β :=
  { c with phase := Function.update c.phase i phase }

/-- Take the lock and write the request. -/
def write (c : Channel ι α β) (i : ι) (request : α) : Report ι α β × Channel ι α β :=
  (.wrote i request,
    { c with locked := true, requests := c.requests ++ [request] }.put i (.draining request))

/-- A call.  It gets the lock at once only if nobody waits for it. -/
def call (c : Channel ι α β) (i : ι) (request : α) : Report ι α β × Channel ι α β :=
  match c.phase i with
  | .idle =>
    if c.locked = false ∧ c.waiters = [] then c.write i request
    else (.nothing, { c with waiters := c.waiters ++ [i] }.put i (.queued request))
  | _ => (.nothing, c)

/-- A turn of a caller: it goes on, if what it waits for is there. -/
def turn (c : Channel ι α β) (i : ι) : Report ι α β × Channel ι α β :=
  match c.phase i with
  | .queued request =>
    if c.locked = false ∧ c.waiters.head? = some i then
      { c with waiters := c.waiters.tail }.write i request
    else (.nothing, c)
  | .draining request => (.nothing, c.put i (.header request))
  | .header request =>
    match c.responses with
    | [] => (.nothing, c)
    | .header :: rest => (.nothing, { c with responses := rest }.put i (.body request))
    | .body _ :: _ => (.strayed i, c.put i .astray)
  | .body request =>
    match c.responses with
    | [] => (.nothing, c)
    | .body response :: rest =>
      (.returned i request response, { c with locked := false, responses := rest }.put i .idle)
    | .header :: _ => (.strayed i, c.put i .astray)
  | _ => (.nothing, c)

/-- The server takes the next request and answers it. -/
def serve (c : Channel ι α β) (response : β) : Report ι α β × Channel ι α β :=
  match c.requests with
  | [] => (.nothing, c)
  | request :: rest =>
    (.served request response,
      { c with requests := rest, responses := c.responses ++ [.header, .body response] })

/-- A call is cancelled where it waits: it leaves the queue, or releases the lock. -/
def cancel (c : Channel ι α β) (i : ι) : Report ι α β × Channel ι α β :=
  match c.phase i with
  | .idle => (.nothing, c)
  | .queued _ => (.cancelled i, { c with waiters := c.waiters.erase i }.put i .idle)
  | _ => (.cancelled i, { c with locked := false }.put i .idle)

/-- One action. -/
def step (c : Channel ι α β) : Action ι α β → Report ι α β × Channel ι α β
  | .call i request => c.call i request
  | .turn i => c.turn i
  | .serve response => c.serve response
  | .cancel i => c.cancel i

end Channel

/-! ## The specification -/

/-- An exchange that is under way. -/
structure Exchange (ι : Type u) (α : Type v) (β : Type w) where
  caller : ι
  request : α
  response : Option β

/-- Room for one exchange. -/
abbrev Slot (ι : Type u) (α : Type v) (β : Type w) := Option (Exchange ι α β)

/-- What a report means for the slot. -/
def Slot.next (slot : Slot ι α β) : Report ι α β → Slot ι α β
  | .wrote i request => some ⟨i, request, none⟩
  | .served _ response => slot.map fun exchange => { exchange with response := some response }
  | .returned _ _ _ => none
  | _ => slot

/-- When a report may occur. -/
def Slot.Allows (slot : Slot ι α β) : Report ι α β → Prop
  | .nothing => True
  | .wrote _ _ => slot = none
  | .served request _ => ∃ i, slot = some ⟨i, request, none⟩
  | .returned i request response => slot = some ⟨i, request, some response⟩
  | .strayed _ => False
  | .cancelled _ => False

/-! ## The channel implements the specification -/

/-- A caller that is idle or waits for the lock. -/
def Phase.waits : Phase α → Bool
  | .idle => true
  | .queued _ => true
  | _ => false

/-- How far an exchange has got: the phase of its caller and what is on the way. -/
inductive Stage : Exchange ι α β → Phase α → List α → List (Part β) → Prop
  | draining (i : ι) (request : α) : Stage ⟨i, request, none⟩ (.draining request) [request] []
  | header (i : ι) (request : α) : Stage ⟨i, request, none⟩ (.header request) [request] []
  | drainingServed (i : ι) (request : α) (response : β) :
      Stage ⟨i, request, some response⟩ (.draining request) [] [.header, .body response]
  | headerServed (i : ι) (request : α) (response : β) :
      Stage ⟨i, request, some response⟩ (.header request) [] [.header, .body response]
  | body (i : ι) (request : α) (response : β) :
      Stage ⟨i, request, some response⟩ (.body request) [] [.body response]

/-- No exchange is under way. -/
structure Free (c : Channel ι α β) : Prop where
  unlocked : c.locked = false
  requests : c.requests = []
  responses : c.responses = []
  waits : ∀ j, (c.phase j).waits = true

/-- This exchange is under way. -/
structure Busy (c : Channel ι α β) (exchange : Exchange ι α β) : Prop where
  locked : c.locked = true
  stage : Stage exchange (c.phase exchange.caller) c.requests c.responses
  waits : ∀ j, j ≠ exchange.caller → (c.phase j).waits = true

/-- The state of a channel with this exchange under way, or none. -/
def Holds (c : Channel ι α β) : Slot ι α β → Prop
  | none => Free c
  | some exchange => Busy c exchange

/-- The channel is in a state that belongs to the slot, and its queue is that of the callers
that wait for the lock. -/
structure Orderly (c : Channel ι α β) (slot : Slot ι α β) : Prop where
  holds : Holds c slot
  nodup : c.waiters.Nodup
  mem_waiters : ∀ j, j ∈ c.waiters ↔ ∃ request, c.phase j = .queued request

section Step

variable {c : Channel ι α β} {slot : Slot ι α β} {i : ι}

/-- The caller of an exchange is past the lock. -/
theorem Stage.not_waits {exchange : Exchange ι α β} {phase : Phase α} {requests : List α}
    {responses : List (Part β)} (stage : Stage exchange phase requests responses) :
    phase.waits = false := by
  cases stage <;> rfl

/-- A request is on the way until it is answered. -/
theorem Stage.requests_eq {exchange : Exchange ι α β} {phase : Phase α} {requests : List α}
    {responses : List (Part β)} (stage : Stage exchange phase requests responses) :
    requests = match exchange.response with
      | none => [exchange.request]
      | some _ => [] := by
  cases stage <;> rfl

theorem Stage.not_queued {exchange : Exchange ι α β} {phase : Phase α} {requests : List α}
    {responses : List (Part β)} (stage : Stage exchange phase requests responses) (request : α) :
    phase ≠ .queued request := by
  cases stage <;> nofun

/-- A caller that is past the lock is the one whose exchange is under way. -/
theorem Holds.busy (holds : Holds c slot) {phase : Phase α} (is : c.phase i = phase)
    (past : phase.waits = false) :
    ∃ exchange, slot = some exchange ∧ exchange.caller = i ∧ Busy c exchange ∧
      Stage exchange phase c.requests c.responses := by
  have notWaits : ¬(c.phase i).waits = true := by
    rw [is, past]
    exact Bool.false_ne_true
  cases slot with
  | none => exact absurd (holds.waits i) notWaits
  | some exchange =>
    have same : exchange.caller = i := by
      by_contra other
      exact notWaits (holds.waits i (Ne.symm other))
    have stage := holds.stage
    rw [same, is] at stage
    exact ⟨exchange, rfl, same, holds, stage⟩

/-- Whoever finds the lock open finds no exchange. -/
theorem Holds.eq_none (holds : Holds c slot) (unlocked : c.locked = false) : slot = none := by
  cases slot with
  | none => rfl
  | some exchange =>
    rw [holds.locked] at unlocked
    cases unlocked

/-- The server answers the request that is being exchanged, and no other. -/
theorem Orderly.serve (orderly : Orderly c slot) (response : β) :
    slot.Allows (c.serve response).1 ∧
      Orderly (c.serve response).2 (slot.next (c.serve response).1) := by
  unfold Channel.serve
  cases requests : c.requests with
  | nil => exact ⟨trivial, orderly⟩
  | cons request rest =>
    cases slot with
    | none =>
      have free : Free c := orderly.holds
      rw [free.requests] at requests
      cases requests
    | some exchange =>
      have busy : Busy c exchange := orderly.holds
      have stage := busy.stage
      rw [requests] at stage
      generalize phase : c.phase exchange.caller = p at stage
      generalize responses : c.responses = parts at stage
      cases stage with
      | draining j request =>
        refine ⟨⟨j, rfl⟩, ⟨busy.locked, ?_, busy.waits⟩, orderly.nodup, orderly.mem_waiters⟩
        show Stage _ (c.phase j) [] _
        rw [phase]
        exact .drainingServed j request response
      | header j request =>
        refine ⟨⟨j, rfl⟩, ⟨busy.locked, ?_, busy.waits⟩, orderly.nodup, orderly.mem_waiters⟩
        show Stage _ (c.phase j) [] _
        rw [phase]
        exact .headerServed j request response

variable [DecidableEq ι]

/-- Callers that wait for the lock do not matter. -/
theorem Holds.queue (holds : Holds c slot) {waiters : List ι} {request : α}
    (waits : (c.phase i).waits = true) :
    Holds ({ c with waiters }.put i (.queued request)) slot := by
  have still (j : ι) (was : (c.phase j).waits = true) :
      (Function.update c.phase i (.queued request) j).waits = true := by
    by_cases same : j = i
    · subst same
      rw [Function.update_self]
      rfl
    · rwa [Function.update_of_ne same]
  cases slot with
  | none =>
    exact ⟨holds.unlocked, holds.requests, holds.responses, fun j => still j (holds.waits j)⟩
  | some exchange =>
    have other : exchange.caller ≠ i := by
      rintro rfl
      rw [holds.stage.not_waits] at waits
      cases waits
    refine ⟨holds.locked, ?_, fun j apart => still j (holds.waits j apart)⟩
    show Stage _ (Function.update c.phase i (.queued request) exchange.caller) _ _
    rw [Function.update_of_ne other]
    exact holds.stage

/-- The caller of the exchange goes on to another stage. -/
theorem Busy.put {exchange exchange' : Exchange ι α β} (busy : Busy c exchange)
    (same : exchange'.caller = exchange.caller) {phase : Phase α} {requests : List α}
    {responses : List (Part β)} (stage : Stage exchange' phase requests responses) :
    Busy ({ c with requests, responses }.put exchange.caller phase) exchange' := by
  refine ⟨busy.locked, ?_, fun j apart => ?_⟩
  · show Stage exchange' (Function.update c.phase exchange.caller phase exchange'.caller) _ _
    rw [same, Function.update_self]
    exact stage
  · show (Function.update c.phase exchange.caller phase j).waits = true
    rw [same] at apart
    rw [Function.update_of_ne apart]
    exact busy.waits j apart

/-- The queue stays right if a caller changes that neither waited for the lock nor does now. -/
theorem Orderly.mem_waiters_update (orderly : Orderly c slot) {phase : Phase α}
    (before : ∀ request, c.phase i ≠ .queued request) (after : ∀ request, phase ≠ .queued request)
    (j : ι) : j ∈ c.waiters ↔ ∃ request, Function.update c.phase i phase j = .queued request := by
  rw [orderly.mem_waiters j]
  by_cases same : j = i
  · subst same
    rw [Function.update_self]
    exact ⟨fun ⟨request, is⟩ => absurd is (before request),
      fun ⟨request, is⟩ => absurd is (after request)⟩
  · rw [Function.update_of_ne same]

/-- The caller of the exchange goes on, and the queue stays as it is. -/
theorem Orderly.put {exchange exchange' : Exchange ι α β} (orderly : Orderly c (some exchange))
    (same : exchange'.caller = exchange.caller) {phase : Phase α} {requests : List α}
    {responses : List (Part β)} (stage : Stage exchange' phase requests responses) :
    Orderly ({ c with requests, responses }.put exchange.caller phase) (some exchange') := by
  have busy : Busy c exchange := orderly.holds
  exact ⟨busy.put same stage, orderly.nodup,
    orderly.mem_waiters_update busy.stage.not_queued stage.not_queued⟩

/-- The exchange is over. -/
theorem Orderly.finish {exchange : Exchange ι α β} (orderly : Orderly c (some exchange)) :
    Orderly ({ c with locked := false, requests := [], responses := ([] : List (Part β)) }.put
      exchange.caller .idle) none := by
  have busy : Busy c exchange := orderly.holds
  refine ⟨⟨rfl, rfl, rfl, fun j => ?_⟩, orderly.nodup, ?_⟩
  · show (Function.update c.phase exchange.caller .idle j).waits = true
    by_cases same : j = exchange.caller
    · subst same
      rw [Function.update_self]
      rfl
    · rw [Function.update_of_ne same]
      exact busy.waits j same
  · exact orderly.mem_waiters_update busy.stage.not_queued nofun

/-- A caller takes the lock and writes. -/
theorem Orderly.write (orderly : Orderly c none) {waiters : List ι} {request : α}
    (nodup : waiters.Nodup) (queue : ∀ j, j ∈ waiters ↔ j ≠ i ∧ j ∈ c.waiters) :
    Orderly ({ c with waiters }.write i request).2 (some ⟨i, request, none⟩) := by
  have free : Free c := orderly.holds
  refine ⟨⟨rfl, ?_, fun j other => ?_⟩, nodup, fun j => ?_⟩
  · show Stage _ (Function.update c.phase i _ i) (c.requests ++ [request]) c.responses
    rw [Function.update_self, free.requests, free.responses]
    exact .draining i request
  · show (Function.update c.phase i _ j).waits = true
    rw [Function.update_of_ne other]
    exact free.waits j
  · show j ∈ waiters ↔ ∃ other, Function.update c.phase i (.draining request) j = .queued other
    rw [queue, orderly.mem_waiters]
    by_cases same : j = i
    · subst same
      rw [Function.update_self]
      exact ⟨fun both => absurd rfl both.1, fun ⟨_, absurd⟩ => by cases absurd⟩
    · rw [Function.update_of_ne same]
      exact ⟨And.right, fun waits => ⟨same, waits⟩⟩

/-- A caller that finds the channel taken waits in line. -/
theorem Orderly.call (orderly : Orderly c slot) (request : α) :
    slot.Allows (c.call i request).1 ∧
      Orderly (c.call i request).2 (slot.next (c.call i request).1) := by
  unfold Channel.call
  split
  · rename_i phase
    have absent : i ∉ c.waiters := by
      rw [orderly.mem_waiters]
      rintro ⟨other, queued⟩
      rw [phase] at queued
      cases queued
    split_ifs with open'
    · obtain rfl := orderly.holds.eq_none open'.1
      refine ⟨rfl, Orderly.write orderly orderly.nodup fun j => ?_⟩
      refine ⟨fun inside => ⟨?_, inside⟩, And.right⟩
      rintro rfl
      exact absent inside
    · refine ⟨trivial, orderly.holds.queue (by rw [phase]; rfl), ?_, fun j => ?_⟩
      · exact List.nodup_append.mpr ⟨orderly.nodup, List.nodup_singleton i, by
          rintro j inside k isLast rfl
          exact absent (List.mem_singleton.mp isLast ▸ inside)⟩
      · show j ∈ c.waiters ++ [i] ↔
          ∃ other, Function.update c.phase i (.queued request) j = .queued other
        rw [List.mem_append, List.mem_singleton, orderly.mem_waiters]
        by_cases same : j = i
        · subst same
          rw [Function.update_self]
          exact ⟨fun _ => ⟨request, rfl⟩, fun _ => Or.inr rfl⟩
        · rw [Function.update_of_ne same]
          exact ⟨fun either => either.resolve_right same, Or.inl⟩
  · exact ⟨trivial, orderly⟩

theorem Orderly.turn (orderly : Orderly c slot) (i : ι) :
    slot.Allows (c.turn i).1 ∧ Orderly (c.turn i).2 (slot.next (c.turn i).1) := by
  unfold Channel.turn
  cases phase : c.phase i with
  | idle => exact ⟨trivial, orderly⟩
  | queued request =>
    simp only
    split_ifs with first
    · obtain ⟨unlocked, isHead⟩ := first
      obtain rfl := orderly.holds.eq_none unlocked
      obtain ⟨rest, waiters⟩ : ∃ rest, c.waiters = i :: rest := by
        cases queue : c.waiters with
        | nil => simp [queue] at isHead
        | cons head rest =>
          rw [queue] at isHead
          cases isHead
          exact ⟨rest, rfl⟩
      have nodup := orderly.nodup
      rw [waiters, List.nodup_cons] at nodup
      refine ⟨rfl, Orderly.write orderly ?_ fun j => ?_⟩
      · rw [waiters]
        exact nodup.2
      · rw [waiters, List.tail_cons, List.mem_cons]
        refine ⟨fun inside => ⟨?_, Or.inr inside⟩, fun both => both.2.resolve_left both.1⟩
        rintro rfl
        exact nodup.1 inside
    · exact ⟨trivial, orderly⟩
  | draining request =>
    obtain ⟨exchange, rfl, rfl, busy, stage⟩ := orderly.holds.busy phase rfl
    refine ⟨trivial, orderly.put rfl ?_⟩
    generalize c.requests = requests at stage
    generalize c.responses = responses at stage
    cases stage with
    | draining j request => exact .header j request
    | drainingServed j request response => exact .headerServed j request response
  | header request =>
    -- the stages with this phase have no response on the way, or a whole one: never a body first
    obtain ⟨exchange, rfl, rfl, busy, stage⟩ := orderly.holds.busy phase rfl
    generalize requests : c.requests = held at stage
    generalize responses : c.responses = parts at stage
    cases stage with
    | header j request => exact ⟨trivial, orderly⟩
    | headerServed j request response =>
      exact ⟨trivial, orderly.put rfl (.body j request response)⟩
  | body request =>
    obtain ⟨exchange, rfl, rfl, busy, stage⟩ := orderly.holds.busy phase rfl
    generalize requests : c.requests = held at stage
    generalize responses : c.responses = parts at stage
    cases stage with
    | body j request response => exact ⟨rfl, orderly.finish⟩
  | astray =>
    obtain ⟨exchange, rfl, rfl, busy, stage⟩ := orderly.holds.busy phase rfl
    cases stage

/-- **One action.**  A channel on which no call is cancelled does what the specification
allows. -/
theorem Orderly.step (orderly : Orderly c slot) {action : Action ι α β}
    (uncancelled : ∀ j, (c.step action).1 ≠ .cancelled j) :
    slot.Allows (c.step action).1 ∧ Orderly (c.step action).2 (slot.next (c.step action).1) := by
  cases action with
  | call i request => exact orderly.call request
  | turn i => exact orderly.turn i
  | serve response => exact orderly.serve response
  | cancel i =>
    simp only [Channel.step, Channel.cancel] at uncancelled ⊢
    cases phase : c.phase i with
    | idle => exact ⟨trivial, orderly⟩
    | _ =>
      simp only [phase] at uncancelled
      exact absurd rfl (uncancelled i)

end Step

/-! ## Pending calls -/

/-- The request of the call that the caller has under way. -/
def Phase.request? : Phase α → Option α
  | .queued request => some request
  | .draining request => some request
  | .header request => some request
  | .body request => some request
  | .idle => none
  | .astray => none

/-- The requests of the calls under way. -/
def Channel.pending (c : Channel ι α β) (i : ι) : Option α := (c.phase i).request?

section Pending

variable {c : Channel ι α β} {slot : Slot ι α β} {i : ι}

/-- A caller without a call is idle: nobody goes astray. -/
theorem Orderly.phase_eq_idle (orderly : Orderly c slot) (none : c.pending i = none) :
    c.phase i = .idle := by
  unfold Channel.pending at none
  cases phase : c.phase i with
  | idle => rfl
  | astray =>
    obtain ⟨exchange, rfl, rfl, busy, stage⟩ := orderly.holds.busy phase rfl
    cases stage
  | _ =>
    rw [phase] at none
    cases none

/-- The call of the exchange under way is pending. -/
theorem Busy.pending {exchange : Exchange ι α β} (busy : Busy c exchange) :
    c.pending exchange.caller = some exchange.request := by
  have stage := busy.stage
  unfold Channel.pending
  generalize c.phase exchange.caller = phase at stage ⊢
  generalize c.requests = requests at stage
  generalize c.responses = responses at stage
  cases stage <;> rfl

@[simp] theorem pending_serve (c : Channel ι α β) (response : β) :
    (c.serve response).2.pending = c.pending := by
  unfold Channel.serve
  split <;> rfl

variable [DecidableEq ι]

@[simp] theorem pending_put (c : Channel ι α β) (i : ι) (phase : Phase α) :
    (c.put i phase).pending = Function.update c.pending i phase.request? := by
  funext j
  show (Function.update c.phase i phase j).request? = _
  by_cases same : j = i
  · subst same
    rw [Function.update_self, Function.update_self]
  · rw [Function.update_of_ne same, Function.update_of_ne same]
    rfl

/-- A call is pending from when it is made. -/
theorem pending_call (idle : c.phase i = .idle) (request : α) :
    (c.call i request).2.pending = Function.update c.pending i (some request) := by
  simp only [Channel.call, idle]
  split_ifs
  · exact pending_put ..
  · exact pending_put ..

/-- A call is pending no more when it is cancelled. -/
theorem pending_cancel (c : Channel ι α β) (i : ι) :
    (c.cancel i).2.pending = Function.update c.pending i none := by
  unfold Channel.cancel
  cases phase : c.phase i with
  | idle =>
    funext j
    by_cases same : j = i
    · subst same
      rw [Function.update_self]
      show (c.phase j).request? = none
      rw [phase]
      rfl
    · rw [Function.update_of_ne same]
  | _ => exact pending_put ..

/-- Cancelling a call that is pending is reported. -/
theorem cancel_of_pending {request : α} (pending : c.pending i = some request) :
    (c.cancel i).1 = .cancelled i := by
  unfold Channel.pending at pending
  unfold Channel.cancel
  cases phase : c.phase i with
  | idle =>
    rw [phase] at pending
    cases pending
  | _ => rfl

/-- A call stays pending until it returns. -/
theorem pending_turn (c : Channel ι α β) (i : ι) :
    (∃ request response, (c.turn i).1 = .returned i request response ∧
        c.pending i = some request ∧
          (c.turn i).2.pending = Function.update c.pending i none) ∨
      (∀ j request response, (c.turn i).1 ≠ .returned j request response) ∧
        ((∀ j, (c.turn i).1 ≠ .strayed j) → (c.turn i).2.pending = c.pending) := by
  -- a caller that goes on with its call keeps its request
  have onward {c' : Channel ι α β} {phase : Phase α} (same : c'.phase = c.phase)
      (keeps : phase.request? = (c.phase i).request?) : (c'.put i phase).pending = c.pending := by
    rw [pending_put, keeps]
    unfold Channel.pending
    rw [same]
    exact Function.update_eq_self i fun j => (c.phase j).request?
  unfold Channel.turn
  cases phase : c.phase i with
  | queued request =>
    simp only
    split_ifs
    · exact Or.inr ⟨nofun, fun _ => onward rfl (by rw [phase]; rfl)⟩
    · exact Or.inr ⟨nofun, fun _ => rfl⟩
  | draining request => exact Or.inr ⟨nofun, fun _ => onward rfl (by rw [phase]; rfl)⟩
  | header request =>
    simp only
    split
    · exact Or.inr ⟨nofun, fun _ => rfl⟩
    · exact Or.inr ⟨nofun, fun _ => onward rfl (by rw [phase]; rfl)⟩
    · exact Or.inr ⟨nofun, fun stays => absurd rfl (stays i)⟩
  | body request =>
    simp only
    split
    · exact Or.inr ⟨nofun, fun _ => rfl⟩
    · refine Or.inl ⟨request, _, rfl, ?_, pending_put ..⟩
      unfold Channel.pending
      rw [phase]
      rfl
    · exact Or.inr ⟨nofun, fun stays => absurd rfl (stays i)⟩
  | _ => exact Or.inr ⟨nofun, fun _ => rfl⟩

/-- A turn of a channel in order: the call returns, or all calls stay as they are. -/
theorem Orderly.pending_turn (orderly : Orderly c slot) (i : ι) :
    (∃ request response, (c.turn i).1 = .returned i request response ∧
        c.pending i = some request ∧
          (c.turn i).2.pending = Function.update c.pending i none) ∨
      (∀ j request response, (c.turn i).1 ≠ .returned j request response) ∧
        (c.turn i).2.pending = c.pending := by
  refine (SharedChannel.pending_turn c i).imp id fun ⟨silent, keeps⟩ => ⟨silent, keeps ?_⟩
  intro j strayed
  have allows := (orderly.turn i).1
  rw [strayed] at allows
  exact allows

/-- Only a turn returns. -/
theorem not_returned {action : Action ι α β} (other : ∀ j, action ≠ .turn j) (j : ι) (request : α)
    (response : β) : (c.step action).1 ≠ .returned j request response := by
  cases action with
  | call i request =>
    simp only [Channel.step, Channel.call]
    split
    · split_ifs <;> nofun
    · nofun
  | turn i => exact absurd rfl (other i)
  | serve response =>
    simp only [Channel.step, Channel.serve]
    split <;> nofun
  | cancel i =>
    simp only [Channel.step, Channel.cancel]
    split <;> nofun

/-- A call that is pending stays pending, if it does not return. -/
theorem Orderly.pending_step (orderly : Orderly c slot) {action : Action ι α β} {request : α}
    (pending : c.pending i = some request) (uncancelled : ∀ j, (c.step action).1 ≠ .cancelled j) :
    (∃ response, (c.step action).1 = .returned i request response) ∨
      (c.step action).2.pending i = some request ∧
        ∀ request response, (c.step action).1 ≠ .returned i request response := by
  cases action with
  | call j other =>
    refine Or.inr ⟨?_, not_returned nofun i⟩
    cases phase : c.phase j with
    | idle =>
      have apart : i ≠ j := by
        rintro rfl
        unfold Channel.pending at pending
        rw [phase] at pending
        cases pending
      show (c.call j other).2.pending i = _
      rw [pending_call phase, Function.update_of_ne apart]
      exact pending
    | _ =>
      simp only [Channel.step, Channel.call, phase]
      exact pending
  | turn j =>
    rcases orderly.pending_turn j with ⟨own, response, returned, isOwn, after⟩ | ⟨silent, after⟩
    · by_cases same : i = j
      · subst same
        obtain rfl := Option.some.inj (isOwn.symm.trans pending)
        exact Or.inl ⟨response, returned⟩
      · refine Or.inr ⟨?_, fun request' response' absurd => ?_⟩
        · show (c.turn j).2.pending i = _
          rw [after, Function.update_of_ne same]
          exact pending
        · cases returned.symm.trans absurd
          exact same rfl
    · exact Or.inr ⟨(congrFun after i).trans pending, silent i⟩
  | serve response =>
    exact Or.inr ⟨(congrFun (pending_serve c response) i).trans pending, not_returned nofun i⟩
  | cancel j =>
    refine Or.inr ⟨?_, not_returned nofun i⟩
    simp only [Channel.step, Channel.cancel] at uncancelled ⊢
    cases phase : c.phase j with
    | idle => exact pending
    | _ =>
      simp only [phase] at uncancelled
      exact absurd rfl (uncancelled j)

end Pending

/-! ## Whole runs -/

/-- The requests that were written, with their callers. -/
def writes (trace : List (Action ι α β × Report ι α β)) : List (ι × α) :=
  trace.filterMap fun entry =>
    match entry.2 with
    | .wrote i request => some (i, request)
    | _ => none

/-- The requests that the server has answered, with the answers. -/
def serves (trace : List (Action ι α β × Report ι α β)) : List (α × β) :=
  trace.filterMap fun entry =>
    match entry.2 with
    | .served request response => some (request, response)
    | _ => none

/-- The calls that have returned, with what they returned. -/
def returns (trace : List (Action ι α β × Report ι α β)) : List (ι × α × β) :=
  trace.filterMap fun entry =>
    match entry.2 with
    | .returned i request response => some (i, request, response)
    | _ => none

/-- Every request that was written belongs to a call that has returned, or to the exchange
under way. -/
structure Accounts (trace : List (Action ι α β × Report ι α β)) (slot : Slot ι α β) : Prop where
  writes_eq : writes trace = ((returns trace).map fun call => (call.1, call.2.1)) ++
    slot.toList.map fun exchange => (exchange.caller, exchange.request)
  serves_eq : serves trace = ((returns trace).map Prod.snd) ++
    slot.toList.filterMap fun exchange => exchange.response.map (exchange.request, ·)

section Runs

variable {c : Channel ι α β} {slot : Slot ι α β} {i : ι}
variable {trace : List (Action ι α β × Report ι α β)}

theorem writes_append (front back : List (Action ι α β × Report ι α β)) :
    writes (front ++ back) = writes front ++ writes back :=
  List.filterMap_append ..

theorem serves_append (front back : List (Action ι α β × Report ι α β)) :
    serves (front ++ back) = serves front ++ serves back :=
  List.filterMap_append ..

theorem returns_append (front back : List (Action ι α β × Report ι α β)) :
    returns (front ++ back) = returns front ++ returns back :=
  List.filterMap_append ..

theorem Accounts.concat (accounts : Accounts trace slot) {action : Action ι α β}
    {report : Report ι α β} (allows : slot.Allows report) :
    Accounts (trace ++ [(action, report)]) (slot.next report) := by
  -- a return moves the exchange from the slot to the calls that have returned; the rest appends
  constructor
  · rw [writes_append, returns_append, accounts.writes_eq, List.map_append]
    cases report with
    | nothing => exact (List.append_nil _).trans (congrArg (· ++ _) (List.append_nil _).symm)
    | wrote j request =>
      obtain rfl : slot = none := allows
      rfl
    | served request response =>
      obtain ⟨j, rfl⟩ := allows
      exact (List.append_nil _).trans (congrArg (· ++ _) (List.append_nil _).symm)
    | returned j request response =>
      obtain rfl : slot = some ⟨j, request, some response⟩ := allows
      rfl
    | strayed j => exact allows.elim
    | cancelled j => exact allows.elim
  · rw [serves_append, returns_append, accounts.serves_eq, List.map_append]
    cases report with
    | nothing => exact (List.append_nil _).trans (congrArg (· ++ _) (List.append_nil _).symm)
    | wrote j request =>
      obtain rfl : slot = none := allows
      exact (List.append_nil _).trans (congrArg (· ++ _) (List.append_nil _).symm)
    | served request response =>
      obtain ⟨j, rfl⟩ := allows
      rfl
    | returned j request response =>
      obtain rfl : slot = some ⟨j, request, some response⟩ := allows
      rfl
    | strayed j => exact allows.elim
    | cancelled j => exact allows.elim

/-- No call is cancelled in the run. -/
def Uncancelled (trace : List (Action ι α β × Report ι α β)) : Prop :=
  ∀ entry ∈ trace, ∀ j, entry.2 ≠ .cancelled j

/-- The report is of a cancelled call. -/
def Report.isCancelled : Report ι α β → Bool
  | .cancelled _ => true
  | _ => false

theorem uncancelled_of_all (passed : trace.all (fun entry => !entry.2.isCancelled) = true) :
    Uncancelled trace := by
  intro entry inside j isCancelled
  have test := List.all_eq_true.mp passed entry inside
  rw [isCancelled] at test
  cases test

theorem orderly_initial : Orderly ({} : Channel ι α β) none :=
  ⟨⟨rfl, rfl, rfl, fun _ => rfl⟩, List.nodup_nil, fun j => by simp⟩

theorem head?_returns_singleton (entry : Action ι α β × Report ι α β) :
    (returns [entry]).head?.toList = returns [entry] := by
  obtain ⟨action, report⟩ := entry
  cases report <;> rfl

/-- A run in which no call returns. -/
theorem returns_eq_nil
    (silent : ∀ entry ∈ trace, ∀ j request response, entry.2 ≠ .returned j request response) :
    returns trace = [] := by
  refine List.filterMap_eq_nil_iff.mpr fun entry inside => ?_
  split
  · rename_i j request response returned
    exact absurd returned (silent entry inside j request response)
  · rfl

variable [DecidableEq ι] {actions : List (Action ι α β)}

/-- **An orderly channel stays orderly as long as nobody cancels.** -/
theorem Orderly.run (orderly : Orderly c slot)
    (uncancelled : Uncancelled (Trace.trace Channel.step c actions)) :
    ∃ slot', Orderly (Trace.after Channel.step c actions) slot' := by
  induction actions generalizing c slot with
  | nil => exact ⟨slot, orderly⟩
  | cons action later ih =>
    obtain ⟨-, next⟩ := orderly.step (uncancelled _ List.mem_cons_self)
    exact ih next fun entry inside => uncancelled entry (List.mem_cons_of_mem _ inside)

/-- **Every call that has returned has returned the response to its own request**, and at most
one more request was written. -/
theorem accounts
    (uncancelled : Uncancelled (Trace.trace Channel.step ({} : Channel ι α β) actions)) :
    ∃ slot, Orderly (Trace.after Channel.step ({} : Channel ι α β) actions) slot ∧
      Accounts (Trace.trace Channel.step ({} : Channel ι α β) actions) slot := by
  -- from the end: the slot after a run says what the next action may report
  induction actions using List.reverseRecOn with
  | nil => exact ⟨none, orderly_initial, rfl, rfl⟩
  | append_singleton front action ih =>
    rw [Trace.trace_concat] at uncancelled ⊢
    rw [Trace.after_concat]
    obtain ⟨slot, orderly, accounts⟩ := ih fun entry inside =>
      uncancelled entry (List.mem_append_left _ inside)
    obtain ⟨allows, next⟩ := orderly.step
      (uncancelled _ (List.mem_append_right _ List.mem_cons_self))
    exact ⟨_, next, accounts.concat allows⟩

end Runs

end SharedChannel
