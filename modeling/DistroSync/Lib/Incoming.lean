import DistroSync.Lib.SharedChannel

/-!
# Responses that are under way

The server has answered a call before its caller knows.  `Channel.incoming` is the response
that is on its way to a caller: it is there from the moment in which the server answers
until the call returns, and it is what the call returns.

On a channel in order the response belongs to the exchange in the `Slot`, so what an action
does to it can be read off the action's report.
-/

namespace SharedChannel

universe u v w

variable {ι : Type u} {α : Type v} {β : Type w}

/-- The response, if the part is the body of one. -/
def Part.response? : Part β → Option β
  | .header => none
  | .body response => some response

/-- The response that is on its way to a caller, who is past the lock. -/
def Channel.incoming (c : Channel ι α β) (i : ι) : Option β :=
  if (c.phase i).waits then none else c.responses.findSome? Part.response?

theorem Channel.incoming_of_waits {c : Channel ι α β} {i : ι} (waits : (c.phase i).waits = true) :
    c.incoming i = none :=
  if_pos waits

theorem Stage.findSome?_responses {exchange : Exchange ι α β} {phase : Phase α}
    {requests : List α} {responses : List (Part β)}
    (stage : Stage exchange phase requests responses) :
    responses.findSome? Part.response? = exchange.response := by
  cases stage <;> rfl

/-- Nothing is on its way to a caller without a call. -/
theorem Orderly.incoming_eq_none {c : Channel ι α β} {slot : Slot ι α β} {i : ι}
    (orderly : Orderly c slot) (idle : c.pending i = none) : c.incoming i = none := by
  apply Channel.incoming_of_waits
  rw [orderly.phase_eq_idle idle]
  rfl

section Incoming

variable [DecidableEq ι] {c : Channel ι α β} {slot : Slot ι α β} {i : ι}

/-- The response that the exchange in the slot has for a caller. -/
def Slot.incoming (slot : Slot ι α β) (i : ι) : Option β :=
  slot.bind fun exchange => if exchange.caller = i then exchange.response else none

/-- A channel in order has on the way what the slot says. -/
theorem Orderly.incoming_eq (orderly : Orderly c slot) (i : ι) :
    c.incoming i = slot.incoming i := by
  cases slot with
  | none =>
    have free : Free c := orderly.holds
    exact Channel.incoming_of_waits (free.waits i)
  | some exchange =>
    have busy : Busy c exchange := orderly.holds
    show _ = if exchange.caller = i then exchange.response else none
    split_ifs with own
    · subst own
      unfold Channel.incoming
      rw [busy.stage.not_waits]
      exact busy.stage.findSome?_responses
    · exact Channel.incoming_of_waits (busy.waits i (Ne.symm own))

/-- Only the server serves. -/
theorem not_served {action : Action ι α β} (other : ∀ response, action ≠ .serve response)
    (request : α) (response : β) : (c.step action).1 ≠ .served request response := by
  intro served
  cases action with
  | call i request =>
    simp only [Channel.step, Channel.call] at served
    split at served
    · split_ifs at served
      cases served
    · cases served
  | turn i =>
    simp only [Channel.step, Channel.turn] at served
    split at served
    · split_ifs at served
      cases served
    · cases served
    · split at served <;> cases served
    · split at served <;> cases served
    · cases served
  | serve response => exact other response rfl
  | cancel i =>
    simp only [Channel.step, Channel.cancel] at served
    split at served <;> cases served

/-- Only the server and a return change what is on the way. -/
theorem Orderly.incoming_step (orderly : Orderly c slot) {action : Action ι α β}
    (uncancelled : ∀ j, (c.step action).1 ≠ .cancelled j)
    (unserved : ∀ request response, (c.step action).1 ≠ .served request response)
    (unreturned : ∀ j request response, (c.step action).1 ≠ .returned j request response) :
    (c.step action).2.incoming = c.incoming := by
  obtain ⟨allows, next⟩ := orderly.step uncancelled
  funext i
  rw [next.incoming_eq i, orderly.incoming_eq i]
  cases report : (c.step action).1 with
  | nothing => rfl
  | wrote j request =>
    rw [report] at allows
    obtain rfl : slot = none := allows
    show (if j = i then none else none) = none
    split_ifs <;> rfl
  | served request response => exact absurd report (unserved request response)
  | returned j request response => exact absurd report (unreturned j request response)
  | strayed j =>
    rw [report] at allows
    exact allows.elim
  | cancelled j => exact absurd report (uncancelled j)

/-- **A call returns what was on its way to the caller**, and nothing else was on the way. -/
theorem Orderly.incoming_of_returned (orderly : Orderly c slot) {request : α} {response : β}
    (returned : (c.turn i).1 = .returned i request response) :
    (∀ j, c.incoming j = if i = j then some response else none) ∧
      ∀ j, (c.turn i).2.incoming j = none := by
  obtain ⟨allows, next⟩ := orderly.turn i
  rw [returned] at allows next
  obtain rfl : slot = some ⟨i, request, some response⟩ := allows
  exact ⟨fun j => orderly.incoming_eq j, fun j => next.incoming_eq j⟩

/-- **The server's answer is on its way to the caller of the exchange.** -/
theorem Orderly.incoming_serve (orderly : Orderly c slot) {request : α} {rest : List α}
    (next : c.requests = request :: rest) :
    ∃ caller, c.pending caller = some request ∧ (∀ j, c.incoming j = none) ∧
      ∀ response j, (c.serve response).2.incoming j =
        if caller = j then some response else none := by
  have report (response : β) : (c.serve response).1 = .served request response := by
    unfold Channel.serve
    rw [next]
  cases slot with
  | none =>
    have free : Free c := orderly.holds
    rw [free.requests] at next
    cases next
  | some exchange =>
    have busy : Busy c exchange := orderly.holds
    obtain ⟨caller, owner, answer⟩ := exchange
    have stands := busy.stage.requests_eq
    rw [next] at stands
    cases answer with
    | some response => cases stands
    | none =>
      obtain ⟨rfl, -⟩ := List.cons.inj stands
      refine ⟨caller, busy.pending, fun j => ?_, fun response j => ?_⟩
      · rw [orderly.incoming_eq j]
        show (if caller = j then none else none) = none
        split_ifs <;> rfl
      · obtain ⟨-, after⟩ := orderly.serve response
        rw [report] at after
        exact after.incoming_eq j

end Incoming

end SharedChannel
