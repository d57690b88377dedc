import DistroSync.Lib.Incoming
import DistroSync.WorkerPairing

/-!
# The task that a worker holds

Seen from the broker, a worker has a task from the moment in which the broker answers its
CONSUME to the moment in which the broker answers its ACK or NACK.  The worker itself knows
of the first a little later, when it reads the response, and of the second as well.  The
task that it *holds* is the one between the two moments: the one that a response on its way
assigns, the one that is being executed, and the one whose answer has not reached the
broker.

So what a worker holds does not change by anything that the worker does (`Synced.held_step`),
only when the broker answers it (`Synced.held_serve`).
-/

namespace DistroSync

open Py Trace

namespace BaseWorker

/-- The task that `run` holds where it waits, with this response on its way. -/
def ConsumeLoop.held (loop : ConsumeLoop) (incoming : Option Json) : Option Json :=
  match loop, incoming with
  | .executing taskId, _ => some taskId
  | .acknowledging taskId _, none => some taskId
  | .rejecting taskId _, none => some taskId
  | .consuming, some response => (read response).assignment?.map Assignment.taskId
  | _, _ => none

/-- The task that a worker holds. -/
def Attached.held (s : Attached) : Option Json :=
  s.worker.consumeLoop.held (s.connection.incoming .consume)

/-! ## Turns -/

section Turns

variable {w : BaseWorker} {incoming : Option Json}

theorem held_proceed (w : BaseWorker) : w.proceed.2.consumeLoop.held none = none := by
  unfold proceed
  split_ifs <;> rfl

/-- `run` takes over what was on its way. -/
theorem held_resume (formats : w.Formats) (response : Json) :
    (w.resume response).2.consumeLoop.held none = w.consumeLoop.held (some response) := by
  unfold resume
  cases loop : w.consumeLoop with
  | registering =>
    simp only
    split_ifs
    · exact held_proceed _
    · rfl
  | consuming =>
    simp only [ConsumeLoop.held]
    rcases read response with _ | ⟨taskId, _ | payload⟩ | _ <;> rfl
  | acknowledging taskId result =>
    match result with
    | .ok text => rfl
    | .error ⟨none⟩ => rfl
    -- a NACK would follow for a task that the broker has done with
    | .error ⟨some text⟩ => exact absurd loop (formats taskId text)
  | rejecting taskId error => rfl
  | _ =>
    show w.consumeLoop.held none = _
    rw [loop]
    rfl

theorem held_wake (idle : w.request? .consume = none → incoming = none) :
    w.wake.2.consumeLoop.held incoming = w.consumeLoop.held incoming := by
  -- `run` goes on from a sleep with nothing on its way
  have onward (rests : w.consumeLoop = .polling ∨ w.consumeLoop = .yielding) :
      w.proceed.2.consumeLoop.held incoming = w.consumeLoop.held incoming := by
    have nothing : incoming = none := by
      apply idle
      rcases rests with loop | loop <;> simp only [request?, loop]
    rw [nothing, held_proceed]
    rcases rests with loop | loop
    · rw [loop]
      rfl
    · rw [loop]
      rfl
  unfold wake
  cases loop : w.consumeLoop with
  | connecting => rfl
  | polling => exact (onward (Or.inl loop)).trans (by rw [loop])
  | yielding => exact (onward (Or.inr loop)).trans (by rw [loop])
  | _ =>
    show w.consumeLoop.held incoming = _
    rw [loop]

theorem held_executed {outcome : Outcome} (idle : w.request? .consume = none → incoming = none)
    (presentable : w.presentable (.executed outcome) = true) :
    (w.executed outcome).2.consumeLoop.held incoming = w.consumeLoop.held incoming := by
  unfold executed
  cases loop : w.consumeLoop with
  | executing taskId =>
    have nothing : incoming = none := idle (by simp only [request?, loop])
    rw [nothing]
    simp only [BaseWorker.presentable, loop] at presentable
    rcases outcome with (⟨_ | text⟩ | text) | ⟨_ | text⟩ | _ <;> first | rfl | cases presentable
  | _ =>
    show w.consumeLoop.held incoming = _
    rw [loop]

end Turns

/-! ## Events -/

section Events

variable {s : Attached} {slot : SharedChannel.Slot Coroutine Message Json} {event : Event}

/-- What a move sends changes nothing about what is on the way. -/
theorem incoming_move {c : Connection} (orderly : SharedChannel.Orderly c slot) {move : Move}
    (uncancelled : SharedChannel.Uncancelled
      (trace SharedChannel.Channel.step c move.activity?.toList)) :
    (after SharedChannel.Channel.step c move.activity?.toList).incoming = c.incoming := by
  cases move with
  | wait => rfl
  | execute taskId payload => rfl
  | send caller message =>
    exact orderly.incoming_step (uncancelled _ List.mem_cons_self)
      (SharedChannel.not_served nofun) (SharedChannel.not_returned nofun)
  | cancelHeartbeat =>
    exact orderly.incoming_step (uncancelled _ List.mem_cons_self)
      (SharedChannel.not_served nofun) (SharedChannel.not_returned nofun)

/-- The turn that brings a call to its end. -/
theorem turn_of_returned? {caller who : Coroutine} {request : Message} {response : Json}
    (returns : s.returned? (.turn caller) = some (who, request, response)) :
    (s.connection.turn caller).1 = .returned who request response := by
  change (SharedChannel.returns [(_, (s.connection.turn caller).1)]).head? = _ at returns
  cases report : (s.connection.turn caller).1 with
  | returned i request response =>
    rw [report] at returns
    cases returns
    rfl
  | _ =>
    rw [report] at returns
    cases returns

/-- A turn in which no call returns. -/
theorem not_returned_of_returned? {caller : Coroutine}
    (returns : s.returned? (.turn caller) = none) (who : Coroutine) (request : Message)
    (response : Json) : (s.connection.turn caller).1 ≠ .returned who request response := by
  intro report
  change (SharedChannel.returns [(_, (s.connection.turn caller).1)]).head? = _ at returns
  rw [report] at returns
  cases returns

/-- Who is cancelled outside of a `_send` and of an execution holds nothing. -/
theorem Synced.held_of_cancel (synced : Synced s)
    (presentable : s.worker.presentable .cancel = true)
    (uncancelled : SharedChannel.Uncancelled (s.step .cancel).1.occurrences) : s.held = none := by
  have empty := synced.inHand_of_cancel presentable uncancelled
  have unasked : s.worker.request? .consume = none := by
    by_contra busy
    obtain ⟨request, waits⟩ := Option.ne_none_iff_exists'.mp busy
    rw [← synced.pending_eq] at waits
    have first : (SharedChannel.Action.cancel .consume, (s.connection.cancel .consume).1) ∈
        (s.step .cancel).1.occurrences := List.mem_cons_self
    exact uncancelled _ first .consume (SharedChannel.cancel_of_pending waits)
  unfold Attached.held
  unfold inHand at empty
  cases loop : s.worker.consumeLoop with
  | executing taskId | acknowledging taskId result | rejecting taskId error =>
    rw [loop] at empty
    cases empty
  | consuming => simp [request?, loop] at unasked
  | _ => rfl

/-- **Nothing that a worker does changes what it holds.** -/
theorem Synced.held_step (synced : Synced s) (orderly : SharedChannel.Orderly s.connection slot)
    (formats : s.worker.Formats) (presentable : s.worker.presentable event = true)
    (uncancelled : SharedChannel.Uncancelled (s.step event).1.occurrences)
    (own : ∀ response, event ≠ .serve response) : (s.step event).2.held = s.held := by
  have split : (s.step event).1.occurrences =
      trace SharedChannel.Channel.step s.connection event.activity?.toList ++
        trace SharedChannel.Channel.step (s.arrived event) (s.react event).1.activity?.toList :=
    trace_append _ _ _ _
  rw [split] at uncancelled
  have arrives : SharedChannel.Uncancelled
      (trace SharedChannel.Channel.step s.connection event.activity?.toList) :=
    fun entry inside => uncancelled entry (List.mem_append_left _ inside)
  have moves : SharedChannel.Uncancelled (trace SharedChannel.Channel.step (s.arrived event)
      (s.react event).1.activity?.toList) :=
    fun entry inside => uncancelled entry (List.mem_append_right _ inside)
  -- the worker's move does not matter, so what is on the way is known from the event
  obtain ⟨slot', orderly'⟩ := orderly.run arrives
  have connection : (s.step event).2.connection.incoming = (s.arrived event).incoming := by
    show (after SharedChannel.Channel.step s.connection (s.activities event)).incoming = _
    unfold Attached.activities
    rw [after_append]
    exact incoming_move orderly' moves
  show (s.react event).2.consumeLoop.held ((s.step event).2.connection.incoming .consume) = s.held
  rw [connection]
  have idle (unasked : s.worker.request? .consume = none) :
      s.connection.incoming .consume = none := by
    apply orderly.incoming_eq_none
    rw [synced.pending_eq, unasked]
  cases synced.arrival orderly event with
  | @returned caller request response returns waits pending =>
    rw [Attached.react_of_some returns]
    obtain ⟨before, after⟩ := orderly.incoming_of_returned (turn_of_returned? returns)
    have nothing : (s.arrived (.turn caller)).incoming .consume = none := after .consume
    rw [nothing]
    unfold Attached.held
    rw [before .consume]
    cases caller with
    | heartbeat =>
      show s.worker.beaten.2.consumeLoop.held none = _
      rw [consumeLoop_beaten]
      rfl
    | consume => exact held_resume formats response
  | silent returns other pending =>
    rw [Attached.react_of_none returns]
    cases event with
    | turn caller =>
      have still : (s.arrived (.turn caller)).incoming = s.connection.incoming :=
        orderly.incoming_step (arrives _ List.mem_cons_self) (SharedChannel.not_served nofun)
          (not_returned_of_returned? returns)
      rw [still]
      cases caller with
      | heartbeat =>
        show s.worker.beat.2.consumeLoop.held _ = _
        rw [consumeLoop_beat]
        rfl
      | consume => exact held_wake idle
    | executed outcome => exact held_executed idle presentable
    | serve response => exact absurd rfl (own response)
    | shutdown => rfl
    | cancel => exact absurd rfl other
  | cancelled returns pending =>
    rw [Attached.react_of_none returns]
    refine Eq.trans ?_ (synced.held_of_cancel presentable (split ▸ uncancelled)).symm
    rfl

/-- **The broker's answer decides what the worker holds next.** -/
theorem Synced.held_serve (synced : Synced s) (orderly : SharedChannel.Orderly s.connection slot)
    {request : Message} {rest : List Message} (next : s.connection.requests = request :: rest) :
    ∃ caller, s.worker.request? caller = some request ∧
      s.held = s.worker.consumeLoop.held none ∧
      ∀ response, (s.step (.serve response)).2.held =
        s.worker.consumeLoop.held (if caller = .consume then some response else none) := by
  obtain ⟨caller, waits, before, after⟩ := orderly.incoming_serve next
  rw [synced.pending_eq] at waits
  refine ⟨caller, waits, ?_, fun response => ?_⟩
  · unfold Attached.held
    rw [before]
  · show s.worker.consumeLoop.held ((s.connection.serve response).2.incoming .consume) = _
    rw [after]

end Events

end BaseWorker

end DistroSync
