import DistroSync.Invariant

/-!
# Concrete runs

Events for runs that are evaluated rather than reasoned about: everything an event
draws from outside (both clocks and the id) is read off one number, and the messages
are written as the command and its fields.
-/

namespace DistroSync

open Keyed Py

/-- The id whose characters are the binary digits of a number. -/
def Uuid.numbered (n : Nat) : Uuid where
  text := String.ofList (List.ofFn fun i : Fin 36 => if n.testBit i then '1' else '0')
  length_text := by simp

/-- The clocks show `n` seconds and the id drawn is number `n`. -/
def Env.at (n : Nat) : Env where
  time := n
  monotonic := n
  uuid := .numbered n

/-- The id that an event at `n` draws. -/
def idAt (n : Nat) : String := (Uuid.numbered n).text

/-- The numbers with at most 36 binary digits have different ids. -/
theorem idAt_injOn {n k : Nat} (small : n < 2 ^ 36) (small' : k < 2 ^ 36)
    (same : idAt n = idAt k) : n = k := by
  have digits := List.ofFn_injective (String.ofList_injective same)
  refine Nat.eq_of_testBit_eq fun i => ?_
  by_cases inside : i < 36
  · have digit := congrFun digits ⟨i, inside⟩
    cases left : n.testBit i <;> cases right : k.testBit i <;> simp_all
  · have large : 2 ^ 36 ≤ 2 ^ i := Nat.pow_le_pow_right (by decide) (by omega)
    rw [Nat.testBit_lt_two_pow (small.trans_le large),
      Nat.testBit_lt_two_pow (small'.trans_le large)]

/-- An action at `n` seconds, in a process that survives it. -/
def Event.at (n : Nat) (action : Action) : Event where
  action := action
  env := .at n

/-- The same in a process that dies before its committing store call number `k`. -/
def Event.cutAt (n k : Nat) (action : Action) : Event where
  action := action
  env := .at n
  crashIn := some k

/-- A message with a command and fields. -/
def Action.send (command : String) (fields : List (String × Json)) : Action :=
  .command (("command", .str command) :: fields)

namespace Action

/-- A PRODUCE message. -/
def produce (queue payload : String) : Action :=
  send "PRODUCE" [("queue", .str queue), ("task", .str payload)]

/-- A CONSUME message. -/
def consume (queue worker : String) : Action :=
  send "CONSUME" [("queue", .str queue), ("worker_id", .str worker)]

/-- A REGISTER message. -/
def register (worker : String) : Action := send "REGISTER" [("worker_id", .str worker)]

/-- An ACK message, with the fields that the message format documents. -/
def ack (taskId : String) : Action := send "ACK" [("task_id", .str taskId)]

/-- A NACK message, with the fields that the message format documents. -/
def nack (taskId : String) : Action := send "NACK" [("task_id", .str taskId)]

/-- A NACK message that names the worker as well. -/
def nackBy (taskId worker : String) : Action :=
  send "NACK" [("task_id", .str taskId), ("worker_id", .str worker)]

/-- A HEARTBEAT message. -/
def heartbeat (worker : String) : Action := send "HEARTBEAT" [("worker_id", .str worker)]

/-- A DLQ_REPLAY message. -/
def dlqReplay (taskId : String) : Action := send "DLQ_REPLAY" [("task_id", .str taskId)]

end Action

/-- A history, cut at one of its events. -/
theorem history_append_cons (config : Config) (platform : Platform) (front : List Event)
    (event : Event) (back : List Event) :
    history config platform (front ++ event :: back) =
      history config platform front ++
        (event, (step config platform (reach config platform front) event).1) ::
          Trace.trace (step config platform)
            (step config platform (reach config platform front) event).2 back :=
  Trace.trace_append (step config platform) System.initial front (event :: back)

/-- The process is up, and its state passes a test. -/
def System.passes (test : Broker → Database → Bool) : System → Bool
  | .running broker disk => test broker disk
  | .stopped _ => false

theorem System.of_passes {test : Broker → Database → Bool} {system : System}
    (passed : system.passes test = true) :
    ∃ broker disk, system = .running broker disk ∧ test broker disk = true := by
  cases system with
  | running broker disk => exact ⟨broker, disk, rfl, passed⟩
  | stopped disk => cases passed

/-- The exception the event raised. -/
def Outcome.error? : Outcome → Option Error
  | .raised e => some e
  | _ => none

theorem Outcome.of_error? {outcome : Outcome} {e : Error} (shown : outcome.error? = some e) :
    outcome = .raised e := by
  unfold error? at shown
  split at shown
  · cases shown
    rfl
  · cases shown

/-- The event was a CONSUME that returned a task with these attempts. -/
def Outcome.isConsumed (taskId : String) (attempts : Nat) : Outcome → Bool
  | .answered (.consumed delivery) => delivery.taskId = taskId && delivery.attempts = attempts
  | _ => false

theorem Outcome.of_isConsumed {taskId : String} {attempts : Nat} {outcome : Outcome}
    (shown : outcome.isConsumed taskId attempts = true) :
    ∃ delivery, outcome = .answered (.consumed delivery) ∧ delivery.taskId = taskId ∧
      delivery.attempts = attempts := by
  unfold isConsumed at shown
  split at shown
  · obtain ⟨same, tries⟩ := Bool.and_eq_true_iff.mp shown
    exact ⟨_, rfl, of_decide_eq_true same, of_decide_eq_true tries⟩
  · cases shown

/-- The event was an ACK that was answered `ok`. -/
def Outcome.isAcknowledged : Outcome → Bool
  | .answered (.acknowledged _) => true
  | _ => false

theorem Outcome.of_isAcknowledged {outcome : Outcome} (shown : outcome.isAcknowledged = true) :
    ∃ text, outcome = .answered (.acknowledged text) := by
  unfold isAcknowledged at shown
  split at shown
  · exact ⟨_, rfl⟩
  · cases shown

/-- The event was a NACK that was answered `dead_lettered`. -/
def Outcome.isDeadLettered : Outcome → Bool
  | .answered (.negativeAcknowledged .deadLettered _ _) => true
  | _ => false

theorem Outcome.of_isDeadLettered {outcome : Outcome} (shown : outcome.isDeadLettered = true) :
    ∃ attempts text, outcome = .answered (.negativeAcknowledged .deadLettered attempts text) := by
  unfold isDeadLettered at shown
  split at shown
  · exact ⟨_, _, rfl⟩
  · cases shown

/-- The event was a PRODUCE that was answered with this id. -/
def Outcome.isProduced (taskId : String) : Outcome → Bool
  | .answered (.produced id) => id = taskId
  | _ => false

theorem Outcome.of_isProduced {taskId : String} {outcome : Outcome}
    (shown : outcome.isProduced taskId = true) : outcome = .answered (.produced taskId) := by
  unfold isProduced at shown
  split at shown
  · rw [of_decide_eq_true shown]
  · cases shown

end DistroSync
