import DistroSync.Lib.Trace
import DistroSync.Server

/-!
# Runs of the broker

The broker as a machine: TCP commands, passes of the eviction loop, the dashboard's
handlers, crashes and starts.  A crash takes the process and leaves the database; a
start builds a new `BrokerServer` on the database and runs its recovery phase.

Every event may carry a crash point: with `crashIn = some k` the process dies in the
middle of the event, right before its committing store call number `k` (from 0), or,
if it makes no more than `k` such calls, at the end of it, before it can answer.
Between two events the process is either `running` or `stopped`; a stopped broker
ignores everything but a start.
-/

namespace DistroSync

open Keyed Py

/-- What can happen to a broker. -/
inductive Action where
  /-- A message received on a TCP connection. -/
  | command (message : Message)
  /-- A pass of the eviction loop. -/
  | evict (order : SetOrder)
  /-- POST /admin/reset. -/
  | reset
  /-- POST /admin/dlq/replay-all. -/
  | replayAll
  /-- POST /admin/crash-worker, for the active worker number `pick`. -/
  | crashWorker (pick : Nat)
  /-- The process dies between two events. -/
  | crash
  /-- The process is started. -/
  | start

/-- An action, what it draws from outside, and where the process dies during it. -/
structure Event where
  action : Action
  env : Env
  crashIn : Option Nat := none

/-- What comes of an event. -/
inductive Outcome where
  | answered (response : Response)
  /-- The pass, the reset, the worker's crash or the start completed. -/
  | completed
  /-- Replay-all completed, after retrying these tasks. -/
  | replayedAll (taskIds : List String)
  | raised (error : Error)
  | crashed
  | ignored

/-- The broker, with the database it works on. -/
inductive System where
  | running (broker : Broker) (disk : Database)
  | stopped (disk : Database)

/-- The durable state. -/
def System.disk : System → Database
  | .running _ disk => disk
  | .stopped disk => disk

/-- A broker that was never started, on a new database. -/
def System.initial : System := .stopped {}

/-- The program an action runs in a running process. -/
def perform (platform : Platform) (env : Env) : Action → BrokerM Outcome
  | .command message => do return .answered (← dispatch platform env message)
  | .evict order => do
    evictionPass env order
    return .completed
  | .reset => do
    resetHandler env
    return .completed
  | .replayAll => do return .replayedAll (← replayDlqHandler)
  | .crashWorker pick => do
    crashWorkerHandler env pick
    return .completed
  | .crash => throw .crashed
  | .start => return .ignored

/-- How an event ends: a process with a crash point that is still up dies now. -/
def conclude : EStateM.Result Stop Machine Outcome → Outcome × System
  | .ok outcome m =>
    if m.crashIn = none then (outcome, .running m.broker m.disk) else (.crashed, .stopped m.disk)
  | .error (.raised e) m =>
    if m.crashIn = none then (.raised e, .running m.broker m.disk)
    else (.crashed, .stopped m.disk)
  | .error .crashed m => (.crashed, .stopped m.disk)

/-- How a start ends: an exception in the recovery phase ends the process. -/
def concludeStart : EStateM.Result Stop Machine Unit → Outcome × System
  | .ok () m =>
    if m.crashIn = none then (.completed, .running m.broker m.disk)
    else (.crashed, .stopped m.disk)
  | .error (.raised e) m => (.raised e, .stopped m.disk)
  | .error .crashed m => (.crashed, .stopped m.disk)

/-- One event. -/
def step (config : Config) (platform : Platform) (system : System) (event : Event) :
    Outcome × System :=
  match system with
  | .running broker disk =>
    conclude (perform platform event.env event.action
      { broker, disk, crashIn := event.crashIn })
  | .stopped disk =>
    match event.action with
    | .start =>
      concludeStart (recover platform event.env
        { broker := Broker.new config event.env, disk, crashIn := event.crashIn })
    | _ => (.ignored, .stopped disk)

/-- The id an event may give to a new task. -/
def Event.id (event : Event) : String := event.env.uuid.text

/-- The state after the events of a run, from a broker that was never started. -/
abbrev reach (config : Config) (platform : Platform) (events : List Event) : System :=
  Trace.after (step config platform) System.initial events

theorem reach_concat (config : Config) (platform : Platform) (events : List Event)
    (event : Event) :
    reach config platform (events ++ [event]) =
      (step config platform (reach config platform events) event).2 :=
  Trace.after_concat (step config platform) System.initial events event

/-- The events of a run with their outcomes. -/
abbrev history (config : Config) (platform : Platform) (events : List Event) :
    List (Event × Outcome) :=
  Trace.trace (step config platform) System.initial events

theorem history_concat (config : Config) (platform : Platform) (events : List Event)
    (event : Event) :
    history config platform (events ++ [event]) =
      history config platform events ++
        [(event, (step config platform (reach config platform events) event).1)] :=
  Trace.trace_concat (step config platform) System.initial events event

/-- Every entry of a history is a step of the run. -/
theorem history_split {config : Config} {platform : Platform} {events : List Event}
    {event : Event} {outcome : Outcome} {before later : List (Event × Outcome)}
    (split : history config platform events = before ++ (event, outcome) :: later) :
    ∃ front back, events = front ++ event :: back ∧ history config platform front = before ∧
      (step config platform (reach config platform front) event).1 = outcome := by
  obtain ⟨front, back, whole, logged, shown⟩ := Trace.trace_split _ _ split
  exact ⟨front, back, whole, logged, shown.symm⟩

/-- No id is drawn twice. -/
def FreshIds (events : List Event) : Prop := (events.map Event.id).Nodup

instance (events : List Event) : Decidable (FreshIds events) :=
  inferInstanceAs (Decidable (events.map Event.id).Nodup)

theorem FreshIds.front {front back : List Event} (fresh : FreshIds (front ++ back)) :
    FreshIds front := by
  unfold FreshIds at fresh ⊢
  rw [List.map_append] at fresh
  exact (List.nodup_append.mp fresh).1

end DistroSync
