import DistroSync.Balance

/-!
# The statistics of the dead letter queue

Tasks leave the dead letter queue of an in-memory broker in four ways: a retry, a
replay-all, a purge of everything and a purge of one queue.  The first three are counted
where they happen.  The last one is a loop in the server around `remove`, which no counter
sees.

`unaccounted` is the number of tasks that such purges took away.  It is what the balance
of the statistics is short of, and what `total_purged` is behind the answers.  It is zero as
long as every purge of one queue finds no dead letter of that queue (`FindsNone`), and so the
statistics are right exactly that long (`dead_letters_balance_iff`).
-/

namespace DistroSync

open Keyed Py

variable {events : List Event} {event : Event} {outcome : Outcome}

/-- Whether an action carries a queue name that a handler takes for a filter. -/
def Action.namesQueue : Action → Bool
  | .command message => (message.get "queue" .null).truthy
  | _ => false

/-- The queue whose dead letters an action purges, if it purges those of one queue. -/
def Action.purges? : Action → Option Json
  | .command message =>
    if commandOf message = some .dlqPurge ∧ (message.get "queue" .null).truthy = true then
      some (message.get "queue" .null)
    else none
  | _ => none

theorem Action.purges?_eq_some {action : Action} {queueName : Json}
    (purges : action.purges? = some queueName) :
    ∃ message, action = .command message ∧ commandOf message = some .dlqPurge ∧
      queueName.truthy = true ∧ message.get "queue" .null = queueName := by
  cases action with
  | command message =>
    simp only [Action.purges?] at purges
    split at purges
    · rename_i isPurge
      obtain ⟨command, named⟩ := isPurge
      cases purges
      exact ⟨message, rfl, command, named, rfl⟩
    · cases purges
  | _ => cases purges

/-- If the event purges one queue, then the broker has no dead letter of that queue. -/
def Event.FindsNone (event : Event) : System → Prop
  | .running broker _ =>
    ∀ queueName, event.action.purges? = some queueName →
      ∀ task ∈ broker.queueManager.deadLetterQueue.tasks.rows, task.inQueue queueName = false
  | .stopped _ => True

/-- No purge of one queue has found a dead letter of it since the process started: each of them
that no crash has followed came upon a broker without one. -/
def Accounted (config : Config) (platform : Platform) (events : List Event) : Prop :=
  ∀ first event last, events = first ++ event :: last →
    (∀ entry ∈ (history config platform events).drop first.length, entry.2 ≠ .crashed) →
      event.FindsNone (reach config platform first)

/-- How an outcome changes the number of dead letters that purges of single queues took away
from the present process. -/
def Outcome.unaccounted (action : Action) (n : Nat) : Outcome → Nat
  | .answered (.purged count) => if action.namesQueue then n + count else n
  | .crashed => 0
  | _ => n

/-- The number of dead letters that purges of single queues took away. -/
def unaccounted (history : List (Event × Outcome)) : Nat :=
  history.foldl (fun n entry => entry.2.unaccounted entry.1.action n) 0

/-- Every task that was received is there, was retried or was purged, and as many were purged
as the purges answered. -/
structure DeadLetterStats.Balanced (answered : Nat) (stats : DeadLetterStats) : Prop where
  received : stats.totalReceived = stats.currentSize + stats.totalRetried + stats.totalPurged
  purged : stats.totalPurged = answered

/-- What the statistics amount to, when purges of single queues took away `lost` tasks and all
purges together answered `answered`. -/
structure DeadLetterQueue.Accounts (lost answered : Nat) (dlq : DeadLetterQueue) : Prop where
  received : dlq.totalReceived = dlq.tasks.rows.length + dlq.totalRetried + dlq.totalPurged + lost
  purged : answered = dlq.totalPurged + lost

/-! ## Operations -/

section Operations

variable {lost answered : Nat} {dlq dlq' : DeadLetterQueue} {qm qm' : QueueManager}

/-- A dead letter that comes is received and held. -/
theorem DeadLetterQueue.Accounts.add (accounts : dlq.Accounts lost answered) {task : Task}
    (absent : dlq.tasks.find? task.taskId = none) (now : Rat) :
    (dlq.add now task).Accounts lost answered := by
  obtain ⟨received, purged⟩ := accounts
  refine ⟨?_, purged⟩
  have stored : (dlq.add now task).tasks.rows.length = dlq.tasks.rows.length + 1 := by
    have rows := Table.rows_put_of_absent (t := dlq.tasks)
      (v := { task with status := .deadLettered, deadLetteredAt := some now }) absent
    simp only [DeadLetterQueue.add, rows, List.length_append, List.length_singleton]
  rw [stored]
  change dlq.totalReceived + 1 = _ + dlq.totalRetried + dlq.totalPurged + lost
  omega

/-- One that goes back is retried. -/
theorem DeadLetterQueue.Accounts.retry (accounts : qm.deadLetterQueue.Accounts lost answered)
    (id : String) : (qm.retry id).2.deadLetterQueue.Accounts lost answered := by
  cases found : qm.deadLetterQueue.tasks.find? id with
  | none =>
    rw [QueueManager.retry_of_absent found]
    exact accounts
  | some task =>
    obtain ⟨received, purged⟩ := accounts
    have fewer := congrArg Multiset.card (Table.coe_rows_of_find? found)
    rw [Multiset.card_cons, Multiset.coe_card, Multiset.coe_card] at fewer
    have dlq_eq : (qm.retry id).2.deadLetterQueue =
        { qm.deadLetterQueue with
          tasks := qm.deadLetterQueue.tasks.erase id
          totalRetried := qm.deadLetterQueue.totalRetried + 1 } := by
      simp only [QueueManager.retry, QueueManager.retryBegin, found, QueueManager.retryFinish,
        QueueManager.requeue, Bool.false_eq_true, if_false, QueueManager.append_deadLetterQueue]
    rw [dlq_eq]
    refine ⟨?_, purged⟩
    simp only
    omega

theorem DeadLetterQueue.Accounts.retryEach (ids : List String)
    (accounts : qm.deadLetterQueue.Accounts lost answered) :
    (DistroSync.retryEach ids qm).2.deadLetterQueue.Accounts lost answered := by
  induction ids generalizing qm with
  | nil => exact accounts
  | cons id rest ih => exact ih (accounts.retry id)

/-- `remove` counts nothing, which is why the purge of a queue is lost. -/
theorem removeEach_totals (ids : List String) (dlq : DeadLetterQueue) :
    (removeEach ids dlq).totalRetried = dlq.totalRetried ∧
      (removeEach ids dlq).totalPurged = dlq.totalPurged := by
  induction ids generalizing dlq with
  | nil => exact ⟨rfl, rfl⟩
  | cons id rest ih => exact ih _

/-- A purge of everything is counted, a purge of one queue is lost. -/
theorem DeadLetterQueue.Accounts.purge (accounts : dlq.Accounts lost answered) {queueName : Json}
    {count : Nat}
    (purged : (count, dlq') = if queueName.truthy then purgeQueue dlq queueName else dlq.purge) :
    dlq'.Accounts (if queueName.truthy then lost + count else lost) (answered + count) := by
  obtain ⟨fewer, same⟩ := card_purged purged
  obtain ⟨received, isAnswered⟩ := accounts
  split at purged
  · rename_i named
    obtain ⟨retried, counted⟩ := removeEach_totals
      ((dlq.tasks.rows.filter fun task => task.inQueue queueName).map Task.taskId) dlq
    cases purged
    rw [if_pos named]
    refine ⟨?_, ?_⟩
    · rw [same, retried, counted]
      omega
    · rw [counted]
      omega
  · rename_i unnamed
    cases purged
    rw [if_neg unnamed]
    refine ⟨?_, ?_⟩
    · change dlq.totalReceived =
        0 + dlq.totalRetried + (dlq.totalPurged + dlq.tasks.rows.length) + lost
      omega
    · change answered + dlq.tasks.rows.length = dlq.totalPurged + dlq.tasks.rows.length + lost
      omega

theorem DeadLetterQueue.Accounts.nack (accounts : qm.deadLetterQueue.Accounts lost answered)
    (distinct : qm.Distinct) {now : Rat} {id : String} {action : NackAction} {task : Task}
    (nacked : qm.negativeAcknowledge now id = (some (action, task), qm')) :
    qm'.deadLetterQueue.Accounts lost answered := by
  obtain ⟨origin, found, spec⟩ := QueueManager.negativeAcknowledge_some nacked
  cases spec with
  | buried exhausted => exact accounts.add (distinct.dead_absent found) now
  | requeued left =>
    rw [QueueManager.appendLeft_deadLetterQueue]
    exact accounts

end Operations

/-! ## Steps -/

section Step

variable {platform : Platform} {env : Env} {m : Machine} {action : Action} {c c' : Core}
  {r : Except Stop Outcome} {lost answered : Nat}

/-- An outcome that reports no purge. -/
def Outcome.KeepsDeadLetters : Outcome → Prop
  | .answered (.purged _) => False
  | .crashed => False
  | _ => True

theorem Outcome.KeepsDeadLetters.unaccounted (keeps : outcome.KeepsDeadLetters) (action : Action)
    (n : Nat) : outcome.unaccounted action n = n := by
  cases outcome with
  | answered response => cases response <;> first | rfl | exact keeps.elim
  | crashed => exact keeps.elim
  | _ => rfl

theorem Outcome.KeepsDeadLetters.discards (keeps : outcome.KeepsDeadLetters) (persistent : Bool)
    (n : Nat) : outcome.discards persistent n = n := by
  cases outcome with
  | answered response => cases response <;> first | rfl | exact keeps.elim
  | crashed => exact keeps.elim
  | _ => rfl

theorem Silent.keepsDeadLetters (silent : Silent r) : (outcomeOf r).KeepsDeadLetters := by
  cases r with
  | error stop =>
    cases stop with
    | raised e => trivial
    | crashed => exact silent.elim
  | ok outcome =>
    cases outcome with
    | answered response => cases response <;> trivial
    | _ => exact silent.elim

/-- The store has no part in the books of the memory. -/
theorem Persist.keepsDeadLetters {crashIn : Option Nat}
    {bound : Except Error (Database → Database)} {success : Outcome}
    (persisted : Persist crashIn c bound success r c') (survived : r ≠ .error .crashed)
    (keeps : success.KeepsDeadLetters) : (outcomeOf r).KeepsDeadLetters := by
  cases persisted with
  | off absent => exact keeps
  | died present binds spent => exact absurd rfl survived
  | refused present fails => trivial
  | committed present binds alive => exact keeps

/-- What the statistics amount to after an event of an in-memory broker. -/
def Core.Accounts (action : Action) (lost answered : Nat) (outcome : Outcome) (c : Core) : Prop :=
  c.queueManager.deadLetterQueue.Accounts (outcome.unaccounted action lost)
    (outcome.discards false answered)

theorem Core.Accounts.of_keeps (keeps : outcome.KeepsDeadLetters)
    (accounts : c.queueManager.deadLetterQueue.Accounts lost answered) :
    c.Accounts action lost answered outcome := by
  unfold Core.Accounts
  rwa [keeps.unaccounted, keeps.discards]

theorem Core.Accounts.of_persist {crashIn : Option Nat}
    {bound : Except Error (Database → Database)} {success : Outcome}
    (persisted : Persist crashIn c bound success r c') (survived : r ≠ .error .crashed)
    (keeps : success.KeepsDeadLetters)
    (accounts : c.queueManager.deadLetterQueue.Accounts lost answered) :
    c'.Accounts action lost answered (outcomeOf r) := by
  refine .of_keeps (persisted.keepsDeadLetters survived keeps) ?_
  rw [persisted.memory.1]
  exact accounts

/-- **Every event of an in-memory broker but a reset keeps the accounts.** -/
theorem Core.Accounts.effect
    (accounts : m.broker.queueManager.deadLetterQueue.Accounts lost answered)
    (distinct : m.broker.queueManager.Distinct) (inMemory : m.broker.walStore = none)
    (noReset : action ≠ .reset) (survived : r ≠ .error .crashed)
    (effect : Effect platform env m action r c) :
    c.Accounts action lost answered (outcomeOf r) := by
  have shut {P : Prop} (opened : m.broker.walStore.isSome = true) : P := by
    rw [inMemory] at opened
    cases opened
  cases effect with
  | quiet idle silent => exact .of_keeps silent.keepsDeadLetters accounts
  | produce command admitted named hashed persisted =>
    refine .of_persist persisted survived trivial ?_
    rw [QueueManager.enqueue_deadLetterQueue]
    exact accounts
  | consumeEmpty command hashed taken =>
    refine .of_keeps trivial ?_
    rw [QueueManager.dequeue_deadLetterQueue taken]
    exact accounts
  | consumeUnhashable command admitted hashed taken unhashable =>
    refine .of_keeps trivial ?_
    rw [QueueManager.dequeue_deadLetterQueue taken]
    exact accounts
  | consume command admitted hashed taken consumer persisted =>
    refine .of_persist persisted survived trivial ?_
    rw [QueueManager.dequeue_deadLetterQueue taken]
    exact accounts
  | ackAborted command admitted named found fails =>
    refine .of_keeps trivial ?_
    rw [QueueManager.acknowledge_deadLetterQueue]
    exact accounts
  | ack command admitted named found passes persisted =>
    refine .of_persist persisted survived trivial ?_
    rw [QueueManager.acknowledge_deadLetterQueue]
    exact accounts
  | nackAborted command admitted named nacked fails =>
    exact .of_keeps trivial (accounts.nack distinct nacked)
  | nack command admitted named nacked passes persisted =>
    exact .of_persist persisted survived trivial (accounts.nack distinct nacked)
  | replayDied command opened found spent => exact shut opened
  | replayDropped command opened found fails => exact shut opened
  | replayCut command opened found decodes unsaved => exact shut opened
  | replay command opened found decodes binds alive => exact shut opened
  | retry command closed named found => exact .of_keeps trivial (accounts.retry _)
  | purge command opened counted persisted => exact shut opened
  | purgeMemory command closed purged => exact accounts.purge purged
  | evict ran ending =>
    obtain ⟨spec, -, -⟩ := evictDeadWorkers_spec ran
    refine .of_keeps ?_ ?_
    · subst ending
      rename_i result registry qm
      cases result <;> trivial
    · rw [spec.deadLetterQueue]
      exact accounts
  | reset persisted => exact absurd rfl noReset
  | replayAll ran =>
    have after := accounts.retryEach
      ((m.broker.queueManager.deadLetterQueue.peek 1000).map Task.taskId)
    rw [ran] at after
    exact .of_keeps trivial after
  | crash => exact absurd rfl survived
  -- the others leave the dead letters alone
  | _ => exact .of_keeps trivial accounts

end Step

/-! ## Whole runs -/

section Run

variable {config : Config} {platform : Platform}

theorem unaccounted_concat
    (shown : (step config platform (reach config platform events) event).1 = outcome) :
    unaccounted (history config platform (events ++ [event])) =
      outcome.unaccounted event.action (unaccounted (history config platform events)) := by
  rw [history_concat, shown]
  simp [unaccounted]

theorem Outcome.Mute.unaccounted (mute : outcome.Mute) (action : Action) :
    outcome.unaccounted action 0 = 0 := by
  cases outcome with
  | answered response => exact mute.elim
  | replayedAll ids => exact mute.elim
  | _ => rfl

/-- Nothing is counted while the broker is down. -/
theorem accounts_mute (none : unaccounted (history config platform events) = 0 ∧
      discarded config (history config platform events) = 0) (mute : outcome.Mute)
    (shown : (step config platform (reach config platform events) event).1 = outcome) :
    unaccounted (history config platform (events ++ [event])) = 0 ∧
      discarded config (history config platform (events ++ [event])) = 0 := by
  rw [unaccounted_concat shown, discarded_concat shown, none.1, none.2]
  exact ⟨mute.unaccounted event.action, mute.discards⟩

/-- **The books balance after every event**, with a term for what is lost. -/
theorem accounts_kept (inMemory : config.persistent = false) :
    Kept config platform
      (fun events _ event => FreshIds events ∧ event.action ≠ .reset)
      (fun events c => c.queueManager.deadLetterQueue.Accounts
        (unaccounted (history config platform events))
        (discarded config (history config platform events)))
      (fun events _ => unaccounted (history config platform events) = 0 ∧
        discarded config (history config platform events) = 0) where
  ran := by
    rintro events broker disk event r c position accounts ⟨fresh, noReset⟩ effect - survived shown
    have sound := @reach_sound config platform events fresh
    rw [position] at sound
    have closed : broker.walStore = none := by
      have store : broker.walStore.isSome = config.persistent := sound.store
      rw [inMemory] at store
      simpa using store
    have after := Core.Accounts.effect (m := { broker, disk, crashIn := event.crashIn }) accounts
      sound.distinct closed noReset survived effect
    rw [unaccounted_concat shown, discarded_concat shown, inMemory]
    exact after
  died := by
    rintro events broker disk event r c - - - - - shown
    rw [unaccounted_concat shown, discarded_concat shown]
    exact ⟨rfl, rfl⟩
  ignored := by
    rintro events disk event none - shown
    have mute : Outcome.ignored.Mute := trivial
    exact accounts_mute none mute shown
  recovered := by
    rintro events disk event r c outcome - - - persistent
    rw [inMemory] at persistent
    cases persistent
  fresh := by
    rintro events disk event outcome none - - mute shown
    have still := accounts_mute none mute shown
    refine ⟨still, ?_⟩
    rw [still.1, still.2]
    exact ⟨rfl, rfl⟩

/-- The events of a run that the process has lived through, with one more event. -/
theorem accounted_concat :
    Accounted config platform (events ++ [event]) ↔
      ((step config platform (reach config platform events) event).1 ≠ .crashed →
        Accounted config platform events ∧
          event.FindsNone (reach config platform events)) := by
  have length : (history config platform events).length = events.length := by
    rw [← List.length_map Prod.fst, history, Trace.map_fst_trace]
  constructor
  · intro accounted survived
    have later {first : List Event} (short : first.length ≤ events.length)
        (alive : ∀ entry ∈ (history config platform events).drop first.length,
          entry.2 ≠ .crashed) :
        ∀ entry ∈ (history config platform (events ++ [event])).drop first.length,
          entry.2 ≠ .crashed := by
      rw [history_concat, List.drop_append_of_le_length (by omega)]
      intro entry inside
      rcases List.mem_append.mp inside with early | last
      · exact alive entry early
      · rwa [List.mem_singleton.mp last]
    refine ⟨?_, ?_⟩
    · rintro first earlier last rfl alive
      refine accounted first earlier (last ++ [event]) (by simp) (later ?_ alive)
      simp
    · refine accounted events event [] rfl (later le_rfl ?_)
      intro entry inside
      rw [List.drop_of_length_le length.le] at inside
      cases inside
  · intro accounted first earlier last split alive
    have short : first.length ≤ events.length := by
      have lengths := congrArg List.length split
      simp only [List.length_append, List.length_cons, List.length_nil] at lengths
      omega
    rw [history_concat, List.drop_append_of_le_length (by omega)] at alive
    obtain ⟨before, now⟩ :=
      accounted (alive _ (List.mem_append_right _ (List.mem_singleton_self _)))
    rcases List.eq_nil_or_concat last with rfl | ⟨front, final, rfl⟩
    · obtain ⟨rfl, same⟩ := List.append_inj' split rfl
      cases same
      exact now
    · rw [List.concat_eq_append, ← List.cons_append, ← List.append_assoc] at split
      obtain ⟨rfl, -⟩ := List.append_inj' split rfl
      exact before first earlier front rfl fun entry inside =>
        alive entry (List.mem_append_left _ inside)

/-- A purge of one queue takes as many dead letters as the broker has of it. -/
theorem findsNone_iff_of_purge {broker : Broker} {disk : Database} {queueName : Json} {count : Nat}
    {dlq : DeadLetterQueue} (purges : event.action.purges? = some queueName)
    (purged : (count, dlq) = purgeQueue broker.queueManager.deadLetterQueue queueName) :
    event.FindsNone (.running broker disk) ↔ count = 0 := by
  have counted : count = ((broker.queueManager.deadLetterQueue.tasks.rows.filter fun task =>
      task.inQueue queueName).map Task.taskId).length := congrArg Prod.fst purged
  rw [counted, List.length_map, List.length_eq_zero_iff, List.filter_eq_nil_iff]
  constructor
  · intro none task stored
    simp [none queueName purges task stored]
  · intro none other isOther task stored
    obtain rfl := Option.some.inj (purges.symm.trans isOther)
    simpa using none task stored

/-- An event that is no purge of one queue leaves the count as it is, if the process survives. -/
theorem unaccounted_of_other {m : Machine} {env : Env} {action : Action}
    {r : Except Stop Outcome} {c : Core} (n : Nat) (survived : r ≠ .error .crashed)
    (other : action.purges? = none) (effect : Effect platform env m action r c) :
    (outcomeOf r).unaccounted action n = n := by
  rcases r with (e | _) | outcome
  · rfl
  · exact absurd rfl survived
  cases outcome with
  | answered response =>
    cases response with
    | purged count =>
      obtain ⟨message, rfl⟩ := effect.command_of_answered
      have unnamed : (message.get "queue" .null).truthy = false := by
        simpa [Action.purges?, effect.of_purged] using other
      simp only [outcomeOf, Outcome.unaccounted, Action.namesQueue, unnamed,
        Bool.false_eq_true, if_false]
    | _ => rfl
  | crashed => exact effect.not_crashed.elim
  | _ => rfl

/-- A surviving event leaves no dead letter unaccounted for exactly if none was before and it
finds none to purge. -/
theorem unaccounted_eq_zero_of_effect {broker : Broker} {disk disk' : Database}
    {r : Except Stop Outcome} {c : Core} {n : Nat} (closed : broker.walStore = none)
    (survived : r ≠ .error .crashed)
    (effect : Effect platform event.env { broker, disk, crashIn := event.crashIn } event.action
      r c) :
    (outcomeOf r).unaccounted event.action n = 0 ↔
      n = 0 ∧ event.FindsNone (.running broker disk') := by
  cases purges : event.action.purges? with
  | some queueName =>
    obtain ⟨message, isCommand, command, named, rfl⟩ := Action.purges?_eq_some purges
    rw [isCommand] at effect
    obtain ⟨count, dlq, rfl, purged⟩ := effect.of_purge command closed
    rw [if_pos named] at purged
    rw [findsNone_iff_of_purge purges purged, isCommand]
    simp only [outcomeOf, Outcome.unaccounted, Action.namesQueue, named, if_true]
    omega
  | none =>
    have spared : event.FindsNone (.running broker disk') := by
      intro queueName isPurge
      rw [purges] at isPurge
      cases isPurge
    rw [unaccounted_of_other n survived purges effect, and_iff_left spared]

/-- No dead letter is unaccounted for exactly as long as the purges find none. -/
theorem unaccounted_eq_zero_iff (inMemory : config.persistent = false) (fresh : FreshIds events) :
    unaccounted (history config platform events) = 0 ↔ Accounted config platform events := by
  induction events using List.reverseRecOn with
  | nil =>
    refine iff_of_true rfl ?_
    intro first event last split
    cases first <;> cases split
  | append_singleton events event ih =>
    have earlier : FreshIds events := fresh.sublist ((List.sublist_append_left _ _).map _)
    have sound := @reach_sound config platform events earlier
    have transition := step_transition config platform (reach config platform events) event
    rw [accounted_concat, unaccounted_concat rfl, ← ih earlier]
    generalize (step config platform (reach config platform events) event).1 = outcome
      at transition ⊢
    generalize (step config platform (reach config platform events) event).2 = next
      at transition
    generalize reach config platform events = system at transition sound ⊢
    generalize unaccounted (history config platform events) = n
    cases transition with
    | @ran broker broker' disk disk' r effect whole survived =>
      have closed : broker.walStore = none := by
        have store : broker.walStore.isSome = config.persistent := sound.store
        rw [inMemory] at store
        simpa using store
      rw [unaccounted_eq_zero_of_effect closed survived effect]
      refine ⟨fun both _ => both, fun both => both ?_⟩
      rcases r with (e | _) | outcome
      · nofun
      · exact absurd rfl survived
      · rintro rfl
        exact effect.not_crashed
    | died effect cut => exact iff_of_true rfl fun survived => absurd rfl survived
    | ignored other => exact ⟨fun none _ => ⟨none, trivial⟩, fun both => (both nofun).1⟩
    | started starts whole recovery fresh =>
      exact ⟨fun none _ => ⟨none, trivial⟩, fun both => (both nofun).1⟩
    | failed starts recovery fresh why =>
      rcases why with ⟨e, rfl, -⟩ | ⟨rfl, -⟩
      · exact ⟨fun none _ => ⟨none, trivial⟩, fun both => (both nofun).1⟩
      · exact iff_of_true rfl fun survived => absurd rfl survived

/-- **The dead letter statistics balance, and `total_purged` is the sum of the answers, exactly
as long as every purge of a single queue finds no dead letter of that queue.** -/
theorem dead_letters_balance_iff {events : List Event} {broker : Broker} {disk : Database}
    (inMemory : config.persistent = false) (fresh : FreshIds events)
    (noReset : ∀ event ∈ events, event.action ≠ .reset)
    (position : reach config platform events = .running broker disk) :
    broker.queueManager.getStats.dlq.Balanced
        (discarded config (history config platform events)) ↔
      Accounted config platform events := by
  rw [← unaccounted_eq_zero_iff inMemory fresh]
  have each : Trace.EachStep (step config platform) System.initial
      (fun events _ event => FreshIds events ∧ event.action ≠ .reset) events := by
    rintro first event last rfl
    refine ⟨?_, noReset event (by simp)⟩
    exact fresh.sublist ((List.sublist_append_left _ _).map _)
  have holds := (@accounts_kept config platform inMemory).holds ⟨rfl, rfl⟩ each
  rw [position] at holds
  obtain ⟨received, purged⟩ := holds
  rw [Broker.core_queueManager] at received purged
  constructor
  · rintro ⟨-, isSum⟩
    simp only [QueueManager.getStats, DeadLetterQueue.getStats] at isSum
    omega
  · intro none
    refine ⟨?_, ?_⟩
    · simp only [QueueManager.getStats, DeadLetterQueue.getStats]
      omega
    · simp only [QueueManager.getStats, DeadLetterQueue.getStats]
      omega

/-- A task is dead-lettered and its queue is purged. -/
def purgedQueueRun : List Event :=
  [.at 0 .start, .at 1 (.produce "q" "p"), .at 2 (.consume "q" "w"), .at 3 (.nack (idAt 1)),
    .at 4 (.send "DLQ_PURGE" [("queue", .str "q")])]

/-- **A purge of one queue is not counted.**  The one dead letter is neither there nor retried
nor purged, though the purge answered that it took one. -/
theorem purged_queue_uncounted :
    ∃ broker disk,
      reach { persistent := false, maxRetries := 1 } .plain purgedQueueRun = .running broker disk ∧
      broker.queueManager.getStats.dlq = ⟨0, 1, 0, 0⟩ ∧
      discarded { persistent := false, maxRetries := 1 }
        (history { persistent := false, maxRetries := 1 } .plain purgedQueueRun) = 1 := by
  obtain ⟨broker, disk, position, shown⟩ := @System.of_passes
    (fun broker _ => decide (broker.queueManager.getStats.dlq = ⟨0, 1, 0, 0⟩))
    (reach { persistent := false, maxRetries := 1 } .plain purgedQueueRun) (by decide +kernel)
  exact ⟨broker, disk, position, of_decide_eq_true shown, by decide +kernel⟩

/-- Three dead letters, of which one is replayed and the others are purged at once, after a
purge of a queue that has none. -/
def purgedRun : List Event :=
  [.at 0 .start, .at 1 (.produce "q" "p"), .at 2 (.produce "q" "p"), .at 3 (.produce "x" "p"),
    .at 4 (.consume "q" "w"), .at 5 (.consume "q" "w"), .at 6 (.consume "x" "w"),
    .at 7 (.nack (idAt 1)), .at 8 (.nack (idAt 2)), .at 9 (.nack (idAt 3)),
    .at 10 (.send "DLQ_PURGE" [("queue", .str "z")]), .at 11 (.dlqReplay (idAt 2)),
    .at 12 (.send "DLQ_PURGE" [])]

theorem dead_letters_balance_purged :
    ∃ broker disk,
      reach { persistent := false, maxRetries := 1 } .plain purgedRun = .running broker disk ∧
      broker.queueManager.getStats.dlq = ⟨0, 3, 1, 2⟩ ∧
      broker.queueManager.getStats.dlq.Balanced
        (discarded { persistent := false, maxRetries := 1 }
          (history { persistent := false, maxRetries := 1 } .plain purgedRun)) := by
  obtain ⟨broker, disk, position, shown⟩ := @System.of_passes
    (fun broker _ => decide (broker.queueManager.getStats.dlq = ⟨0, 3, 1, 2⟩))
    (reach { persistent := false, maxRetries := 1 } .plain purgedRun) (by decide +kernel)
  have others : ∀ event ∈ purgedRun, event.action ≠ .reset := by
    simp [purgedRun, Event.at, Action.produce, Action.consume, Action.nack, Action.dlqReplay,
      Action.send]
  have fresh : FreshIds purgedRun := by decide +kernel
  exact ⟨broker, disk, position, of_decide_eq_true shown,
    (dead_letters_balance_iff rfl fresh others position).mpr
      ((unaccounted_eq_zero_iff rfl fresh).mp (by decide +kernel))⟩

end Run

end DistroSync
