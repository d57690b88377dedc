import DistroSync.ErrorAtomicity

/-!
# Attempts and deliveries

The `attempts` of a task is a field that `dequeue` counts up, that the store calls of
CONSUME and NACK copy into the task's row, that recovery reads back, and that a retry
from the dead letter queue resets.  `deliveries` is what it stands for: how often
CONSUME has returned the task since it was enqueued or last retried, read off the
history alone.

The two are related by an invariant `Counted R`, over memory and live rows, for a
relation `R` of the count and the field.  With `≤` it holds of every run.  With `=` it
needs two conditions: no CONSUME raises after it took its task, which counts an attempt
that nobody got; and no replay-all resets a task of which a live row is left, for the row
keeps the old number.  `Exact` adds that no NACK raises after it has taken its task out of
flight, so that each is answered with what it decided.
-/

namespace DistroSync

open Keyed Py

variable {events : List Event} {event : Event} {env : Env} {crashIn : Option Nat}
  {r : Except Stop Outcome} {outcome : Outcome} {c : Core} {qm qm' : QueueManager} {l l' : Ledger}
  {db : Database} {task : Task} {now : Rat}

/-! ## The count -/

/-- How an outcome changes the number of deliveries of `t`. -/
def Outcome.recount (t : String) (n : Nat) : Outcome → Nat
  | .answered (.consumed delivery) => if delivery.taskId = t then n + 1 else n
  | .answered (.replayed _ newTaskId) => if newTaskId = t then 0 else n
  | .replayedAll taskIds => if t ∈ taskIds then 0 else n
  | _ => n

/-- The number of times CONSUME has returned `t` since it was enqueued or last retried. -/
def deliveries (t : String) (history : List (Event × Outcome)) : Nat :=
  history.foldl (fun n entry => entry.2.recount t n) 0

theorem deliveries_concat (config : Config) (platform : Platform) (events : List Event)
    (event : Event) (t : String) :
    deliveries t (history config platform (events ++ [event])) =
      (step config platform (reach config platform events) event).1.recount t
        (deliveries t (history config platform events)) := by
  rw [history_concat]
  simp [deliveries]

/-- The count of every task after an outcome. -/
def Outcome.tally (outcome : Outcome) (count : String → Nat) : String → Nat :=
  fun t => outcome.recount t (count t)

/-- Outcomes that report neither a delivery nor a retry. -/
def Outcome.Uncounted (outcome : Outcome) : Prop := ∀ t n, outcome.recount t n = n

theorem Outcome.Uncounted.tally_eq (uncounted : outcome.Uncounted) (count : String → Nat) :
    outcome.tally count = count :=
  funext fun t => uncounted t (count t)

/-- A request that is refused delivers nothing. -/
theorem Silent.uncounted (silent : Silent r) :
    (outcomeOf r).Uncounted := by
  intro t n
  cases r with
  | error stop =>
    cases stop with
    | raised e => rfl
    | crashed => exact silent.elim
  | ok outcome =>
    cases outcome with
    | answered response => cases response <;> first | rfl | exact silent.elim
    | _ => exact silent.elim

theorem Persist.uncounted {c' : Core} {bound : Except Error (Database → Database)}
    {success : Outcome} (persisted : Persist crashIn c bound success r c')
    (uncounted : success.Uncounted) :
    (outcomeOf r).Uncounted := by
  cases persisted with
  | off absent => exact uncounted
  | died present binds spent => exact fun t n => rfl
  | refused present fails => exact fun t n => rfl
  | committed present binds alive => exact uncounted

/-- An event whose result reports nothing shows nothing. -/
theorem Ended.uncounted (ended : Ended event r outcome) (uncounted : (outcomeOf r).Uncounted) :
    outcome.Uncounted := by
  cases ended with
  | ran whole survived => exact uncounted
  | died cut => exact fun t n => rfl

/-! ## The rows -/

section Rows

variable {R : Nat → Nat → Prop} {count : String → Nat} {db : Database}

/-- The attempts of the live rows agree with the count. -/
def Database.Counted (R : Nat → Nat → Prop) (count : String → Nat) (db : Database) : Prop :=
  ∀ row ∈ db.tasks, row.live = true → R (count row.taskId) row.attempts

/-- A row that is written must agree with the count. -/
theorem Database.Counted.saveTask {row : TaskRow} (counted : db.Counted R count)
    (agrees : R (count row.taskId) row.attempts) : (db.saveTask row).Counted R count := by
  intro other stored live
  rcases Table.mem_upsert.mp stored with rfl | ⟨old, -⟩
  · exact agrees
  · exact counted other old live

/-- A row that is updated gets attempts that agree with the new count, or is no longer live;
the count of the other tasks may not change. -/
theorem Database.Counted.updateTaskStatus {count' : String → Nat} {taskId : String}
    {status : TaskStatus} {attempts : Option Nat} {worker : Option (Option String)}
    (counted : db.Counted R count) (others : ∀ t, t ≠ taskId → count' t = count t)
    (agrees : status.live = true → ∃ k, attempts = some k ∧ R (count' taskId) k) :
    (db.updateTaskStatus taskId status attempts worker now).Counted R count' := by
  intro row stored live
  rcases Database.mem_updateTaskStatus.mp stored with ⟨old, other⟩ | ⟨origin, old, rfl, rfl⟩
  · rw [others row.taskId other]
    exact counted row old live
  · obtain ⟨k, rfl, marked⟩ := agrees live
    exact marked

theorem Database.Counted.mono {db' : Database} (counted : db.Counted R count)
    (fewer : ∀ row ∈ db'.tasks, row ∈ db.tasks) : db'.Counted R count :=
  fun row stored live => counted row (fewer row stored) live

end Rows

/-- The laws of a relation between the count and the attempts. -/
structure Tallies (R : Nat → Nat → Prop) : Prop where
  zero : R 0 0
  succ : ∀ {n k}, R n k → R (n + 1) (k + 1)

/-- The attempts of the tasks that are pending or in flight agree with the count. -/
structure Ledger.Counted (R : Nat → Nat → Prop) (count : String → Nat) (l : Ledger) : Prop where
  pending : ∀ task ∈ l.pending, R (count task.taskId) task.attempts
  inFlight : ∀ task ∈ l.inFlight, R (count task.taskId) task.attempts

/-- The attempts in memory and on file agree with the count. -/
structure Counted (R : Nat → Nat → Prop) (count : String → Nat) (c : Core) : Prop where
  memory : c.queueManager.ledger.Counted R count
  rows : c.disk.Counted R count

/-- No CONSUME raises after it took its task, and no process dies during an event; or an
attempt more does not matter. -/
def Delivers (R : Nat → Nat → Prop) (platform : Platform) (m : Machine) (env : Env)
    (action : Action) : Prop :=
  (∀ n k, R n k → R n (k + 1)) ∨
    m.crashIn = none ∧ ∀ message, action = .command message →
      commandOf message = some .consume → ¬Hazard platform env m message

/-- No live row is left of a task that replay-all retries, which are the first thousand dead
letters in memory; or zero agrees with anything. -/
def Resets (R : Nat → Nat → Prop) (m : Machine) (action : Action) : Prop :=
  (∀ k, R 0 k) ∨
    (action = .replayAll → ∀ row ∈ m.disk.tasks, row.live = true →
      row.taskId ∉ (m.broker.queueManager.deadLetterQueue.peek 1000).map Task.taskId)

section Step

variable {R : Nat → Nat → Prop} {count : String → Nat} {platform : Platform} {event : Event}
  {m : Machine} {r : Except Stop Outcome} {c : Core} {outcome : Outcome}

/-- A new id had no deliveries to forget. -/
theorem tally_replayed_fresh {original replayed : String} (unseen : count replayed = 0) :
    (Outcome.answered (.replayed original replayed)).tally count = count := by
  funext t
  by_cases same : replayed = t
  · subst same
    exact (if_pos rfl).trans unseen.symm
  · exact if_neg same

/-! ### The rows after an event

Most events leave the live rows alone and report nothing that counts; the lemmas here are for
the others, one for each kind of statement. -/

/-- Rows that an event has not touched, where it reports nothing. -/
theorem Database.Counted.still (rows : db.Counted R count) (ended : Ended event r outcome)
    (uncounted : (outcomeOf r).Uncounted) :
    db.Counted R (outcome.tally count) := by
  rw [(ended.uncounted uncounted).tally_eq]
  exact rows

/-- A store call whose statements keep the rows in step, and whose command reports nothing. -/
theorem Database.Counted.persisted {c' : Core} {bound : Except Error (Database → Database)}
    {success : Outcome} (rows : c.disk.Counted R count)
    (persisted : Persist crashIn c bound success r c') (ended : Ended event r outcome)
    (uncounted : success.Uncounted)
    (keeps : ∀ statements, bound = .ok statements → (statements c.disk).Counted R count) :
    c'.disk.Counted R (outcome.tally count) := by
  refine Database.Counted.still ?_ ended (persisted.uncounted uncounted)
  exact persisted.disk_elim (P := Database.Counted R count) rows keeps

/-- A new task is saved with no attempts. -/
theorem Database.Counted.saved {row : TaskRow} (rows : db.Counted R count) (tallies : Tallies R)
    (unseen : count task.taskId = 0) (unused : task.attempts = 0)
    (binds : platform.taskRow task now = .ok row) :
    (db.saveTask row).Counted R count := by
  obtain ⟨isId, -, -, attempts, -⟩ := Platform.taskRow_ok binds
  refine rows.saveTask ?_
  rw [isId, attempts, unused, unseen]
  exact tallies.zero

/-- The row of a task that CONSUME returns gets the new number.  If the process dies between
the commit and the answer, the number is one too large. -/
theorem Database.Counted.consumed {c' : Core} {bound : Except Error (Option (Option String))}
    (rows : db.Counted R count) (isDisk : c.disk = db) (volatile : c.walStore = none → db = {})
    (tallies : Tallies R) (agrees : R (count task.taskId) (task.attempts - 1))
    (delivered : 0 < task.attempts) (lax : event.crashIn = none ∨ ∀ n k, R n k → R n (k + 1))
    (persisted : Persist crashIn c
      (bound.map fun text db =>
        db.updateTaskStatus task.taskId .inFlight (some task.attempts) text now)
      (.answered (.consumed
        { taskId := task.taskId
          queueName := task.queueName
          payload := task.payload
          attempts := task.attempts })) r c') (ended : Ended event r outcome) :
    c'.disk.Counted R (outcome.tally count) := by
  subst isDisk
  have again : task.attempts - 1 + 1 = task.attempts := Nat.sub_add_cancel delivered
  cases persisted with
  | off absent =>
    rw [volatile absent]
    exact fun row stored => absurd stored (Table.not_mem_empty row)
  | died present binds spent => exact rows.still ended fun _ _ => rfl
  | refused present fails => exact rows.still ended fun _ _ => rfl
  | committed present binds alive =>
    obtain ⟨text, -, rfl⟩ := Exec.of_map_eq_ok binds
    cases ended with
    | ran whole survived =>
      refine rows.updateTaskStatus (fun t other => if_neg (Ne.symm other)) fun _ =>
        ⟨_, rfl, ?_⟩
      simp only [outcomeOf, Outcome.tally, Outcome.recount, if_true]
      exact again ▸ tallies.succ agrees
    | died cut =>
      refine rows.updateTaskStatus (fun _ _ => rfl) fun _ => ⟨_, rfl, ?_⟩
      rcases lax with whole | lax
      · rcases cut with cut | cut
        · exact absurd whole cut
        · cases cut
      · exact again ▸ lax _ _ agrees

/-- The statements of a NACK delete the row or copy the attempts of the task. -/
theorem Database.Counted.nackStatements {walStore : Option Connection} {dlq : DeadLetterQueue}
    {action : NackAction} {statements : Database → Database} (rows : db.Counted R count)
    (agrees : R (count task.taskId) task.attempts)
    (binds : nackStatements platform env walStore dlq action task = .ok statements) :
    (statements db).Counted R count := by
  cases action with
  | deadLettered =>
    obtain ⟨row, -, -, rfl⟩ := nackStatements_deadLettered binds
    exact rows.mono fun other stored => (Table.mem_erase.mp stored).1
  | requeued =>
    cases binds
    exact rows.updateTaskStatus (fun _ _ => rfl) fun _ => ⟨_, rfl, agrees⟩

/-- Replay-all changes no row, so it may not count one of them anew. -/
theorem Resets.replayedAll {ids : List String} (resets : Resets R m .replayAll)
    (rows : m.disk.Counted R count)
    (ran : retryEach ((m.broker.queueManager.deadLetterQueue.peek 1000).map Task.taskId)
      m.broker.queueManager = (ids, qm)) (ended : Ended event (.ok (.replayedAll ids)) outcome) :
    m.disk.Counted R (outcome.tally count) := by
  have listed : ids = (m.broker.queueManager.deadLetterQueue.peek 1000).map Task.taskId := by
    rw [← QueueManager.retryEach_peek, ran]
  cases ended with
  | died cut => exact rows
  | ran whole survived =>
    intro row stored live
    change R (if row.taskId ∈ ids then 0 else count row.taskId) row.attempts
    split_ifs with retried
    · rcases resets with any | spares
      · exact any _
      · rw [listed] at retried
        exact absurd retried (spares rfl row stored live)
    · exact rows row stored live

/-- **The rows after an event.** -/
theorem Counted.rows_effect (tallies : Tallies R) (counted : Counted R count m.core)
    (distinct : m.broker.queueManager.Distinct)
    (volatile : m.broker.walStore = none → m.disk = {})
    (unseen : count event.env.uuid.text = 0) (crash : m.crashIn = event.crashIn)
    (delivers : Delivers R platform m event.env event.action) (resets : Resets R m event.action)
    (effect : Effect platform event.env m event.action r c) (ended : Ended event r outcome) :
    c.disk.Counted R (outcome.tally count) := by
  have rows : m.disk.Counted R count := counted.rows
  generalize event.action = action at effect delivers resets
  cases effect with
  | quiet idle silent => exact rows.still ended silent.uncounted
  | produce command admitted named hashed persisted =>
    refine Database.Counted.persisted rows persisted ended (fun _ _ => rfl) ?_
    intro statements binds
    obtain ⟨row, bound, rfl⟩ := Exec.of_map_eq_ok binds
    exact rows.saved tallies unseen rfl bound
  | consumeUnhashable command admitted hashed taken unhashable =>
    exact rows.still ended fun _ _ => rfl
  | consume command admitted hashed taken consumer persisted =>
    obtain ⟨head, rest, rfl, split, -⟩ := QueueManager.ledger_dequeue_some distinct taken
    have agrees : R (count head.taskId) head.attempts :=
      counted.memory.pending head (by
        change head ∈ m.broker.queueManager.ledger.pending
        rw [split]
        exact Multiset.mem_cons_self _ _)
    refine rows.consumed rfl volatile tallies agrees (Nat.succ_pos _) ?_ persisted ended
    -- a crash after the commit leaves a row that nobody was told of
    rcases delivers with lax | ⟨whole, -⟩
    · exact Or.inr lax
    · exact Or.inl (crash.symm.trans whole)
  | ack command admitted named found passes persisted =>
    refine Database.Counted.persisted rows persisted ended (fun _ _ => rfl) ?_
    intro statements binds
    cases binds
    exact rows.updateTaskStatus (fun _ _ => rfl) fun live => by cases live
  | nack command admitted named nacked passes persisted =>
    obtain ⟨origin, found, spec⟩ := QueueManager.negativeAcknowledge_some nacked
    refine Database.Counted.persisted rows persisted ended (fun _ _ => rfl) ?_
    intro statements binds
    refine rows.nackStatements ?_ binds
    rw [spec.taskId_eq, spec.attempts_eq]
    exact counted.memory.inFlight origin (Table.mem_of_find? found)
  | replayDropped command opened found fails =>
    exact Database.Counted.still rows ended fun _ _ => rfl
  | replayCut command opened found decodes unsaved =>
    refine Database.Counted.still rows ended ?_
    cases unsaved <;> exact fun _ _ => rfl
  | replay command opened found decodes binds alive =>
    have saved := rows.saved tallies unseen rfl binds
    cases ended with
    | ran whole survived =>
      simp only [outcomeOf, tally_replayed_fresh unseen]
      exact saved
    | died cut => exact saved
  | retry command closed named found =>
    rw [show (Core.disk _) = ({} : Database) from volatile closed]
    exact fun row stored => absurd stored (Table.not_mem_empty row)
  | purge command opened counted' persisted =>
    refine Database.Counted.persisted rows persisted ended (fun _ _ => rfl) ?_
    intro statements binds
    obtain ⟨name, -, rfl⟩ := Exec.of_map_eq_ok binds
    cases name <;> exact rows
  | @evict order result registry qm r ran ending =>
    refine Database.Counted.still rows ended ?_
    rw [ending]
    cases result <;> exact fun _ _ => rfl
  | reset persisted =>
    refine Database.Counted.persisted rows persisted ended (fun _ _ => rfl) ?_
    intro statements binds
    cases binds
    exact fun row stored => absurd stored (Table.not_mem_empty row)
  | replayAll ran => exact resets.replayedAll rows ran ended
  -- the others do not write to the table of tasks
  | _ => exact rows.still ended fun _ _ => rfl

/-! ### The memory after an event -/

/-- A task that comes to pending must have been counted right. -/
theorem Ledger.Counted.add (counted : l.Counted R count)
    (agrees : R (count task.taskId) task.attempts) (pending : l'.pending = task ::ₘ l.pending)
    (inFlight : ∀ other ∈ l'.inFlight, other ∈ l.inFlight) : l'.Counted R count where
  pending := by
    intro other inside
    rw [pending] at inside
    rcases Multiset.mem_cons.mp inside with rfl | old
    · exact agrees
    · exact counted.pending other old
  inFlight other inside := counted.inFlight other (inFlight other inside)

theorem Ledger.Counted.mono (counted : l.Counted R count) (pending : l'.pending = l.pending)
    (inFlight : ∀ other ∈ l'.inFlight, other ∈ l.inFlight) :
    l'.Counted R count where
  pending := pending ▸ counted.pending
  inFlight other inside := counted.inFlight other (inFlight other inside)

/-- The delivered task gets the new count, the others keep theirs. -/
theorem Ledger.Counted.deliver {count' : String → Nat} {head : Task} {rest : Multiset Task}
    {workerId : Json} (counted : l.Counted R count)
    (apart : ∀ other, other ∈ rest ∨ other ∈ l.inFlight → other.taskId ≠ head.taskId)
    (before : l.pending = head ::ₘ rest) (pending : l'.pending = rest)
    (inFlight : l'.inFlight = head.deliver workerId ::ₘ l.inFlight)
    (others : ∀ t, t ≠ head.taskId → count' t = count t)
    (agrees : R (count' head.taskId) (head.attempts + 1)) : l'.Counted R count' where
  pending := by
    intro other inside
    rw [pending] at inside
    rw [others _ (apart other (Or.inl inside))]
    exact counted.pending other (before ▸ Multiset.mem_cons_of_mem inside)
  inFlight := by
    intro other inside
    rw [inFlight] at inside
    rcases Multiset.mem_cons.mp inside with rfl | old
    · exact agrees
    · rw [others _ (apart other (Or.inr old))]
      exact counted.inFlight other old

theorem QueueManager.Distinct.apart_head {head : Task} {rest : Multiset Task}
    (distinct : qm.Distinct) (split : qm.ledger.pending = head ::ₘ rest) :
    ∀ other, other ∈ rest ∨ other ∈ qm.ledger.inFlight → other.taskId ≠ head.taskId := by
  rintro other (waiting | flying)
  · exact distinct.ne_of_pending split waiting
  · refine (distinct.apart.pending_inFlight head ?_ other flying).symm
    rw [split]
    exact Multiset.mem_cons_self _ _

/-- A CONSUME that returns the task counts once in both. -/
theorem Ledger.Counted.delivered {queue : Scalar} {workerId : Json}
    (counted : qm.ledger.Counted R count) (tallies : Tallies R) (distinct : qm.Distinct)
    (taken : qm.dequeue queue workerId = (some task, qm')) :
    qm'.ledger.Counted R ((Outcome.answered (.consumed
      { taskId := task.taskId
        queueName := task.queueName
        payload := task.payload
        attempts := task.attempts })).tally count) := by
  obtain ⟨head, rest, rfl, split, ledger⟩ := QueueManager.ledger_dequeue_some distinct taken
  have agrees := counted.pending head (split ▸ Multiset.mem_cons_self _ _)
  refine counted.deliver (distinct.apart_head split) split (by rw [ledger]) (by rw [ledger])
    (fun t other => if_neg (Ne.symm other)) ?_
  simp only [Outcome.tally, Outcome.recount, Task.deliver_taskId, if_true]
  exact tallies.succ agrees

/-- One that takes the task and raises counts in the attempts only. -/
theorem Ledger.Counted.overcounted {queue : Scalar} {workerId : Json}
    (counted : qm.ledger.Counted R count) (distinct : qm.Distinct)
    (taken : qm.dequeue queue workerId = (some task, qm')) (lax : ∀ n k, R n k → R n (k + 1)) :
    qm'.ledger.Counted R count := by
  obtain ⟨head, rest, rfl, split, ledger⟩ := QueueManager.ledger_dequeue_some distinct taken
  have agrees := counted.pending head (split ▸ Multiset.mem_cons_self _ _)
  exact counted.deliver (distinct.apart_head split) split (by rw [ledger]) (by rw [ledger])
    (fun _ _ => rfl) (lax _ _ agrees)

theorem Delivers.lax {message : Message} (delivers : Delivers R platform m env (.command message))
    (command : commandOf message = some .consume) (admits : Admits platform env m message .consume)
    (interrupted : Interrupted platform env m message .consume) : ∀ n k, R n k → R n (k + 1) := by
  rcases delivers with lax | ⟨-, safe⟩
  · exact lax
  · exact absurd ⟨_, command, admits, interrupted⟩ (safe message rfl command)

/-- Retried tasks start again. -/
theorem Ledger.Counted.retried {taken : String → Prop} {count' : String → Nat}
    (counted : qm.ledger.Counted R count) (distinct : qm.Distinct)
    (retries : QueueManager.Retries taken qm qm') (dead : ∀ id, taken id →
      ∃ task ∈ qm.ledger.dead, task.taskId = id) (reset : ∀ t, taken t → count' t = 0)
    (others : ∀ t, ¬taken t → count' t = count t) (zero : R 0 0) : qm'.ledger.Counted R count' where
  pending := by
    intro task inside
    rcases (retries.returns.mem_pending task).mp inside with old | ⟨origin, -, isTaken, rfl⟩
    · have spared : ¬taken task.taskId := by
        intro isTaken
        obtain ⟨other, buried, same⟩ := dead _ isTaken
        exact distinct.apart.pending_dead task old other buried same.symm
      rw [others _ spared]
      exact counted.pending task old
    · rw [Task.revive_taskId, reset _ isTaken]
      exact zero
  inFlight := by
    intro task inside
    rw [retries.inFlight] at inside
    have spared : ¬taken task.taskId := by
      intro isTaken
      obtain ⟨other, buried, same⟩ := dead _ isTaken
      exact distinct.apart.inFlight_dead task inside other buried same.symm
    rw [others _ spared]
    exact counted.inFlight task inside

/-- A NACK changes no attempts. -/
theorem Ledger.Counted.nacked {id : String} {action : NackAction}
    (counted : qm.ledger.Counted R count) (distinct : qm.Distinct)
    (nacked : qm.negativeAcknowledge now id = (some (action, task), qm')) :
    qm'.ledger.Counted R count := by
  obtain ⟨origin, found, spec⟩ := QueueManager.negativeAcknowledge_some nacked
  cases action with
  | deadLettered =>
    rw [QueueManager.ledger_buried distinct found spec]
    exact counted.mono rfl fun other inside => (Table.mem_erase.mp inside).1
  | requeued =>
    rw [QueueManager.ledger_requeued found spec]
    have agrees : R (count origin.release.taskId) origin.release.attempts :=
      counted.inFlight origin (Table.mem_of_find? found)
    exact counted.add agrees rfl fun other inside => (Table.mem_erase.mp inside).1

/-- **The memory after an event that the process survives.** -/
theorem Counted.memory_effect (tallies : Tallies R) (counted : Counted R count m.core)
    (distinct : m.broker.queueManager.Distinct) {used : List String}
    (stored : m.disk.Sound platform used) (unseen : count event.env.uuid.text = 0)
    (delivers : Delivers R platform m event.env event.action)
    (effect : Effect platform event.env m event.action r c) (survived : r ≠ .error .crashed) :
    c.queueManager.ledger.Counted R ((outcomeOf r).tally count) := by
  have memory : m.broker.queueManager.ledger.Counted R count := counted.memory
  generalize event.action = action at effect delivers
  cases effect with
  | quiet idle silent =>
    rw [silent.uncounted.tally_eq]
    exact memory
  | produce command admitted named hashed persisted =>
    rw [(persisted.uncounted fun _ _ => rfl).tally_eq, persisted.memory.1]
    rw [QueueManager.ledger_enqueue]
    exact memory.add (unseen ▸ tallies.zero) rfl fun _ => id
  | consumeEmpty command hashed taken =>
    simp only [QueueManager.ledger_dequeue_none taken]
    exact memory
  | @consumeUnhashable message queue task qm command admitted hashed taken unhashable =>
    -- the attempt was counted, but nobody was told
    exact memory.overcounted distinct taken
      (delivers.lax command admitted ⟨queue, task, qm, hashed, taken, Or.inl unhashable⟩)
  | @consume message queue worker task qm r c command admitted hashed taken consumer persisted =>
    have told := memory.delivered tallies distinct taken
    cases persisted with
    | off absent => exact told
    | died present binds spent => exact absurd rfl survived
    | refused present fails =>
      have unbound := (optionalTextOf_error_iff admitted.2.1).mp (map_error_iff.mp ⟨_, fails⟩)
      exact memory.overcounted distinct taken (delivers.lax command admitted
        ⟨queue, task, qm, hashed, taken, Or.inr ⟨present, unbound⟩⟩)
    | committed present binds alive => exact told
  | ackAborted command admitted named found fails =>
    simp only [QueueManager.ledger_acknowledge distinct found]
    exact memory.mono rfl fun other inside => (Table.mem_erase.mp inside).1
  | ack command admitted named found passes persisted =>
    rw [(persisted.uncounted fun _ _ => rfl).tally_eq, persisted.memory.1]
    simp only [QueueManager.ledger_acknowledge distinct found]
    exact memory.mono rfl fun other inside => (Table.mem_erase.mp inside).1
  | nackAborted command admitted named nacked fails =>
    exact memory.nacked distinct nacked
  | nack command admitted named nacked passes persisted =>
    rw [(persisted.uncounted fun _ _ => rfl).tally_eq, persisted.memory.1]
    exact memory.nacked distinct nacked
  | replayDied command opened found spent => exact absurd rfl survived
  | replayCut command opened found decodes unsaved =>
    exact absurd (stored.died_of_unsaved found decodes unsaved).1 survived
  | replay command opened found decodes binds alive =>
    simp only [outcomeOf, tally_replayed_fresh unseen, QueueManager.ledger_enqueue]
    exact memory.add (unseen ▸ tallies.zero) rfl fun _ => id
  | @retry message id task command closed named found =>
    refine memory.retried distinct (QueueManager.retry_retries _ id) ?_ ?_ ?_ tallies.zero
    · rintro other rfl
      exact ⟨task, Table.mem_of_find? found, Table.key_of_find? found⟩
    · rintro other rfl
      exact if_pos rfl
    · exact fun other spared => if_neg (Ne.symm spared)
  | purge command opened counted' persisted =>
    rw [(persisted.uncounted fun _ _ => rfl).tally_eq, persisted.memory.1]
    exact memory
  | purgeMemory command closed purged => exact ⟨memory.pending, memory.inFlight⟩
  | @evict order result registry qm r ran ending =>
    have uncounted : (outcomeOf r).Uncounted := by
      rw [ending]
      cases result <;> exact fun _ _ => rfl
    rw [uncounted.tally_eq]
    obtain ⟨requeues, -⟩ := evictDeadWorkers_spec ran
    constructor
    · intro task inside
      rcases (requeues.returns.mem_pending task).mp inside with old | ⟨origin, flying, -, rfl⟩
      · exact memory.pending task old
      · exact memory.inFlight origin flying
    · exact fun task inside =>
        memory.inFlight task ((requeues.returns.mem_source task).mp inside).1
  | reset persisted =>
    rw [(persisted.uncounted fun _ _ => rfl).tally_eq, persisted.memory.1]
    exact ⟨fun task none => absurd none (Multiset.notMem_zero task),
      fun task none => absurd none (Multiset.notMem_zero task)⟩
  | @replayAll ids qm ran =>
    obtain ⟨retries, dead⟩ := QueueManager.retries_of_retryEach ran
    exact memory.retried distinct retries dead (fun t retried => if_pos retried)
      (fun t spared => if_neg spared) tallies.zero
  | crash => exact absurd rfl survived
  -- the others move no task
  | _ => exact memory

/-- During the recovery phase: the rows that are still to come agree with the count, and so do
the memory and the file so far. -/
def Agreeing (R : Nat → Nat → Prop) (count : String → Nat) (rows : List TaskRow) (c : Core) :
    Prop :=
  (∀ row ∈ rows, R (count row.taskId) row.attempts) ∧ Counted R count c

/-- A restored task has the attempts of its row. -/
theorem Agreeing.recoverRow {row : TaskRow} {rest : List TaskRow} {payload : Json}
    (agreeing : Agreeing R count (row :: rest) c) :
    Agreeing R count rest (c.recoverRow env row payload) := by
  obtain ⟨live, counted⟩ := agreeing
  have agrees := live row (by simp)
  refine ⟨fun other later => live other (List.mem_cons_of_mem _ later), ?_, ?_⟩
  · simp only [Core.recoverRow, QueueManager.ledger_enqueueRecovered]
    exact counted.memory.add agrees rfl fun _ => id
  · exact counted.rows.updateTaskStatus (fun _ _ => rfl) fun _ => ⟨_, rfl, agrees⟩

/-- The recovery phase gives every task the attempts of its row. -/
theorem Recovery.counted {config : Config} {crashes : Prop} {disk : Database} {r : Except Stop Unit}
    (rows : disk.Counted R count)
    (recovery : Recovery platform env crashes disk.loadPendingTasks (startCore config env disk)
      r c) :
    c.disk.Counted R count ∧ (r = .ok () → c.queueManager.ledger.Counted R count) := by
  have start : Agreeing R count disk.loadPendingTasks (startCore config env disk) := by
    refine ⟨fun row live => ?_, ⟨?_, ?_⟩, rows⟩
    · obtain ⟨stored, isLive⟩ := Database.mem_loadPendingTasks.mp live
      exact rows row stored isLive
    · exact fun task none => absurd none (Multiset.notMem_zero task)
    · exact fun task none => absurd none (Multiset.notMem_zero task)
  obtain ⟨rest, reached, ⟨-, counted⟩, same, complete⟩ := recovery.invariant start
    fun _ _ _ _ _ agreeing => agreeing.recoverRow
  refine ⟨same ▸ counted.rows, fun done => ?_⟩
  rw [(complete done).2]
  exact counted.memory

end Step

/-! ## Whole runs -/

section Run

variable {R : Nat → Nat → Prop} {config : Config} {platform : Platform}

/-- The deliveries of every task in a run. -/
def countAfter (config : Config) (platform : Platform) (events : List Event) : String → Nat :=
  fun t => deliveries t (history config platform events)

theorem countAfter_concat
    (shown : (step config platform (reach config platform events) event).1 = outcome) :
    countAfter config platform (events ++ [event]) =
      outcome.tally (countAfter config platform events) := by
  funext t
  exact shown ▸ deliveries_concat config platform events event t

/-- The step condition for `R`. -/
def Tolerant (R : Nat → Nat → Prop) (platform : Platform) : System → Event → Prop
  | .running broker disk, event =>
    Delivers R platform { broker, disk, crashIn := event.crashIn } event.env event.action ∧
      Resets R { broker, disk, crashIn := event.crashIn } event.action
  | .stopped _, _ => True

/-- A process that is not up delivers nothing. -/
theorem Outcome.Mute.uncounted (mute : outcome.Mute) : outcome.Uncounted := by
  intro t n
  cases outcome with
  | answered response => exact mute.elim
  | replayedAll ids => exact mute.elim
  | _ => rfl

/-- What was not drawn was not delivered. -/
def Unseen (config : Config) (platform : Platform) (events : List Event) : Prop :=
  ∀ t, t ∉ drawn events → countAfter config platform events t = 0

theorem Unseen.concat (unseen : Unseen config platform events)
    (shown : (step config platform (reach config platform events) event).1 = outcome)
    (known : ∀ delivery, outcome = .answered (.consumed delivery) →
      delivery.taskId ∈ drawn events) : Unseen config platform (events ++ [event]) := by
  intro t notDrawn
  rw [drawn_concat, List.mem_append, not_or] at notDrawn
  rw [countAfter_concat shown]
  have zero := unseen t notDrawn.1
  cases outcome with
  | answered response =>
    cases response with
    | consumed delivery =>
      refine (if_neg ?_).trans zero
      rintro rfl
      exact notDrawn.1 (known delivery rfl)
    | replayed original replayed =>
      change (if replayed = t then 0 else _) = 0
      split_ifs
      · rfl
      · exact zero
    | _ => exact zero
  | replayedAll ids =>
    change (if t ∈ ids then 0 else _) = 0
    split_ifs
    · rfl
    · exact zero
  | _ => exact zero

/-- A delivered task was drawn before. -/
theorem Core.Sound.consumed_drawn {used : List String} {broker : Broker} {disk : Database}
    {action : Action} {delivery : Delivery} (sound : (broker.core disk).Sound config platform used)
    (effect : Effect platform env { broker, disk, crashIn } action
      (.ok (.answered (.consumed delivery))) c) : delivery.taskId ∈ used := by
  obtain ⟨message, rfl⟩ := effect.command_of_answered
  obtain ⟨queue, worker, task, -, taken, -, -, isTask, -⟩ := effect.of_consumed
  have distinct : broker.queueManager.Distinct := sound.distinct
  obtain ⟨head, rest, rfl, split, -⟩ := QueueManager.ledger_dequeue_some distinct taken
  have waiting : head ∈ broker.queueManager.ledger.pending :=
    split ▸ Multiset.mem_cons_self _ _
  have known : head.taskId ∈ used := sound.mem_used (Or.inl waiting)
  rw [isTask]
  exact known

/-- **Counts and attempts agree after every event**, up to the relation `R`. -/
theorem counted_kept (tallies : Tallies R) :
    Kept config platform
      (fun events system event => DrawsFresh events system event ∧ Tolerant R platform system event)
      (fun events c => c.Sound config platform (drawn events) ∧
        Counted R (countAfter config platform events) c ∧ Unseen config platform events)
      (fun events disk => (disk.Sound platform (drawn events) ∧
          (config.persistent = false → disk = {})) ∧
        disk.Counted R (countAfter config platform events) ∧ Unseen config platform events) where
  ran := by
    rintro events broker disk event r c position ⟨sound, counted, unseen⟩
      ⟨fresh, delivers, resets⟩ effect whole survived shown
    have distinct : broker.queueManager.Distinct := sound.distinct
    have volatile : broker.walStore = none → disk = {} := sound.volatile_of_closed
    refine ⟨?_, ⟨?_, ?_⟩, unseen.concat shown fun delivery isDelivery => ?_⟩
    · rw [drawn_concat]
      exact sound.effect fresh effect
    · rw [countAfter_concat shown]
      exact Counted.memory_effect (m := { broker, disk, crashIn := event.crashIn }) tallies counted
        distinct sound.disk (unseen _ fresh) delivers effect survived
    · rw [countAfter_concat shown]
      exact Counted.rows_effect (m := { broker, disk, crashIn := event.crashIn }) tallies counted
        distinct volatile (unseen _ fresh) rfl delivers resets effect (.ran whole survived)
    · obtain ⟨-, rfl⟩ := (isDelivery ▸ Ended.ran whole survived : Ended event r _).of_answered
      exact sound.consumed_drawn effect
  -- the memory is lost, so only the rows matter
  died := by
    rintro events broker disk event r c position ⟨sound, counted, unseen⟩
      ⟨fresh, delivers, resets⟩ effect cut shown
    have distinct : broker.queueManager.Distinct := sound.distinct
    have volatile : broker.walStore = none → disk = {} := sound.volatile_of_closed
    have after := sound.effect fresh effect
    refine ⟨?_, ?_, unseen.concat shown fun delivery isDelivery => by cases isDelivery⟩
    · rw [drawn_concat]
      exact ⟨after.disk, after.volatile⟩
    · rw [countAfter_concat shown]
      exact Counted.rows_effect (m := { broker, disk, crashIn := event.crashIn }) tallies counted
        distinct volatile (unseen _ fresh) rfl delivers resets effect (.died cut)
  ignored := by
    rintro events disk event ⟨sound, counted, unseen⟩ ⟨fresh, -⟩ shown
    refine ⟨(sound_preserved config platform).ignored sound fresh shown, ?_,
      unseen.concat shown fun delivery isDelivery => by cases isDelivery⟩
    rw [countAfter_concat shown]
    exact counted
  recovered := by
    rintro events disk event r c outcome ⟨sound, counted, unseen⟩ ⟨fresh, -⟩ - persistent recovery
      mute shown
    obtain ⟨onDisk, complete⟩ := (sound_preserved config platform).recovered sound fresh persistent
      recovery mute shown
    have still : Unseen config platform (events ++ [event]) :=
      unseen.concat shown fun delivery isDelivery => by rw [isDelivery] at mute; exact mute.elim
    obtain ⟨rows, memory⟩ := recovery.counted counted
    rw [countAfter_concat shown, mute.uncounted.tally_eq]
    exact ⟨⟨onDisk, rows, still⟩, fun done => ⟨complete done, ⟨memory done, rows⟩, still⟩⟩
  fresh := by
    rintro events disk event outcome ⟨sound, counted, unseen⟩ ⟨fresh, -⟩ isVolatile mute shown
    have still : Unseen config platform (events ++ [event]) :=
      unseen.concat shown fun delivery isDelivery => by rw [isDelivery] at mute; exact mute.elim
    have started := (sound_preserved config platform).fresh sound fresh isVolatile mute shown
    rw [countAfter_concat shown, mute.uncounted.tally_eq]
    refine ⟨⟨⟨started.disk, sound.2⟩, counted, still⟩, started, ⟨⟨?_, ?_⟩, counted⟩, still⟩
    · exact fun task none => absurd none (Multiset.notMem_zero task)
    · exact fun task none => absurd none (Multiset.notMem_zero task)

/-! ### What is in flight has the status `in_flight` -/

/-- Every task in flight says so. -/
def Ledger.Airborne (l : Ledger) : Prop := ∀ task ∈ l.inFlight, task.status = .inFlight

/-- Only a delivery puts a task in flight, and it sets the status. -/
theorem Moved.airborne {id : String} {maxRetries : Nat} {retries : Prop}
    (moved : Moved id maxRetries retries l l') (airborne : l.Airborne) : l'.Airborne := by
  cases moved with
  | still => exact airborne
  | created fresh unused => exact airborne
  | delivered split =>
    intro task inside
    rcases Multiset.mem_cons.mp inside with rfl | old
    · rfl
    · exact airborne task old
  | acknowledged split =>
    exact fun task inside => airborne task (split ▸ Multiset.mem_cons_of_mem inside)
  | buried split => exact fun task inside => airborne task (split ▸ Multiset.mem_cons_of_mem inside)
  | requeued split left =>
    exact fun task inside => airborne task (split ▸ Multiset.mem_cons_of_mem inside)
  | evicted returns completed dead =>
    exact fun task inside => airborne task ((returns.mem_source task).mp inside).1
  | retried may returns inFlight completed =>
    exact fun task inside => airborne task (inFlight ▸ inside)
  | purged fewer => exact airborne
  | cleared => exact fun task none => absurd none (Multiset.notMem_zero task)

theorem airborne_preserved :
    Preserved config platform DrawsFresh
      (fun events c => c.Sound config platform (drawn events) ∧ c.queueManager.ledger.Airborne)
      (fun events disk => disk.Sound platform (drawn events) ∧
        (config.persistent = false → disk = {})) := by
  refine Preserved.ofMemory id ?_ ?_ ?_
  · intro events broker disk event r c position sound airborne fresh effect
    exact (effect.moved sound.distinct).airborne airborne
  · intro events disk event c sound fresh persistent recovery task inside
    rw [recovery.frame.1] at inside
    exact absurd inside (Multiset.notMem_zero task)
  · intro events disk event fresh volatile task none
    exact absurd none (Multiset.notMem_zero task)

/-- A NACK is decided by the attempts alone. -/
theorem QueueManager.Nacked.deadLettered_iff {task' : Task} {action : NackAction}
    (nacked : QueueManager.Nacked qm now task action task' qm')
    (airborne : task.status = .inFlight) :
    action = .deadLettered ↔ qm.maxRetries ≤ task.attempts := by
  cases nacked with
  | buried exhausted =>
    rw [airborne] at exhausted
    simpa using exhausted
  | requeued left => simpa using left

/-! ### Exact counts -/

/-- The step condition for exact counts: a running process dies between events only, no CONSUME
and no NACK raises after its checks, and no replay-all retries a task that has a live row. -/
def Exact (platform : Platform) : System → Event → Prop
  | .running broker disk, event =>
    event.crashIn = none ∧
    (∀ message, event.action = .command message →
      commandOf message = some .consume ∨ commandOf message = some .nack →
      ¬Hazard platform event.env { broker, disk, crashIn := event.crashIn } message) ∧
    (event.action = .replayAll → ∀ row ∈ disk.tasks, row.live = true →
      row.taskId ∉ (broker.queueManager.deadLetterQueue.peek 1000).map Task.taskId)
  | .stopped _, _ => True

theorem Exact.tolerant {system : System} (exactly : Exact platform system event) :
    Tolerant (· = ·) platform system event := by
  cases system with
  | running broker disk =>
    obtain ⟨whole, safe, spares⟩ := exactly
    exact ⟨Or.inr ⟨whole, fun message received command => safe message received (Or.inl command)⟩,
      Or.inr spares⟩
  | stopped disk => trivial

/-- Exact counts. -/
theorem tallies_eq : Tallies (· = ·) where
  zero := rfl
  succ := congrArg Nat.succ

/-- Counts that the attempts may exceed. -/
theorem tallies_le : Tallies (· ≤ ·) where
  zero := le_rfl
  succ := Nat.succ_le_succ

/-- A NACK of a task in flight that is not interrupted is answered with what the queue manager
has decided. -/
theorem Effect.answered_of_nack {m : Machine} {message : Message} {t : String}
    (whole : m.crashIn = none) (command : commandOf message = some .nack)
    (named : message.get "task_id" .null = .str t) (nonempty : t ≠ "")
    (flying : m.broker.queueManager.inFlight.find? t = some task)
    (safe : ¬Hazard platform env m message)
    (effect : Effect platform env m (.command message) r c) :
    ∃ action rejected text, r = .ok (.answered (.negativeAcknowledged action rejected.attempts
        text)) ∧
      QueueManager.Nacked m.broker.queueManager env.time task action rejected c.queueManager := by
  have admits : Admits platform env m message .nack := ⟨t, task, named, nonempty, flying⟩
  obtain ⟨id, action, rejected, qm, named', nacked, memory, ending⟩ :=
    effect.of_nack command admits
  cases named.symm.trans named'
  obtain ⟨origin, found, spec⟩ := QueueManager.negativeAcknowledge_some nacked
  cases flying.symm.trans found
  rw [← memory] at spec
  rcases ending with ⟨e, fails, -⟩ | ⟨-, persisted⟩
  · exact absurd ⟨_, command, admits, t, action, rejected, qm, named, nacked,
      Or.inl (completion_error_iff.mp ⟨e, fails⟩)⟩ safe
  · refine ⟨action, rejected, nackMessage platform message action, ?_, spec⟩
    cases persisted with
    | off absent => rfl
    | died present binds spent =>
      rw [whole] at spent
      cases spent
    | refused present fails =>
      exact absurd ⟨_, command, admits, t, action, rejected, qm, named, nacked,
        Or.inr ⟨present, nackStatements_error_iff.mp ⟨_, fails⟩⟩⟩ safe
    | committed present binds alive => rfl

/-- The ids that are drawn are not empty. -/
theorem ne_empty_of_drawn {t : String} (known : t ∈ drawn events) :
    t ≠ "" := by
  obtain ⟨event, -, rfl⟩ := List.mem_map.mp known
  intro empty
  have length := event.env.uuid.length_text
  rw [show event.env.uuid.text = "" from empty] at length
  cases length

/-- **Attempt counts are exact over whole histories.**  In a run with exact steps, the attempts
that a CONSUME returns are one more than the earlier deliveries of the task since it was
enqueued or last retried; and a NACK of a task in flight is answered, with the number of these
deliveries, and `dead_lettered` if they have reached the maximum and `requeued` otherwise. -/
theorem attempts_eq_deliveries {front : List Event} {event : Event}
    (fresh : FreshIds (front ++ [event]))
    (exactly : Trace.EachStep (step config platform) System.initial
      (fun _ system event => Exact platform system event) (front ++ [event])) :
    (∀ delivery, (step config platform (reach config platform front) event).1 =
        .answered (.consumed delivery) →
      delivery.attempts = 1 + deliveries delivery.taskId (history config platform front)) ∧
    ∀ message t broker disk task, event.action = .command message →
      commandOf message = some .nack → message.get "task_id" .null = .str t →
      reach config platform front = .running broker disk →
      broker.queueManager.inFlight.find? t = some task →
      ∃ text, (step config platform (reach config platform front) event).1 =
        .answered (.negativeAcknowledged
          (if config.maxRetries ≤ deliveries t (history config platform front)
            then .deadLettered else .requeued)
          (deliveries t (history config platform front)) text) := by
  have drawsFresh := @FreshIds.drawsFresh config platform _ fresh
  have holds := (counted_kept tallies_eq).holds
    ⟨⟨Database.sound_empty, fun _ => rfl⟩, fun row none => absurd none (Table.not_mem_empty row),
      fun _ _ => rfl⟩
    (drawsFresh.front.and (exactly.front.mono fun _ _ _ step => step.tolerant))
  have aloft := airborne_preserved.holds ⟨Database.sound_empty, fun _ => rfl⟩ drawsFresh.front
  constructor
  · intro delivery answered
    obtain ⟨broker, disk, broker', disk', position, -, -, effect⟩ := step_answered answered
    rw [position] at holds
    obtain ⟨sound, counted, -⟩ := holds
    have distinct : broker.queueManager.Distinct := sound.distinct
    obtain ⟨message, received⟩ := effect.command_of_answered
    rw [received] at effect
    obtain ⟨queue, worker, task, -, taken, -, -, isTask, tries, -⟩ := effect.of_consumed
    obtain ⟨head, rest, rfl, split, -⟩ := QueueManager.ledger_dequeue_some distinct taken
    have waiting : head ∈ broker.queueManager.ledger.pending :=
      split ▸ Multiset.mem_cons_self _ _
    have agrees : deliveries head.taskId (history config platform front) = head.attempts :=
      counted.memory.pending head waiting
    rw [tries, isTask, Task.deliver_taskId, agrees, Task.deliver_attempts, Nat.add_comm]
  · intro message t broker disk task received command named position found
    have exactHere := exactly.last
    rw [show Trace.after (step config platform) System.initial front = .running broker disk from
      position] at exactHere
    obtain ⟨whole, safe, -⟩ := exactHere
    rw [position] at holds aloft ⊢
    obtain ⟨sound, counted, -⟩ := holds
    have flying : task ∈ broker.queueManager.ledger.inFlight := Table.mem_of_find? found
    have isId : task.taskId = t := Table.key_of_find? found
    have known : t ∈ drawn front := isId ▸ sound.mem_used (Or.inr (Or.inl flying))
    obtain ⟨r, broker', disk', effect, steps⟩ := @step_command config platform broker disk event
      message received whole
    obtain ⟨action, rejected, text, rfl, spec⟩ := Effect.answered_of_nack whole command named
      (ne_empty_of_drawn known) found (safe message received (Or.inr command)) effect
    have agrees : deliveries task.taskId (history config platform front) = task.attempts :=
      counted.memory.inFlight task flying
    have decided := spec.deadLettered_iff (aloft.2 task flying)
    have limit : broker.queueManager.maxRetries = config.maxRetries := sound.maxRetries
    refine ⟨text, ?_⟩
    rw [steps, ← isId, agrees, spec.attempts_eq, ← limit]
    cases action with
    | deadLettered =>
      rw [if_pos (decided.mp rfl)]
      rfl
    | requeued =>
      rw [if_neg fun full => by cases decided.mpr full]
      rfl

/-- A task is produced and consumed; its NACK, whose `worker_id` is a list, dead-letters it in
memory and raises before its row is updated.  It is retried, and the broker restarts. -/
def staleRowRun : List Event :=
  [.at 0 .start, .at 1 (.produce "q" "p"), .at 2 (.consume "q" "w"),
    .at 3 (.send "NACK" [("task_id", .str (idAt 1)), ("worker_id", .arr [])]),
    .at 4 .replayAll, .at 5 .crash, .at 6 .start]

/-- **A row that missed the retry.**  CONSUME returns a second attempt at a task that was not
delivered since its retry. -/
theorem stale_row_overcounts :
    FreshIds (staleRowRun ++ [.at 7 (.consume "q" "w")]) ∧
      ∃ delivery, (step { persistent := true, maxRetries := 1 } .plain
          (reach { persistent := true, maxRetries := 1 } .plain staleRowRun)
            (.at 7 (.consume "q" "w"))).1 = .answered (.consumed delivery) ∧
        delivery.taskId = idAt 1 ∧ delivery.attempts = 2 ∧
        deliveries (idAt 1)
          (history { persistent := true, maxRetries := 1 } .plain staleRowRun) = 0 := by
  obtain ⟨delivery, answered, same, tries⟩ := @Outcome.of_isConsumed (idAt 1) 2
    (step { persistent := true, maxRetries := 1 } .plain
      (reach { persistent := true, maxRetries := 1 } .plain staleRowRun)
      (.at 7 (.consume "q" "w"))).1 (by decide +kernel)
  exact ⟨by decide +kernel, delivery, answered, same, tries, by decide +kernel⟩

/-- The action is a replay-all. -/
def Action.isReplayAll : Action → Bool
  | .replayAll => true
  | _ => false

/-- The event's process survives it, and it is neither a replay-all nor a command that fails. -/
def Smooth (config : Config) (platform : Platform) (system : System) (event : Event) : Bool :=
  event.crashIn.isNone && !event.action.isReplayAll &&
    !(step config platform system event).1.failed

/-- A run of smooth steps is a run of exact steps, for a command that is interrupted fails. -/
theorem exact_of_smooth (fresh : FreshIds events)
    (smooth : Trace.EachStep (step config platform) System.initial
      (fun _ system event => Smooth config platform system event = true) events) :
    Trace.EachStep (step config platform) System.initial
      (fun _ system event => Exact platform system event) events := by
  intro front event back split
  have passed := smooth front event back split
  have reached := @reach_sound config platform front
    (split ▸ fresh : FreshIds (front ++ event :: back)).front
  change Exact platform (reach config platform front) event
  change Smooth config platform (reach config platform front) event = true at passed
  cases position : reach config platform front with
  | stopped disk => trivial
  | running broker disk =>
    rw [position] at reached passed
    have sound : (broker.core disk).Sound config platform (drawn front) := reached
    simp only [Smooth, Bool.and_eq_true, Bool.not_eq_true', Option.isNone_iff_eq_none] at passed
    obtain ⟨⟨whole, notAll⟩, succeeds⟩ := passed
    refine ⟨whole, fun message received _ hazard => ?_, fun isAll => ?_⟩
    · obtain ⟨r, broker', disk', effect, steps⟩ := @step_command config platform broker disk
        event message received whole
      obtain ⟨failed, -⟩ := Effect.of_hazard
        (m := { broker, disk, crashIn := event.crashIn }) sound.distinct hazard effect
      rw [steps, Outcome.failed_of_Failed failed] at succeeds
      cases succeeds
    · rw [isAll] at notAll
      cases notAll

/-- A task that fails once, and a restart. -/
def restartedRun : List Event :=
  [.at 0 .start, .at 1 (.produce "q" "p"), .at 2 (.consume "q" "w"), .at 3 (.nack (idAt 1)),
    .at 4 .crash, .at 5 .start]

/-- The delivery after the restart is the second, and a NACK of it says so. -/
theorem attempts_eq_deliveries_restarted :
    (∃ delivery, (step { persistent := true } .plain
          (reach { persistent := true } .plain restartedRun) (.at 6 (.consume "q" "w"))).1 =
        .answered (.consumed delivery) ∧
      delivery.attempts =
        1 + deliveries delivery.taskId (history { persistent := true } .plain restartedRun) ∧
      deliveries delivery.taskId (history { persistent := true } .plain restartedRun) = 1) ∧
    ∃ text, (step { persistent := true } .plain
        (reach { persistent := true } .plain (restartedRun ++ [.at 6 (.consume "q" "w")]))
          (.at 7 (.nack (idAt 1)))).1 =
      .answered (.negativeAcknowledged .requeued 2 text) := by
  constructor
  · obtain ⟨delivery, answered, same, tries⟩ := @Outcome.of_isConsumed (idAt 1) 2
      (step { persistent := true } .plain (reach { persistent := true } .plain restartedRun)
        (.at 6 (.consume "q" "w"))).1 (by decide +kernel)
    have fresh : FreshIds (restartedRun ++ [.at 6 (.consume "q" "w")]) := by decide +kernel
    refine ⟨delivery, answered, (attempts_eq_deliveries fresh (exact_of_smooth fresh
      (Trace.eachStep_of_all (by decide +kernel)))).1 delivery answered, ?_⟩
    rw [same]
    decide +kernel
  · have fresh : FreshIds ((restartedRun ++ [.at 6 (.consume "q" "w")]) ++
        [.at 7 (.nack (idAt 1))]) := by decide +kernel
    obtain ⟨broker, disk, position, flying⟩ := @System.of_passes
      (fun broker _ => (broker.queueManager.inFlight.find? (idAt 1)).isSome)
      (reach { persistent := true } .plain (restartedRun ++ [.at 6 (.consume "q" "w")]))
      (by decide +kernel)
    obtain ⟨task, found⟩ := Option.isSome_iff_exists.mp flying
    have count : deliveries (idAt 1) (history { persistent := true } .plain
        (restartedRun ++ [.at 6 (.consume "q" "w")])) = 2 := by decide +kernel
    have answered := (attempts_eq_deliveries fresh (exact_of_smooth fresh
      (Trace.eachStep_of_all (by decide +kernel)))).2 _ (idAt 1) broker disk task rfl rfl rfl
      position found
    rw [count] at answered
    exact answered

end Run

end DistroSync
