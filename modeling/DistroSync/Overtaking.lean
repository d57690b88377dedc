import DistroSync.FirstDelivery
import DistroSync.Lib.Amortized

/-!
# Bounded overtaking

A task that waits in a queue is overtaken by the tasks ahead of it, and by tasks that come
back: a failed task returns to the front of its queue, and so does the task of an evicted
worker.  It does not starve.  Every task ahead of it, and every task of the queue that is in
flight, can be delivered only as often as it has attempts left, and nothing new is ever put in
front of it.

The attempts that are left to all these tasks together are the `credit` of the waiting task.
A delivery from the queue costs one, a NACK costs nothing, and an ACK or a burial may only
save something.  There is one way to gain: a pass of the eviction loop puts a task back
without looking at its attempts, so a task whose attempts are used up is delivered once more.
-/

namespace DistroSync

open Keyed Py

/-! ## Credit -/

/-- How often a task that is in flight can still be delivered if every attempt fails. -/
def Task.turnsLeft (limit : Nat) (task : Task) : Nat := limit - task.attempts

namespace QueueManager

/-- The task waits in the queue. -/
def Waiting (qm : QueueManager) (q : Key) (a : String) : Prop :=
  ∃ task ∈ qm.deque q, task.taskId = a

instance (qm : QueueManager) (q : Key) (a : String) : Decidable (qm.Waiting q a) :=
  inferInstanceAs (Decidable (∃ task ∈ qm.deque q, task.taskId = a))

/-- The tasks ahead of the task `a` in its queue. -/
def ahead (qm : QueueManager) (q : Key) (a : String) : List Task :=
  (qm.deque q).takeWhile fun task => task.taskId ≠ a

/-- The sum of `f` over the tasks of the queue that are in flight. -/
def away (qm : QueueManager) (q : Key) (f : Task → Nat) : Nat :=
  qm.inFlight.total fun task => if task.queueName.key = q then f task else 0

/-- How many deliveries from the queue there can be while the task `a` waits in it.  A pending
task is delivered at least once, whatever its attempts are. -/
def credit (qm : QueueManager) (q : Key) (a : String) : Nat :=
  ((qm.ahead q a).map fun task => max 1 (task.turnsLeft qm.maxRetries)).sum +
    qm.away q (Task.turnsLeft qm.maxRetries)

/-- The tasks of the queue in flight that have no attempt left. -/
def worn (qm : QueueManager) (q : Key) : Nat :=
  qm.away q fun task => if qm.maxRetries ≤ task.attempts then 1 else 0

section Operations

variable {qm qm' : QueueManager} {q : Key} {a : String}

/-- Nothing but the tasks ahead and the tasks in flight matters. -/
theorem credit_congr (ahead : qm'.ahead q a = qm.ahead q a) (inFlight : qm'.inFlight = qm.inFlight)
    (limit : qm'.maxRetries = qm.maxRetries) : qm'.credit q a = qm.credit q a := by
  unfold credit away
  rw [ahead, inFlight, limit]

theorem ahead_congr (deques : qm'.deque q = qm.deque q) : qm'.ahead q a = qm.ahead q a := by
  unfold ahead
  rw [deques]

/-- What is put at the back of a queue is not ahead of those who wait. -/
theorem Waiting.ahead_append (waiting : qm.Waiting q a) {task : Task}
    (deques : qm'.deque q = (qm.append task).deque q) : qm'.ahead q a = qm.ahead q a := by
  unfold ahead
  rw [deques, deque_append]
  split_ifs with own
  · rw [List.takeWhile_append, if_neg]
    intro whole
    obtain ⟨waits, inside, isA⟩ := waiting
    have all := List.takeWhile_eq_self_iff.mp ((List.takeWhile_prefix _).eq_of_length whole)
    simpa [isA] using all waits inside
  · rfl

/-- New tasks go to the end, behind the one that waits. -/
theorem Waiting.append (waiting : qm.Waiting q a) {task : Task}
    (deques : qm'.deque q = (qm.append task).deque q) : qm'.Waiting q a := by
  obtain ⟨waits, inside, isA⟩ := waiting
  refine ⟨waits, ?_, isA⟩
  rw [deques, deque_append]
  split_ifs with own
  · exact List.mem_append_left _ inside
  · exact inside

theorem away_erase_le {id : String} (inFlight : qm'.inFlight = qm.inFlight.erase id)
    (f : Task → Nat) : qm'.away q f ≤ qm.away q f := by
  unfold away
  rw [inFlight]
  exact Table.total_erase_le _ _ _

/-- A task leaves flight for good. -/
theorem credit_erase_le {id : String} (deques : qm'.deque q = qm.deque q)
    (inFlight : qm'.inFlight = qm.inFlight.erase id) (limit : qm'.maxRetries = qm.maxRetries) :
    qm'.credit q a ≤ qm.credit q a := by
  unfold credit
  rw [ahead_congr deques, limit]
  exact Nat.add_le_add_left (away_erase_le inFlight _) _

/-- **A task goes back to the front of its queue.**  It is delivered as often as it has attempts
left; only if there are none, this is a turn more than before. -/
theorem credit_returned {id : String} {task : Task} (found : qm.inFlight.find? id = some task)
    (deques : qm'.deque q = (qm.appendLeft task.release).deque q)
    (inFlight : qm'.inFlight = qm.inFlight.erase id) (limit : qm'.maxRetries = qm.maxRetries) :
    qm'.credit q a + qm'.worn q ≤ qm.credit q a + qm.worn q ∧
      (task.attempts < qm.maxRetries → qm'.credit q a ≤ qm.credit q a) := by
  have away (f : Task → Nat) : qm.away q f =
      (if task.queueName.key = q then f task else 0) + qm'.away q f := by
    unfold QueueManager.away
    rw [Table.total_of_find? found, inFlight]
  have turns := away (Task.turnsLeft qm.maxRetries)
  have none := away fun task => if qm.maxRetries ≤ task.attempts then 1 else 0
  have front : ((qm'.ahead q a).map fun task => max 1 (task.turnsLeft qm.maxRetries)).sum ≤
      (if task.queueName.key = q then max 1 (task.turnsLeft qm.maxRetries) else 0) +
        ((qm.ahead q a).map fun task => max 1 (task.turnsLeft qm.maxRetries)).sum := by
    unfold ahead
    rw [deques, deque_appendLeft, Task.release_queueName]
    by_cases own : task.queueName.key = q
    · rw [if_pos own.symm, if_pos own, List.takeWhile_cons]
      split
      · exact le_of_eq rfl
      · exact Nat.zero_le _
    · rw [if_neg (Ne.symm own), if_neg own, Nat.zero_add]
  unfold credit worn
  rw [limit]
  unfold Task.turnsLeft at *
  split_ifs at turns none front <;> omega

/-- **A delivery from the queue costs a turn.** -/
theorem credit_dequeue {queueName : Scalar} {workerId : Json} {task : Task} (homed : qm.Homed)
    (distinct : qm.Distinct) (taken : qm.dequeue queueName workerId = (some task, qm'))
    (waiting : qm'.Waiting q a) :
    (if task.queueName.key = q then 1 else 0) + qm'.credit q a ≤ qm.credit q a := by
  obtain ⟨name, head, rest, tasks, rfl, popped, others⟩ := dequeue_some_deques taken
  have limit : qm'.maxRetries = qm.maxRetries := dequeue_maxRetries taken
  have home : head.queueName.key = name := homed name head (by rw [tasks]; exact List.mem_cons_self)
  have flies (f : Task → Nat) : qm'.away q f ≤
      (if head.queueName.key = q then f (head.deliver workerId) else 0) + qm.away q f := by
    unfold away
    rw [dequeue_some_inFlight taken, Table.total_put]
    exact Nat.add_le_add_left (Table.total_erase_le _ _ _) _
  have turns := flies (Task.turnsLeft qm.maxRetries)
  show (if head.queueName.key = q then 1 else 0) + qm'.credit q a ≤ qm.credit q a
  unfold credit
  rw [limit]
  by_cases own : name = q
  · subst own
    -- the head is another task than `a`, which still waits
    have other : head.taskId ≠ a := by
      obtain ⟨waits, inside, isA⟩ := waiting
      rw [popped] at inside
      have split : qm.ledger.pending = head ::ₘ ((rest : Multiset Task) + qm.elsewhere name) := by
        change (qm.pending : Multiset Task) = _
        rw [coe_pending qm name, tasks, ← Multiset.cons_coe, Multiset.cons_add]
      rw [← isA]
      exact (distinct.ne_of_pending split (Multiset.mem_add.mpr (Or.inl inside))).symm
    have front : qm.ahead name a = head :: qm'.ahead name a := by
      unfold ahead
      rw [tasks, popped, List.takeWhile_cons, if_pos (by simpa using other)]
    rw [if_pos home] at turns ⊢
    rw [front, List.map_cons, List.sum_cons]
    have spent : (head.deliver workerId).turnsLeft qm.maxRetries + 1 ≤
        max 1 (head.turnsLeft qm.maxRetries) := by
      show qm.maxRetries - (head.attempts + 1) + 1 ≤ max 1 (qm.maxRetries - head.attempts)
      omega
    omega
  · rw [if_neg (home ▸ own)] at turns ⊢
    rw [ahead_congr (others q (Ne.symm own))]
    omega

/-- A pass gains a turn for every task of the queue that it puts back and that has no attempt
left. -/
theorem credit_requeueById (qm : QueueManager) (id : String) :
    (qm.requeueById id).2.credit q a + (qm.requeueById id).2.worn q ≤
      qm.credit q a + qm.worn q := by
  unfold requeueById
  cases found : qm.inFlight.find? id with
  | none => exact le_rfl
  | some task =>
    refine (credit_returned found ?_ ?_ ?_).1
    · exact deque_appendLeft_congr (by rfl) _ q
    · exact appendLeft_inFlight _ _
    · exact appendLeft_maxRetries _ _

/-- An evicted task comes back to the front with the attempts it had left. -/
theorem credit_requeueAll (ids : List String) (qm : QueueManager) :
    (requeueAll ids qm).2.credit q a + (requeueAll ids qm).2.worn q ≤
      qm.credit q a + qm.worn q := by
  induction ids generalizing qm with
  | nil => exact le_rfl
  | cons id rest ih => exact (ih _).trans (credit_requeueById qm id)

theorem credit_evictEach (order : SetOrder) (workers : List WorkerInfo)
    (registry : WorkerRegistry) (qm : QueueManager) :
    (evictEach order workers (registry, qm)).2.2.credit q a +
        (evictEach order workers (registry, qm)).2.2.worn q ≤ qm.credit q a + qm.worn q := by
  induction workers generalizing registry qm with
  | nil => exact le_rfl
  | cons worker rest ih =>
    unfold evictEach
    split
    · exact (ih _ _).trans (credit_requeueAll _ qm)
    · exact le_rfl

/-- A retried task goes to the back. -/
theorem Waiting.retry (waiting : qm.Waiting q a) (id : String) :
    (qm.retry id).2.Waiting q a ∧ (qm.retry id).2.credit q a = qm.credit q a := by
  unfold QueueManager.retry retryBegin
  cases qm.deadLetterQueue.tasks.find? id with
  | none => exact ⟨waiting, rfl⟩
  | some task =>
    let origin : QueueManager :=
      { qm with
        deadLetterQueue :=
          { qm.deadLetterQueue with tasks := qm.deadLetterQueue.tasks.erase id } }
    have deques : (origin.retryFinish task).deque q = (qm.append task.revive).deque q := by
      change (origin.append task.revive).deque q = _
      rw [deque_append, deque_append]
      rfl
    exact ⟨waiting.append deques, credit_congr (waiting.ahead_append deques)
      (append_inFlight _ _) (append_maxRetries _ _)⟩

theorem Waiting.retryEach (waiting : qm.Waiting q a) (ids : List String) :
    (DistroSync.retryEach ids qm).2.credit q a = qm.credit q a := by
  induction ids generalizing qm with
  | nil => rfl
  | cons id rest ih =>
    obtain ⟨still, same⟩ := waiting.retry id
    exact (ih still).trans same

theorem Waiting.credit_enqueue (waiting : qm.Waiting q a) (taskId : String) (now : Rat)
    (queueName : Scalar) (payload : Json) :
    (qm.enqueue taskId now queueName payload).credit q a = qm.credit q a :=
  credit_congr (waiting.ahead_append rfl) (append_inFlight qm _) (append_maxRetries qm _)

theorem credit_acknowledge_le (qm : QueueManager) (id : String) :
    (qm.acknowledge id).2.credit q a ≤ qm.credit q a := by
  unfold acknowledge
  split
  · exact le_rfl
  · exact credit_erase_le rfl rfl rfl

/-- A NACK returns a task with the attempts it had left, or buries it. -/
theorem credit_nacked_le {now : Rat} {id : String} {action : NackAction} {task' : Task}
    (nacked : qm.negativeAcknowledge now id = (some (action, task'), qm')) :
    qm'.credit q a ≤ qm.credit q a := by
  obtain ⟨task, found, spec⟩ := negativeAcknowledge_some nacked
  have named : task.taskId = id := Table.key_of_find? found
  cases spec with
  | buried exhausted => exact credit_erase_le rfl rfl rfl
  | requeued left =>
    refine (credit_returned found ?_ ?_ ?_).2 left
    · exact deque_appendLeft_congr (by rfl) _ q
    · rw [appendLeft_inFlight, named]
    · exact appendLeft_maxRetries _ _

/-- Every task ahead and every task of the queue in flight is delivered at most as often as it
may be tried. -/
theorem credit_le (qm : QueueManager) (positive : 1 ≤ qm.maxRetries) :
    qm.credit q a ≤ qm.maxRetries * ((qm.ahead q a).length + qm.away q fun _ => 1) := by
  have front : ((qm.ahead q a).map fun task => max 1 (task.turnsLeft qm.maxRetries)).sum ≤
      qm.maxRetries * (qm.ahead q a).length := by
    induction qm.ahead q a with
    | nil => exact Nat.zero_le _
    | cons task rest ih =>
      rw [List.map_cons, List.sum_cons, List.length_cons, Nat.mul_succ]
      have one : max 1 (task.turnsLeft qm.maxRetries) ≤ qm.maxRetries := by
        unfold Task.turnsLeft
        omega
      omega
  have behind : qm.away q (Task.turnsLeft qm.maxRetries) ≤
      qm.maxRetries * qm.away q fun _ => 1 := by
    unfold away Table.total
    induction qm.inFlight.rows with
    | nil => exact Nat.zero_le _
    | cons task rest ih =>
      rw [List.map_cons, List.map_cons, List.sum_cons, List.sum_cons, Nat.mul_add]
      refine Nat.add_le_add ?_ ih
      split_ifs
      · show qm.maxRetries - task.attempts ≤ qm.maxRetries * 1
        omega
      · exact Nat.zero_le _
  unfold credit
  rw [Nat.mul_add]
  exact Nat.add_le_add front behind

theorem Waiting.shift (waiting : qm.Waiting q a) (shift : Shift qm qm') : qm'.Waiting q a := by
  cases shift with
  | settled deques inFlight =>
    unfold Waiting
    rw [deques]
    exact waiting
  | pushed task deques inFlight => exact waiting.append (deques q)
  | returned task flying deques inFlight =>
    obtain ⟨waits, inside, isA⟩ := waiting
    refine ⟨waits, ?_, isA⟩
    rw [deques, deque_appendLeft]
    split_ifs
    · exact List.mem_cons_of_mem _ inside
    · exact inside

theorem Waiting.shifts (waiting : qm.Waiting q a) (shifts : Shifts qm qm') :
    qm'.Waiting q a := by
  induction shifts with
  | refl => exact waiting
  | tail _ shift ih => exact ih.shift shift

/-- A delivery from the queue takes the task itself or one ahead of it. -/
theorem Waiting.dequeue (waiting : qm.Waiting q a) {queueName : Scalar} {workerId : Json}
    {task : Task} (taken : qm.dequeue queueName workerId = (some task, qm'))
    (other : task.taskId ≠ a) : qm'.Waiting q a := by
  obtain ⟨name, head, rest, tasks, rfl, popped, others⟩ := dequeue_some_deques taken
  obtain ⟨waits, inside, isA⟩ := waiting
  refine ⟨waits, ?_, isA⟩
  by_cases own : q = name
  · subst own
    rw [tasks] at inside
    rw [popped]
    rcases List.mem_cons.mp inside with rfl | later
    · exact absurd isA other
    · exact later
  · rw [others q own]
    exact inside

end Operations

end QueueManager

/-! ## One event -/

/-- Whether the outcome is a delivery from the queue. -/
def Outcome.takenFrom (q : Key) : Outcome → Nat
  | .answered (.consumed delivery) => if delivery.queueName.key = q then 1 else 0
  | _ => 0

section Step

variable {config : Config} {platform : Platform} {q : Key} {a : String}

theorem Persist.takenFrom_le {crashIn : Option Nat} {c c' : Core}
    {bound : Except Error (Database → Database)} {success : Outcome} {r : Except Stop Outcome}
    (persisted : Persist crashIn c bound success r c') :
    (outcomeOf r).takenFrom q ≤ success.takenFrom q := by
  cases persisted with
  | off absent => exact le_rfl
  | died present binds spent => exact Nat.zero_le _
  | refused present fails => exact Nat.zero_le _
  | committed present binds alive => exact le_rfl

theorem Silent.takenFrom {r : Except Stop Outcome} (silent : Silent r) :
    (outcomeOf r).takenFrom q = 0 := by
  rcases r with (e | _) | outcome
  · rfl
  · rfl
  · cases outcome with
    | answered response => cases response <;> first | rfl | exact silent.elim
    | _ => rfl

/-- **What an action costs.**  Only a pass of the eviction loop gains something. -/
theorem Effect.credit_le {env : Env} {m : Machine} {action : Action} {r : Except Stop Outcome}
    {c : Core} (effect : Effect platform env m action r c)
    (calm : ∀ order, action ≠ .evict order) (homed : m.broker.queueManager.Homed)
    (distinct : m.broker.queueManager.Distinct) (waiting : m.broker.queueManager.Waiting q a)
    (still : c.queueManager.Waiting q a) :
    (outcomeOf r).takenFrom q + c.queueManager.credit q a ≤
      m.broker.queueManager.credit q a := by
  -- most outcomes are no delivery
  have free {credit : Nat} (outcome : (outcomeOf r).takenFrom q ≤ 0)
      (le : c.queueManager.credit q a ≤ credit) :
      (outcomeOf r).takenFrom q + c.queueManager.credit q a ≤ credit := by omega
  cases effect with
  | quiet idle silent => exact free silent.takenFrom.le le_rfl
  | produce command admitted named hashed persisted =>
    refine free persisted.takenFrom_le ?_
    rw [persisted.memory.1]
    exact (waiting.credit_enqueue _ _ _ _).le
  | consumeEmpty command hashed taken =>
    refine free le_rfl (le_of_eq ?_)
    rcases QueueManager.dequeue_none taken with rfl | ⟨created, rfl⟩
    · rfl
    · exact QueueManager.credit_congr
        (QueueManager.ahead_congr (QueueManager.deque_ensureQueue _ _ _))
        (QueueManager.ensureQueue_inFlight _ _) (QueueManager.ensureQueue_maxRetries _ _)
  | consumeUnhashable command admitted hashed taken unhashable =>
    have cost := QueueManager.credit_dequeue homed distinct taken still
    exact free le_rfl (Nat.le_of_add_left_le cost)
  | consume command admitted hashed taken consumer persisted =>
    have shown := @Persist.takenFrom_le q _ _ _ _ _ _ persisted
    rw [persisted.memory.1] at still ⊢
    have cost := QueueManager.credit_dequeue homed distinct taken still
    exact (Nat.add_le_add_right shown _).trans cost
  | ackAborted command admitted named found fails =>
    exact free le_rfl (QueueManager.credit_acknowledge_le _ _)
  | ack command admitted named found passes persisted =>
    refine free persisted.takenFrom_le ?_
    rw [persisted.memory.1]
    exact QueueManager.credit_acknowledge_le _ _
  | nackAborted command admitted named nacked fails =>
    exact free le_rfl (QueueManager.credit_nacked_le nacked)
  | nack command admitted named nacked passes persisted =>
    refine free persisted.takenFrom_le ?_
    rw [persisted.memory.1]
    exact QueueManager.credit_nacked_le nacked
  | replayCut command opened found decodes unsaved =>
    refine free ?_ (waiting.credit_enqueue _ _ _ _).le
    cases unsaved <;> exact le_rfl
  | replay command opened found decodes binds alive =>
    exact free le_rfl (waiting.credit_enqueue _ _ _ _).le
  | retry command closed named found => exact free le_rfl (waiting.retry _).2.le
  | purge command opened counted persisted =>
    refine free persisted.takenFrom_le ?_
    rw [persisted.memory.1]
    exact le_rfl
  | evict ran ending => exact absurd rfl (calm _)
  | reset persisted =>
    rw [persisted.memory.1] at still
    obtain ⟨task, inside, -⟩ := still
    cases inside
  | replayAll ran =>
    refine free le_rfl ?_
    have same := waiting.retryEach
      ((m.broker.queueManager.deadLetterQueue.peek 1000).map Task.taskId)
    rw [ran] at same
    exact same.le
  -- the others leave queues and flights alone
  | _ => exact free le_rfl le_rfl

/-- **What a pass gains.** -/
theorem Effect.credit_evict {env : Env} {m : Machine} {order : SetOrder}
    {r : Except Stop Outcome} {c : Core} (effect : Effect platform env m (.evict order) r c) :
    (outcomeOf r).takenFrom q + c.queueManager.credit q a ≤ m.broker.queueManager.credit q a +
      (m.broker.queueManager.worn q - c.queueManager.worn q) := by
  cases effect with
  | @evict _ result registry qm _ ran ending =>
    have gained := @QueueManager.credit_evictEach q a order
      (m.broker.workerRegistry.deadWorkers env.time) (m.broker.workerRegistry.dropDead env.time)
      m.broker.queueManager
    unfold evictDeadWorkers at ran
    rw [ran] at gained
    have silent : (outcomeOf r).takenFrom q = 0 := by
      subst ending
      cases result <;> rfl
    rw [silent]
    show 0 + qm.credit q a ≤ _ + (_ - qm.worn q)
    change qm.credit q a + qm.worn q ≤ _ at gained
    omega

end Step

/-! ## Whole runs -/

/-- The task waits in the queue of a running process. -/
def System.Waiting (q : Key) (a : String) : System → Prop
  | .running broker _ => broker.queueManager.Waiting q a
  | .stopped _ => False

/-- The credit of a task in a running process. -/
def System.credit (q : Key) (a : String) : System → Nat
  | .running broker _ => broker.queueManager.credit q a
  | .stopped _ => 0

/-- The tasks of the queue in flight that have no attempt left. -/
def System.worn (q : Key) : System → Nat
  | .running broker _ => broker.queueManager.worn q
  | .stopped _ => 0

/-- How many tasks of the queue that have no attempt left are put back by an event. -/
def revived (config : Config) (platform : Platform) (q : Key) (system : System) (event : Event) :
    Nat :=
  match event.action with
  | .evict _ => system.worn q - (step config platform system event).2.worn q
  | _ => 0

/-- The deliveries from a queue in a history. -/
def deliveriesFrom (q : Key) (history : List (Event × Outcome)) : Nat :=
  (history.map fun entry => entry.2.takenFrom q).sum

section Runs

variable {config : Config} {platform : Platform} {q : Key} {a : String}

/-- **One event.** -/
theorem step_credit {system : System} {event : Event} {used : List String}
    {D : Database → Prop}
    (holds : system.Holds (fun c => c.Sound config platform used ∧ c.queueManager.Homed) D)
    (waiting : system.Waiting q a) (still : (step config platform system event).2.Waiting q a) :
    (step config platform system event).1.takenFrom q +
        (step config platform system event).2.credit q a ≤
      system.credit q a + revived config platform q system event := by
  have transition := step_transition config platform system event
  have gains : revived config platform q system event =
      match event.action with
      | .evict _ => system.worn q - (step config platform system event).2.worn q
      | _ => 0 := rfl
  generalize revived config platform q system event = gain at gains ⊢
  generalize (step config platform system event).1 = outcome at transition ⊢
  generalize (step config platform system event).2 = next at transition still gains ⊢
  cases transition with
  | ran effect whole survived =>
    obtain ⟨sound, homed⟩ := holds
    obtain ⟨action, env, crashIn⟩ := event
    by_cases pass : ∃ order, action = .evict order
    · obtain ⟨order, rfl⟩ := pass
      rw [gains]
      exact effect.credit_evict
    · have calm : ∀ order, action ≠ .evict order := fun order same => pass ⟨order, same⟩
      exact (effect.credit_le calm homed sound.distinct waiting still).trans
        (Nat.le_add_right _ _)
  | died effect cut => exact still.elim
  | ignored other => exact still.elim
  | started starts whole recovery fresh => exact waiting.elim
  | failed starts recovery fresh why => exact still.elim

/-- As long as a task waits in its queue, there are at most as many deliveries from this queue
as its credit allows, and one for every task without an attempt left that is put back. -/
theorem deliveries_le_credit {front back : List Event} (fresh : FreshIds (front ++ back))
    (waits : ∀ first last, back = first ++ last →
      (reach config platform (front ++ first)).Waiting q a) :
    deliveriesFrom q (Trace.trace (step config platform) (reach config platform front) back) ≤
      (reach config platform front).credit q a +
        Trace.total (step config platform) (revived config platform q)
          (reach config platform front) back := by
  have bounded := @Trace.amortized _ _ _ (step config platform) (reach config platform front) back
    (System.credit q a) (fun system event => (step config platform system event).1.takenFrom q)
    (revived config platform q) ?_
  · rw [Trace.total_answers] at bounded
    exact Nat.le_of_add_right_le bounded
  · intro first event last split
    have here := waits first (event :: last) split
    have next := waits (first ++ [event]) last (by rw [split, List.append_assoc]; rfl)
    have sofar : FreshIds (front ++ first) := by
      rw [split, ← List.append_assoc] at fresh
      exact FreshIds.front fresh
    rw [← List.append_assoc, reach_concat] at next
    unfold reach at *
    rw [← Trace.after_append]
    exact step_credit (reach_homed sofar) here next

/-- The event neither ends the process nor empties its queues. -/
def Event.Sustains (event : Event) : Prop :=
  event.crashIn = none ∧ event.action ≠ .crash ∧ event.action ≠ .reset

/-- **Who waits goes on waiting until it is delivered.** -/
theorem System.Waiting.step {system : System} {event : Event} (waiting : system.Waiting q a)
    (sustains : event.Sustains) (uninterrupted : Uninterrupted platform system event)
    (other : (step config platform system event).1.delivered? ≠ some a) :
    (step config platform system event).2.Waiting q a := by
  obtain ⟨whole, alive, kept⟩ := sustains
  cases system with
  | stopped disk => exact waiting.elim
  | running broker disk =>
    obtain ⟨broker', disk', up⟩ := @step_running config platform broker disk event whole alive
    have transition := step_transition config platform (.running broker disk) event
    rw [up] at transition ⊢
    generalize (DistroSync.step config platform (.running broker disk) event).1 = outcome
      at transition other
    cases transition with
    | ran effect _ survived =>
      show broker'.queueManager.Waiting q a
      cases effect.reorders with
      | shifted shifts => exact QueueManager.Waiting.shifts waiting shifts
      | taken received command dequeued shown =>
        refine QueueManager.Waiting.dequeue waiting dequeued fun isA => ?_
        rcases shown with rfl | died | cut
        · exact other (congrArg some isA)
        · exact survived died
        · exact uninterrupted _ received command cut
      | cleared reset empty => exact absurd reset kept

/-- **No task starves.**  Let a task wait in a queue of a running broker, and let the broker run
on without a crash or a reset.  Its `credit` are the attempts that are left to the tasks ahead of
it and to the tasks of the queue in flight; this is at most the maximal number of retries for
each of these tasks.  By the time there were more deliveries from the queue than that, and one
for every task without an attempt left that evictions have put back, the task was delivered. -/
theorem delivered_within_credit {front back : List Event} {broker : Broker} {disk : Database}
    (fresh : FreshIds (front ++ back))
    (position : reach config platform front = .running broker disk)
    (waiting : broker.queueManager.Waiting q a) (sustains : ∀ event ∈ back, event.Sustains)
    (uninterrupted : Trace.EachStep (step config platform) (.running broker disk)
      (fun _ system event => Uninterrupted platform system event) back)
    (many : broker.queueManager.credit q a +
        Trace.total (step config platform) (revived config platform q) (.running broker disk) back <
      deliveriesFrom q (Trace.trace (step config platform) (.running broker disk) back)) :
    (1 ≤ config.maxRetries → broker.queueManager.credit q a ≤ config.maxRetries *
      ((broker.queueManager.ahead q a).length + broker.queueManager.away q fun _ => 1)) ∧
    ∃ entry ∈ Trace.trace (step config platform) (.running broker disk) back,
      entry.2.delivered? = some a := by
  have holds := @reach_homed config platform _ (FreshIds.front fresh)
  rw [position] at holds
  refine ⟨fun positive => ?_, ?_⟩
  · have limit : broker.queueManager.maxRetries = config.maxRetries := holds.1.maxRetries
    rw [← limit] at positive ⊢
    exact QueueManager.credit_le _ positive
  · -- otherwise it waits all the time, and the deliveries are bounded
    by_contra none
    refine absurd many (Nat.not_lt.mpr ?_)
    have bounded := @deliveries_le_credit config platform q a front back fresh ?_
    · rw [position] at bounded
      exact bounded
    · intro first last split
      induction first using List.reverseRecOn generalizing last with
      | nil =>
        rw [List.append_nil, position]
        exact waiting
      | append_singleton earlier event ih =>
        have whole : back = earlier ++ event :: last := by rw [split, List.append_assoc]; rfl
        have before := ih (event :: last) whole
        rw [← List.append_assoc, reach_concat]
        unfold reach at *
        rw [Trace.after_append, position] at before ⊢
        refine before.step (sustains event ?_) (uninterrupted earlier event last whole) ?_
        · rw [whole]
          exact List.mem_append_right _ List.mem_cons_self
        · intro delivered
          refine none ⟨(event, _), ?_, delivered⟩
          rw [whole, Trace.trace_append]
          exact List.mem_append_right _ List.mem_cons_self

end Runs

/-- Two tasks wait.  The first one fails twice, and its worker falls silent over the last
attempt that it has. -/
def wornFront : List Event :=
  [.at 0 .start, .at 1 (.register "w"), .at 2 (.produce "q" "p"), .at 3 (.produce "q" "p")]

def wornBack : List Event :=
  [.at 4 (.consume "q" "w"), .at 5 (.nack (idAt 2)), .at 6 (.consume "q" "w"),
    .at 7 (.nack (idAt 2)), .at 8 (.consume "q" "w"), .at 20 (.evict .insertion),
    .at 21 (.consume "q" "v"), .at 22 (.consume "*" "v")]

/-- The second one has a credit of three, the pass adds one, and the fifth delivery is its. -/
theorem delivered_within_credit_worn :
    ∃ broker disk,
      reach { persistent := true } .plain wornFront = .running broker disk ∧
      broker.queueManager.credit (.str "q") (idAt 3) = 3 ∧
      ∃ entry ∈ Trace.trace (step { persistent := true } .plain) (.running broker disk) wornBack,
        entry.2.delivered? = some (idAt 3) := by
  obtain ⟨broker, disk, position, passed⟩ :=
    System.of_passes (show (reach { persistent := true } .plain wornFront).passes
      (fun broker disk => decide (broker.queueManager.Waiting (.str "q") (idAt 3) ∧
        broker.queueManager.credit (.str "q") (idAt 3) = 3 ∧
        broker.queueManager.credit (.str "q") (idAt 3) +
            Trace.total (step { persistent := true } .plain)
              (revived { persistent := true } .plain (.str "q")) (.running broker disk) wornBack <
          deliveriesFrom (.str "q") (Trace.trace (step { persistent := true } .plain)
            (.running broker disk) wornBack))) = true by decide +kernel)
  obtain ⟨waiting, three, many⟩ := of_decide_eq_true passed
  refine ⟨broker, disk, position, three,
    (delivered_within_credit (by decide +kernel) position waiting ?_
      (Trace.EachStep.of_mem fun event inside => ?_) many).2⟩
  · simp only [wornBack, List.mem_cons, List.not_mem_nil, or_false]
    rintro event (rfl | rfl | rfl | rfl | rfl | rfl | rfl | rfl) <;> exact ⟨rfl, nofun, nofun⟩
  · simp only [wornBack, List.mem_cons, List.not_mem_nil, or_false] at inside
    rcases inside with rfl | rfl | rfl | rfl | rfl | rfl | rfl | rfl <;>
      refine Uninterrupted.of_named ?_ <;> rintro message ⟨⟩ command <;>
      first
        | exact ⟨"w", rfl, by decide +kernel⟩
        | exact ⟨"v", rfl, by decide +kernel⟩
        | cases command

end DistroSync
