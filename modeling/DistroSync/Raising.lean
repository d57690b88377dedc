import DistroSync.ErrorAtomicity
import DistroSync.Memory

/-!
# The messages that raise

No handler checks the types of the fields it reads.  A value of the wrong type goes on
until something cannot be done with it: a list or an object as a dictionary key, a slice
of a number, a number or a text that SQLite does not hold, a value that is nested too deeply
to be written down.  `Raises` lists for each command when that happens, in terms of the
message and the state it finds, and `dispatch_raises` says that the list is complete: the
other messages are answered.

What comes after the checks is `Interrupted`, which the atomicity of failing commands
depends on.  Here the checks themselves are added.
-/

namespace DistroSync

open Keyed Py Exec

/-- The `task_id` is no text, and the lookup among the tasks in flight gets to hash it, to
slice it or to print it.  A list is never hashed where nothing is in flight, has slices, and
is printed if it is not nested too deeply. -/
def Unfindable (platform : Platform) (m : Machine) (message : Message) : Prop :=
  (message.get "task_id" .null).truthy ∧ (∀ id, message.get "task_id" .null ≠ .str id) ∧
    ¬ ((message.get "task_id" .null).sliceable ∧
      (message.get "task_id" .null).depth ≤ platform.strDepth ∧
      m.broker.queueManager.inFlight.rows = [])

/-- The row of a dead letter cannot be made a task again: its payload cannot be read, or the
task it gives cannot be saved. -/
def Unreplayable (platform : Platform) (env : Env) (row : DlqRow) : Prop :=
  ∀ payload, platform.loads row.payload = some payload →
    ∃ e, platform.taskRow (env.task (.str row.queueName) payload) env.time = .error e

/-- The handler of the command raises. -/
def Raises (platform : Platform) (env : Env) (m : Machine) (message : Message) : Command → Prop
  | .produce =>
    (message.get "queue" .null).truthy ∧ (message.get "task" .null).isNone = false ∧
      ((message.get "queue" .null).scalar? = none ∨
        Admits platform env m message .produce ∧ Interrupted platform env m message .produce)
  | .consume =>
    (message.get "queue" .null).truthy ∧ (message.get "worker_id" .null).truthy ∧
      ((message.get "queue" .null).scalar? = none ∨
        Interrupted platform env m message .consume)
  | .register | .heartbeat =>
    (message.get "worker_id" .null).truthy ∧ (message.get "worker_id" .null).scalar? = none
  | .ack =>
    Unfindable platform m message ∨
      Admits platform env m message .ack ∧ Interrupted platform env m message .ack
  | .nack =>
    Unfindable platform m message ∨
      Admits platform env m message .nack ∧ Interrupted platform env m message .nack
  -- the filter or the limit cannot be bound, or the limit is no index
  | .dlqList =>
    if m.broker.walStore.isSome then
      (∃ e, platform.queueFilter (message.get "queue" .null) = .error e) ∨
        ∃ e, platform.limitOf (message.get "limit" (.int 50)) = .error e
    else
      ∃ e, peekLimit m.broker.queueManager.deadLetterQueue (message.get "limit" (.int 50)) =
        .error e
  -- the id is no text or cannot be bound, or the row it names cannot be replayed
  | .dlqReplay =>
    (message.get "task_id" .null).truthy ∧ ((∀ id, message.get "task_id" .null ≠ .str id) ∨
      m.broker.walStore.isSome ∧
        ((∃ e, platform.textOf (message.get "task_id" .null) = .error e) ∨ ∃ row,
          platform.namedRow m.disk (message.get "task_id" .null) = some row ∧
            Unreplayable platform env row))
  | .dlqPurge =>
    m.broker.walStore.isSome ∧ ∃ e, platform.queueFilter (message.get "queue" .null) = .error e
  | .stats | .metrics => False

/-- The message raises: its command is no key, or the handler of its command raises. -/
def RaisesMessage (platform : Platform) (env : Env) (m : Machine) (message : Message) : Prop :=
  (message.get "command" .null).truthy ∧ (message.get "command" .null).scalar? = none ∨
    ∃ command, commandOf message = some command ∧ Raises platform env m message command

section Handlers

variable {platform : Platform} {env : Env} {m : Machine} {message : Message}

/-- The program raises exactly if `P`. -/
def RaisesIff {α : Type} (program : BrokerM α) (m : Machine) (P : Prop) : Prop :=
  wp program (fun _ _ => ¬P) (fun _ _ => P) m

/-- The rule for the store call that ends a handler. -/
theorem wp_stored_of_whole {body : BrokerM Unit} {bound : Except Error (Database → Database)}
    {Q : Unit → Machine → Prop} {E : Stop → Machine → Prop} (whole : m.crashIn = none)
    (call : m.broker.walStore.isSome = true → Calls body m bound)
    (returns : (m.broker.walStore.isSome = true → ∀ e, bound ≠ .error e) → ∀ m', Q () m')
    (raises : m.broker.walStore.isSome = true → (∃ e, bound = .error e) → ∀ stop m', E stop m') :
    wp (whenPersistent body) Q E m := by
  rw [wp_whenPersistent]
  refine ⟨fun opened => ?_, fun closed => ?_⟩
  · cases binds : bound with
    | error e =>
      obtain ⟨connection, raised⟩ := (call opened).raises e binds
      unfold wp
      rw [raised]
      exact raises opened ⟨e, binds⟩ _ _
    | ok statements =>
      rw [wp_congr ((call opened).commits statements binds), wp_walCommit]
      refine ⟨fun spent => ?_, fun _ => returns (fun _ e => by simp [binds]) _⟩
      rw [whole] at spent
      cases spent
  · refine returns (fun opened => ?_) m
    rw [closed] at opened
    cases opened

/-- PRODUCE raises at an unhashable queue, or in `save_task`. -/
theorem handleProduce_raises (whole : m.crashIn = none) :
    RaisesIff (handleProduce platform env message) m (Raises platform env m message .produce) := by
  unfold RaisesIff handleProduce
  simp only [wp_ite, wp_bind, wp_hashable, wp_pure, wp_onLoadShedder, wp_onQueueManager, wp_get,
    wp_onMetrics]
  refine ⟨fun missing => ?_, fun named => ⟨fun missing => ?_, fun given => ⟨?_, ?_⟩⟩⟩
  · rintro ⟨named, -⟩
    simp [named] at missing
  · rintro ⟨-, given, -⟩
    simp [given] at missing
  · intro queue hashed
    have isNamed : (message.get "queue" .null).truthy = true := by simpa using named
    have isGiven : (message.get "task" .null).isNone = false := by simpa using given
    refine ⟨fun shed => ?_, fun allowed => ?_⟩
    · rintro ⟨-, -, unhashable | ⟨⟨-, -, other, isOther, allowed⟩, -⟩⟩
      · rw [hashed] at unhashable
        cases unhashable
      · rw [hashed] at isOther
        cases isOther
        simp [Machine.allows] at allowed
        simp [allowed] at shed
    · have admits : Admits platform env m message .produce :=
        ⟨isNamed, isGiven, queue, hashed, by simpa [Machine.allows] using allowed⟩
      have unbound : (∃ e, ((platform.taskRow (env.task queue (message.get "task" .null))
            env.time).map fun row db => Database.saveTask db row) = .error e) ↔
          (∃ e, platform.requiredTextOf (message.get "queue" .null) = .error e) ∨
            ¬platform.Writes (message.get "task" .null) :=
        map_error_iff.trans (taskRow_error_iff hashed)
      refine wp_stored_of_whole whole (fun opened => saveNewest_calls rfl opened)
        (fun binds _ => ?_) fun opened fails _ _ => ?_
      · rintro ⟨-, -, unhashable | ⟨-, opened, fails⟩⟩
        · rw [hashed] at unhashable
          cases unhashable
        · obtain ⟨e, fails⟩ := unbound.mpr fails
          exact binds opened e fails
      · exact ⟨isNamed, isGiven, Or.inr ⟨admits, opened, unbound.mp fails⟩⟩
  · intro unhashable
    exact ⟨by simpa using named, by simpa using given, Or.inl unhashable⟩

theorem handleConsume_raises (whole : m.crashIn = none) :
    RaisesIff (handleConsume platform env message) m (Raises platform env m message .consume) := by
  unfold RaisesIff handleConsume
  simp only [wp_ite, wp_bind, wp_hashable, wp_pure, wp_onQueueManager]
  refine ⟨fun missing => ?_, fun named => ⟨fun missing => ?_, fun given => ⟨?_, ?_⟩⟩⟩
  · rintro ⟨named, -⟩
    simp [named] at missing
  · rintro ⟨-, given, -⟩
    simp [given] at missing
  · intro queue hashed
    have isNamed : (message.get "queue" .null).truthy = true := by simpa using named
    have isGiven : (message.get "worker_id" .null).truthy = true := by simpa using given
    -- with this queue, the handler is interrupted exactly if there is a task and the worker fails
    have interrupted_iff : Raises platform env m message .consume ↔
        ∃ task qm, m.broker.queueManager.dequeue queue (message.get "worker_id" .null) =
            (some task, qm) ∧
          ((message.get "worker_id" .null).scalar? = none ∨ m.broker.walStore.isSome = true ∧
            ∃ e, platform.textOf (message.get "worker_id" .null) = .error e) := by
      constructor
      · rintro ⟨-, -, unhashable | ⟨other, task, qm, isOther, taken, fails⟩⟩
        · rw [hashed] at unhashable
          cases unhashable
        · rw [hashed] at isOther
          cases isOther
          exact ⟨task, qm, taken, fails⟩
      · rintro ⟨task, qm, taken, fails⟩
        exact ⟨isNamed, isGiven, Or.inr ⟨queue, task, qm, hashed, taken, fails⟩⟩
    rw [interrupted_iff]
    cases taken : m.broker.queueManager.dequeue queue (message.get "worker_id" .null) with
    | mk result qm =>
      cases result with
      | none =>
        rintro ⟨task, rest, absurd, -⟩
        cases absurd
      | some task =>
        simp only [wp_bind, wp_hashable, wp_onRegistry, wp_onMetrics, wp_pure]
        refine ⟨fun worker consumer => ?_, fun unhashable => ⟨task, qm, rfl, Or.inl unhashable⟩⟩
        rw [← optionalTextOf_error_iff isGiven]
        refine wp_stored_of_whole whole (fun _ => walWrite_calls _ _) (fun binds _ => ?_)
          fun opened fails _ _ => ⟨task, qm, rfl, Or.inr ⟨opened, map_error_iff.mp fails⟩⟩
        rintro ⟨-, -, -, unhashable | ⟨opened, fails⟩⟩
        · rw [consumer] at unhashable
          cases unhashable
        · obtain ⟨e, fails⟩ := map_error_iff.mpr fails
          exact binds opened e fails
  · intro unhashable
    exact ⟨by simpa using named, by simpa using given, Or.inl unhashable⟩

theorem handleRegister_raises :
    RaisesIff (handleRegister platform env message) m
      (Raises platform env m message .register) := by
  unfold RaisesIff handleRegister
  simp only [wp_ite, wp_bind, wp_hashable, wp_pure, wp_onRegistry]
  refine ⟨fun missing => ?_, fun named => ⟨fun worker hashed => ?_, fun unhashable => ?_⟩⟩
  · rintro ⟨named, -⟩
    simp [named] at missing
  · rintro ⟨-, unhashable⟩
    rw [hashed] at unhashable
    cases unhashable
  · exact ⟨by simpa using named, unhashable⟩

theorem handleHeartbeat_raises :
    RaisesIff (handleHeartbeat platform env message) m
      (Raises platform env m message .heartbeat) := by
  unfold RaisesIff handleHeartbeat
  simp only [wp_ite, wp_bind, wp_hashable, wp_pure, wp_onRegistry]
  refine ⟨fun missing => ?_, fun named => ⟨fun worker hashed => ?_, fun unhashable => ?_⟩⟩
  · rintro ⟨named, -⟩
    simp [named] at missing
  · have hashable : ¬Raises platform env m message .heartbeat := by
      rintro ⟨-, unhashable⟩
      rw [hashed] at unhashable
      cases unhashable
    exact ⟨fun _ => hashable, fun _ => hashable⟩
  · exact ⟨by simpa using named, unhashable⟩

/-- A hashable value that is no text has no slices. -/
theorem not_sliceable_of_scalar {value : Json} {scalar : Scalar}
    (hashed : value.scalar? = some scalar) (notText : ∀ id, value ≠ .str id) :
    value.sliceable = false := by
  cases value with
  | str id => exact absurd rfl (notText id)
  | arr items => cases hashed
  | _ => rfl

/-- What SQLite takes for a text is no list, and if it is no text it has no slices. -/
theorem not_sliceable_of_bound {value : Json} {bound : Option String}
    (binds : platform.textOf value = .ok bound) (notText : ∀ id, value ≠ .str id) :
    value.sliceable = false := by
  cases value with
  | str id => exact absurd rfl (notText id)
  | arr items => cases binds
  | _ => rfl

/-- The lookup of a task in flight, for every type of id. -/
theorem wp_inFlightKey_cases {m' : Machine} {taskId : Json} {Q : Option String → Machine → Prop}
    {E : Stop → Machine → Prop}
    (found : ∀ id task, taskId = .str id →
      m'.broker.queueManager.inFlight.find? id = some task → Q (some id) m')
    (absent : ∀ id, taskId = .str id → m'.broker.queueManager.inFlight.find? id = none →
      Q none m')
    (other : (∀ id, taskId ≠ .str id) →
      (taskId.sliceable ∧ taskId.depth ≤ platform.strDepth ∧
          m'.broker.queueManager.inFlight.rows = [] → Q none m') ∧
        (¬ (taskId.sliceable ∧ taskId.depth ≤ platform.strDepth ∧
            m'.broker.queueManager.inFlight.rows = []) → ∀ e, E (.raised e) m')) :
    wp (inFlightKey platform taskId) Q E m' := by
  unfold inFlightKey
  simp only [wp_bind, wp_get, wp_ite, wp_pure, wp_raise, wp_hashable]
  by_cases text : ∃ id, taskId = .str id
  · obtain ⟨id, rfl⟩ := text
    have shallow : ¬platform.strDepth < (Json.str id).depth := by simp
    have unknown (none : m'.broker.queueManager.inFlight.find? id = none) :
        ((!(Json.str id).sliceable) = true → E (.raised .typeError) m') ∧
          (¬(!(Json.str id).sliceable) = true →
            (platform.strDepth < (Json.str id).depth → E (.raised .recursionError) m') ∧
              (¬platform.strDepth < (Json.str id).depth → Q Option.none m')) :=
      ⟨fun rigid => Bool.noConfusion rigid,
        fun _ => ⟨fun deep => absurd deep shallow, fun _ => absent id rfl none⟩⟩
    refine ⟨fun empty => unknown ?_, fun _ => ⟨?_, fun bare => (Option.some_ne_none _ bare).elim⟩⟩
    · have none : m'.broker.queueManager.inFlight.rows = [] := by simpa using empty
      unfold Table.find?
      rw [none]
      rfl
    · intro scalar hashed
      cases hashed
      simp only [wp_ite, wp_pure, wp_raise]
      refine ⟨fun known => ?_, fun missing => unknown (by simpa using missing)⟩
      obtain ⟨task, known⟩ := Option.isSome_iff_exists.mp known
      exact found id task rfl known
  · have notText : ∀ id, taskId ≠ .str id := fun id isText => text ⟨id, isText⟩
    obtain ⟨listed, raised⟩ := other notText
    refine ⟨fun empty => ⟨fun rigid => ?_, fun slices => ⟨fun deep => ?_, fun shallow => ?_⟩⟩,
      fun filled => ⟨?_, fun _ => ?_⟩⟩
    · exact raised (fun all => by simp [all.1] at rigid) _
    · exact raised (fun all => absurd deep (not_lt.mpr all.2.1)) _
    · exact listed ⟨by simpa using slices, not_lt.mp shallow, by simpa using empty⟩
    · intro scalar hashed
      have rigid := not_sliceable_of_scalar hashed notText
      have fails : E (.raised .typeError) m' := raised (fun all => by simp [rigid] at all) _
      cases scalar with
      | str id => exact absurd (Json.eq_str_of_scalar? hashed) (notText id)
      | _ =>
        simp only [wp_ite, wp_pure, wp_raise]
        exact ⟨fun _ => fails, fun slices => by simp [rigid] at slices⟩
    · exact raised (fun all => filled (by simpa using all.2.2)) _

/-- An acknowledgement or a rejection raises in the lookup, or in what follows once the lookup
has found the task. -/
theorem wp_lookup {Raising After : Prop} {Q : Option String → Machine → Prop}
    {E : Stop → Machine → Prop}
    (raises_iff : Raising ↔ Unfindable platform m message ∨
      (∃ id task, message.get "task_id" .null = .str id ∧ id ≠ "" ∧
        m.broker.queueManager.inFlight.find? id = some task) ∧ After)
    (given : (message.get "task_id" .null).truthy = true)
    (found : ∀ id task, message.get "task_id" .null = .str id →
      m.broker.queueManager.inFlight.find? id = some task → (Raising ↔ After) → Q (some id) m)
    (returns : ¬Raising → Q none m) (raises : Raising → ∀ e, E (.raised e) m) :
    wp (inFlightKey platform (message.get "task_id" .null)) Q E m := by
  refine wp_inFlightKey_cases (fun id task isText isFound => ?_) (fun id isText absent => ?_)
    fun notText => ?_
  · refine found id task isText isFound ⟨fun raised => ?_, fun after => ?_⟩
    · rcases raises_iff.mp raised with ⟨-, notText, -⟩ | ⟨-, after⟩
      · exact absurd isText (notText id)
      · exact after
    · have nonempty : id ≠ "" := by simpa [isText, Json.truthy] using given
      exact raises_iff.mpr (Or.inr ⟨⟨id, task, isText, nonempty, isFound⟩, after⟩)
  · refine returns fun raised => ?_
    rcases raises_iff.mp raised with ⟨-, notText, -⟩ | ⟨⟨other, task, isOther, -, isFound⟩, -⟩
    · exact notText id isText
    · cases isText.symm.trans isOther
      rw [absent] at isFound
      cases isFound
  · refine ⟨fun listed => returns fun raised => ?_, fun rigid => raises ?_⟩
    · rcases raises_iff.mp raised with ⟨-, -, rigid⟩ | ⟨⟨id, task, isText, -⟩, -⟩
      · exact rigid listed
      · exact notText id isText
    · exact raises_iff.mpr (Or.inl ⟨given, notText, rigid⟩)

/-- ACK raises while it looks the task up, or after it has removed it. -/
theorem handleAck_raises (whole : m.crashIn = none) :
    RaisesIff (handleAck platform env message) m (Raises platform env m message .ack) := by
  unfold RaisesIff handleAck
  simp only [wp_ite, wp_bind, wp_pure]
  refine ⟨fun missing => ?_, fun given => wp_lookup Iff.rfl (by simpa using given) ?_ id
    fun raised _ => raised⟩
  · rintro (⟨named, -⟩ | ⟨⟨id, task, isText, nonempty, -⟩, -⟩)
    · simp [named] at missing
    · simp [isText, Json.truthy, nonempty] at missing
  · intro id task isText found after
    have raises_iff : Raises platform env m message .ack ↔
        ∃ e, ackChecks env m.broker.workerRegistry message id = .error e := by
      refine after.trans ⟨?_, ?_⟩
      · rintro ⟨other, isOther, fails⟩
        cases isText.symm.trans isOther
        exact ackChecks_error_iff.mpr fails
      · exact fun fails => ⟨id, isText, ackChecks_error_iff.mp fails⟩
    rw [raises_iff]
    simp only [wp_bind, wp_onQueueManager]
    refine wp_completeTask (fun passes => ?_) fun e fails => ?_
    · have completed : (completion env m.broker.workerRegistry message id).1 = .ok () := passes
      simp only [wp_hashable, wp_onMetrics]
      refine ⟨fun queue hashed => ?_, fun unhashable => ?_⟩
      · have checked : ackChecks env m.broker.workerRegistry message id = .ok () := by
          simp [ackChecks, completed, hashed]
        refine wp_stored_of_whole whole (fun _ => walWrite_calls _ _) (fun _ _ => ?_)
          fun _ fails => ?_
        · simp [checked]
        · obtain ⟨e, fails⟩ := fails
          cases fails
      · exact ⟨.typeError, by simp [ackChecks, completed, unhashable]⟩
    · have failed : (completion env m.broker.workerRegistry message id).1 = .error e := fails
      exact ⟨e, by simp [ackChecks, failed]⟩

theorem handleNack_raises (whole : m.crashIn = none) :
    RaisesIff (handleNack platform env message) m (Raises platform env m message .nack) := by
  unfold RaisesIff handleNack
  simp only [wp_ite, wp_bind, wp_pure]
  refine ⟨fun missing => ?_, fun given => wp_lookup Iff.rfl (by simpa using given) ?_ id
    fun raised _ => raised⟩
  · rintro (⟨named, -⟩ | ⟨⟨id, task, isText, nonempty, -⟩, -⟩)
    · simp [named] at missing
    · simp [isText, Json.truthy, nonempty] at missing
  · intro id task isText found after
    simp only [wp_bind, wp_onQueueManager]
    cases nacked : m.broker.queueManager.negativeAcknowledge env.time id with
    | mk result qm =>
      rcases QueueManager.negativeAcknowledge_cases nacked with
        ⟨absent, -, -⟩ | ⟨_, action, rejected, -, rfl, -⟩
      · rw [found] at absent
        cases absent
      have raises_iff : Raises platform env m message .nack ↔
          ((∃ e, (completion env m.broker.workerRegistry message id).1 = .error e) ∨
            m.broker.walStore.isSome = true ∧ ∃ e, nackStatements platform env
              m.broker.walStore qm.deadLetterQueue action rejected = .error e) := by
        rw [nackStatements_error_iff, completion_error_iff]
        refine after.trans ⟨?_, fun fails => ⟨id, action, rejected, qm, isText, nacked, fails⟩⟩
        rintro ⟨other, _, _, _, isOther, again, fails⟩
        cases isText.symm.trans isOther
        cases nacked.symm.trans again
        exact fails
      rw [raises_iff]
      simp only [wp_bind, wp_onMetrics, wp_pure]
      refine wp_completeTask (fun passes => ?_) fun e fails => Or.inl ⟨e, fails⟩
      have completed : (completion env m.broker.workerRegistry message id).1 = .ok () := passes
      refine wp_stored_of_whole whole (fun opened => persistNack_calls _ action rejected opened)
        (fun binds _ => ?_) fun opened fails _ _ => Or.inr ⟨opened, fails⟩
      rintro (⟨e, fails⟩ | ⟨opened, e, fails⟩)
      · rw [completed] at fails
        cases fails
      · exact binds opened e fails

theorem handleDlqList_raises :
    RaisesIff (handleDlqList platform message) m (Raises platform env m message .dlqList) := by
  unfold RaisesIff handleDlqList Raises
  simp only [wp_bind, wp_get, wp_ite]
  refine ⟨fun opened => ?_, fun closed => ?_⟩
  · rw [if_pos opened]
    cases filter : platform.queueFilter (message.get "queue" .null) with
    | error e => exact Or.inl ⟨e, rfl⟩
    | ok name =>
      cases limit : platform.limitOf (message.get "limit" (.int 50)) with
      | error e => exact Or.inr ⟨e, rfl⟩
      | ok n =>
        rintro (⟨e, fails⟩ | ⟨e, fails⟩)
        · cases fails
        · cases fails
  · rw [if_neg closed]
    cases limit : peekLimit m.broker.queueManager.deadLetterQueue
        (message.get "limit" (.int 50)) with
    | error e => exact ⟨e, rfl⟩
    | ok tasks =>
      rintro ⟨e, fails⟩
      cases fails

/-- With a table, a text raises if it cannot be bound or if the row it names cannot be
replayed. -/
theorem raises_replay_iff {id : String} (opened : m.broker.walStore.isSome = true)
    (given : (message.get "task_id" .null).truthy = true)
    (isText : message.get "task_id" .null = .str id) :
    Raises platform env m message .dlqReplay ↔
      (∃ e, platform.textOf (.str id) = .error e) ∨ ∃ row,
        platform.namedRow m.disk (.str id) = some row ∧ Unreplayable platform env row := by
  unfold Raises
  rw [← isText]
  constructor
  · rintro ⟨-, notText | ⟨-, fails⟩⟩
    · exact absurd isText (notText id)
    · exact fails
  · exact fun fails => ⟨given, Or.inr ⟨opened, fails⟩⟩

/-- The row that was found is enqueued and saved, and that is all that can fail. -/
theorem replayRow_raises {row : DlqRow} (whole : m.crashIn = none)
    (opened : m.broker.walStore.isSome = true) :
    RaisesIff (match platform.loads row.payload with
      | none => raise .jsonDecodeError
      | some payload => do
        onQueueManager fun qm =>
          ((), qm.enqueue env.uuid.text env.time (.str row.queueName) payload)
        saveNewest platform env (Scalar.str row.queueName).key env.uuid.text
        pure (Response.replayed row.taskId env.uuid.text)) m (Unreplayable platform env row) := by
  unfold RaisesIff Unreplayable
  cases decodes : platform.loads row.payload with
  | none => exact nofun
  | some payload =>
    simp only [wp_bind, wp_onQueueManager, wp_pure]
    have calls := @saveNewest_calls platform env
      { m with
        broker :=
          { m.broker with
            queueManager := m.broker.queueManager.enqueue env.uuid.text env.time
              (.str row.queueName) payload } } _ _ _ rfl opened
    cases saved : platform.taskRow (env.task (.str row.queueName) payload) env.time with
    | error e =>
      obtain ⟨connection, raised⟩ := calls.raises e (congrArg (Except.map _) saved)
      unfold wp
      rw [raised]
      intro other isOther
      cases isOther
      exact ⟨e, saved⟩
    | ok task =>
      rw [wp_congr (calls.commits _ (congrArg (Except.map _) saved)), wp_walCommit]
      refine ⟨fun spent => ?_, fun _ unreplayable => ?_⟩
      · rw [whole] at spent
        cases spent
      · obtain ⟨e, fails⟩ := unreplayable payload rfl
        rw [saved] at fails
        cases fails

/-- DLQ_REPLAY: only a text is found and has slices. -/
theorem handleDlqReplay_raises (whole : m.crashIn = none) :
    RaisesIff (handleDlqReplay platform env message) m
      (Raises platform env m message .dlqReplay) := by
  unfold RaisesIff handleDlqReplay
  simp only [wp_ite, wp_bind, wp_pure, wp_get]
  refine ⟨fun missing => ?_, fun given => ⟨fun opened => ?_, fun closed => ?_⟩⟩
  · rintro ⟨named, -⟩
    simp [named] at missing
  · have named : (message.get "task_id" .null).truthy = true := by simpa using given
    unfold replayDlqTask
    by_cases text : ∃ id, message.get "task_id" .null = .str id
    · obtain ⟨id, isText⟩ := text
      rw [raises_replay_iff opened named isText, isText]
      cases bound : platform.textOf (.str id) with
      | error e => exact Or.inl ⟨e, rfl⟩
      | ok value =>
        have row_iff : ((∃ e, (Except.ok value : Except Error (Option String)) = .error e) ∨
            ∃ row, platform.namedRow m.disk (.str id) = some row ∧
              Unreplayable platform env row) ↔
            ∃ row, value.bind m.disk.deadLetterQueue.find? = some row ∧
              Unreplayable platform env row := by
          have same : platform.namedRow m.disk (.str id) =
              value.bind m.disk.deadLetterQueue.find? := by
            unfold Platform.namedRow
            rw [bound]
            cases value <;> rfl
          rw [same]
          simp
        rw [row_iff]
        simp only [wp_bind, wp_get]
        cases found : value.bind m.disk.deadLetterQueue.find? with
        | none =>
          simp only [Json.sliceable, if_true, wp_pure]
          rintro ⟨row, absurd, -⟩
          cases absurd
        | some row =>
          have only : (∃ other, some row = some other ∧ Unreplayable platform env other) ↔
              Unreplayable platform env row := by simp
          rw [only]
          simp only [wp_bind, wp_walCommit, Json.sliceable, if_true, wp_pure]
          refine ⟨fun spent => ?_, fun _ => ?_⟩
          · rw [whole] at spent
            cases spent
          · exact replayRow_raises (committed_crashIn _ |>.mpr whole) rfl
    · have notText : ∀ id, message.get "task_id" .null ≠ .str id := fun id is => text ⟨id, is⟩
      have raised : Raises platform env m message .dlqReplay := ⟨named, Or.inl notText⟩
      cases bound : platform.textOf (message.get "task_id" .null) with
      | error e => exact raised
      | ok value =>
        have rigid := not_sliceable_of_bound bound notText
        simp only [wp_bind, wp_get]
        cases value.bind m.disk.deadLetterQueue.find? with
        | none =>
          simp only [rigid, Bool.false_eq_true, if_false, wp_raise]
          exact raised
        | some row =>
          simp only [wp_bind, wp_walCommit, rigid, Bool.false_eq_true, if_false, wp_raise]
          exact ⟨fun _ => raised, fun _ => raised⟩
  · have named : (message.get "task_id" .null).truthy = true := by simpa using given
    unfold deadLetterKey
    simp only [wp_bind, wp_get]
    rw [wp_hashable]
    have memory_iff : Raises platform env m message .dlqReplay ↔
        ∀ id, message.get "task_id" .null ≠ .str id := by
      constructor
      · rintro ⟨-, notText | ⟨opened, -⟩⟩
        · exact notText
        · exact absurd opened closed
      · exact fun notText => ⟨named, Or.inl notText⟩
    rw [memory_iff]
    refine ⟨fun scalar hashed => ?_, fun unhashable id isText => ?_⟩
    · cases scalar with
      | str id =>
        have isText := Json.eq_str_of_scalar? hashed
        rw [isText]
        simp only [Json.sliceable, if_true, wp_ite, wp_bind, wp_pure, wp_onQueueManager]
        exact ⟨fun _ notText => notText id rfl, fun _ notText => notText id rfl⟩
      | _ =>
        have notText : ∀ id, message.get "task_id" .null ≠ .str id := by
          intro id isText
          rw [isText] at hashed
          cases hashed
        have rigid := not_sliceable_of_scalar hashed notText
        simp only [rigid, Bool.false_eq_true, if_false, wp_raise]
        exact notText
    · rw [isText] at unhashable
      cases unhashable

theorem handleDlqPurge_raises (whole : m.crashIn = none) :
    RaisesIff (handleDlqPurge platform message) m (Raises platform env m message .dlqPurge) := by
  unfold RaisesIff handleDlqPurge Raises
  simp only [wp_ite, wp_bind, wp_pure, wp_get]
  refine ⟨fun opened => ?_, fun closed => ?_⟩
  · cases filter : platform.queueFilter (message.get "queue" .null) with
    | error e => exact ⟨opened, e, rfl⟩
    | ok name =>
      simp only [wp_bind, wp_walCommit, wp_pure]
      refine ⟨fun spent => ?_, fun _ => ?_⟩
      · rw [whole] at spent
        cases spent
      · rintro ⟨-, e, fails⟩
        cases fails
  · simp only [wp_onQueueManager]
    exact fun raised => closed raised.1

/-- **The messages that raise**, and no others. -/
theorem dispatch_raises (whole : m.crashIn = none) :
    RaisesIff (dispatch platform env message) m (RaisesMessage platform env m message) := by
  cases named : commandOf message with
  | none =>
    have raises_iff : RaisesMessage platform env m message ↔
        (message.get "command" .null).truthy ∧
          (message.get "command" .null).scalar? = none := by
      unfold RaisesMessage
      simp [named]
    unfold RaisesIff
    rw [raises_iff]
    unfold dispatch
    simp only [named, wp_ite, wp_bind, wp_hashable, wp_pure]
    refine ⟨fun missing => ?_, fun given => ⟨fun scalar hashed => ?_, fun unhashable => ?_⟩⟩
    · rintro ⟨given, -⟩
      simp [given] at missing
    · rintro ⟨-, unhashable⟩
      rw [hashed] at unhashable
      cases unhashable
    · exact ⟨by simpa using given, unhashable⟩
  | some command =>
    obtain ⟨name, isText, -⟩ := commandOf_some named
    have raises_iff : RaisesMessage platform env m message ↔
        Raises platform env m message command := by
      unfold RaisesMessage
      simp [named, isText]
    rw [dispatch_eq_handle named, raises_iff]
    cases command with
    | produce => exact handleProduce_raises whole
    | consume => exact handleConsume_raises whole
    | register => exact handleRegister_raises
    | heartbeat => exact handleHeartbeat_raises
    | ack => exact handleAck_raises whole
    | nack => exact handleNack_raises whole
    | dlqList => exact handleDlqList_raises
    | dlqReplay => exact handleDlqReplay_raises whole
    | dlqPurge => exact handleDlqPurge_raises whole
    | stats => exact id
    | metrics => exact id

/-- What returned did not raise. -/
theorem not_raisesMessage_of_ok {response : Response} {m' : Machine} (whole : m.crashIn = none)
    (returned : dispatch platform env message m = .ok response m') :
    ¬RaisesMessage platform env m message := by
  have raises := @dispatch_raises platform env m message whole
  unfold RaisesIff wp at raises
  rwa [returned] at raises

theorem raisesMessage_of_error {stop : Stop} {m' : Machine} (whole : m.crashIn = none)
    (failed : dispatch platform env message m = .error stop m') :
    RaisesMessage platform env m message := by
  have raises := @dispatch_raises platform env m message whole
  unfold RaisesIff wp at raises
  rwa [failed] at raises

end Handlers

end DistroSync
