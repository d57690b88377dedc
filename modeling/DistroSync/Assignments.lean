import DistroSync.Raising
import DistroSync.Responses
import DistroSync.Simulation

/-!
# Whom the tasks in flight belong to

A task in flight records the worker it was delivered to.  What a command does to that record
is one of three things (`Flown`): nothing, a delivery adds a task that was not in flight, or
an ACK or NACK takes the task out that it names.

The other half of the module is about answers.  A broker that has only seen string fields, and
whose store could take what it was given, is `Ready`: it raises nothing about the requests of a
worker, so each of them gets a response from its handler.
-/

namespace DistroSync

open Keyed Py

namespace QueueManager

variable {qm qm' : QueueManager} {worker id : String}

/-- The task is in flight, in the hands of this worker. -/
def AssignedTo (qm : QueueManager) (worker id : String) : Prop :=
  ∃ task, qm.inFlight.find? id = some task ∧ task.assignedWorker = .str worker

/-- A task is in the hands of one worker. -/
theorem AssignedTo.unique {other : String} (first : qm.AssignedTo worker id)
    (second : qm.AssignedTo other id) : worker = other := by
  obtain ⟨task, found, isFirst⟩ := first
  obtain ⟨task', found', isSecond⟩ := second
  obtain rfl := Option.some.inj (found.symm.trans found')
  exact Json.str.inj (isFirst.symm.trans isSecond)

theorem assignedTo_congr (same : qm'.inFlight = qm.inFlight) :
    qm'.AssignedTo worker id ↔ qm.AssignedTo worker id := by
  unfold AssignedTo
  rw [same]

theorem assignedTo_put {task : Task} (absent : qm.inFlight.find? task.taskId = none)
    (delivered : qm'.inFlight = qm.inFlight.put task) :
    qm'.AssignedTo worker id ↔
      qm.AssignedTo worker id ∨ id = task.taskId ∧ task.assignedWorker = .str worker := by
  unfold AssignedTo
  rw [delivered]
  by_cases own : id = task.taskId
  · subst own
    rw [Table.find?_put_self, absent]
    simp
  · rw [Table.find?_put_of_ne _ own]
    simp [own]

theorem assignedTo_erase {taken : String} (removed : qm'.inFlight = qm.inFlight.erase taken) :
    qm'.AssignedTo worker id ↔ id ≠ taken ∧ qm.AssignedTo worker id := by
  unfold AssignedTo
  rw [removed]
  by_cases own : id = taken
  · subst own
    rw [Table.find?_erase_self]
    simp
  · rw [Table.find?_erase_of_ne _ own]
    simp [own]

/-- A delivery is of a task that was not in flight. -/
theorem find?_of_dequeue (distinct : qm.Distinct) {queueName : Scalar} {workerId : Json}
    {task : Task} (taken : qm.dequeue queueName workerId = (some task, qm')) :
    qm.inFlight.find? task.taskId = none ∧ task.assignedWorker = workerId := by
  obtain ⟨head, rest, rfl, split, -⟩ := ledger_dequeue_some distinct taken
  refine ⟨?_, rfl⟩
  rw [Table.find?_eq_none]
  intro other flying clash
  have waiting : head ∈ qm.ledger.pending := by
    rw [split]
    exact Multiset.mem_cons_self _ _
  exact distinct.apart.pending_inFlight head waiting other flying clash.symm

end QueueManager

/-! ## What a command does -/

/-- What a command can do to the tasks in flight. -/
inductive Flown (message : Message) (r : Except Stop Outcome) (before : TaskTable) :
    TaskTable → Prop where
  | still : Flown message r before before
  | delivered {task : Task} (command : commandOf message = some .consume)
      (absent : before.find? task.taskId = none)
      (taker : task.assignedWorker = message.get "worker_id" .null)
      (told : ∀ outcome, r = .ok outcome →
        ∃ delivery, outcome = .answered (.consumed delivery) ∧ delivery.taskId = task.taskId) :
      Flown message r before (before.put task)
  | answered {id : String} (command : commandOf message = some .ack ∨
      commandOf message = some .nack) (named : message.get "task_id" .null = .str id) :
      Flown message r before (before.erase id)

section Effects

variable {platform : Platform} {env : Env} {m : Machine} {message : Message}
  {r : Except Stop Outcome} {c : Core}

theorem Effect.flown (effect : Effect platform env m (.command message) r c)
    (distinct : m.broker.queueManager.Distinct) :
    Flown message r m.broker.queueManager.inFlight c.queueManager.inFlight := by
  have unmoved {table : TaskTable} (same : table = m.broker.queueManager.inFlight) :
      Flown message r m.broker.queueManager.inFlight table := by
    rw [same]
    exact .still
  cases effect with
  | produce command admitted named hashed persisted =>
    rw [persisted.memory.1]
    exact unmoved (QueueManager.append_inFlight _ _)
  | consumeEmpty command hashed taken =>
    exact unmoved (QueueManager.dequeue_none_inFlight taken)
  | consumeUnhashable command admitted hashed taken unhashable =>
    obtain ⟨absent, taker⟩ := QueueManager.find?_of_dequeue distinct taken
    show Flown _ _ _ (QueueManager.inFlight _)
    rw [QueueManager.dequeue_some_inFlight taken]
    exact .delivered command absent taker nofun
  | consume command admitted hashed taken consumer persisted =>
    obtain ⟨absent, taker⟩ := QueueManager.find?_of_dequeue distinct taken
    rw [persisted.memory.1]
    show Flown _ _ _ (QueueManager.inFlight _)
    rw [QueueManager.dequeue_some_inFlight taken]
    refine .delivered command absent taker fun outcome ended => ?_
    subst ended
    exact ⟨_, persisted.of_ok.1, rfl⟩
  | ackAborted command admitted named found fails =>
    show Flown _ _ _ (QueueManager.inFlight _)
    rw [QueueManager.acknowledge_inFlight found]
    exact .answered (Or.inl command) named
  | ack command admitted named found passes persisted =>
    rw [persisted.memory.1]
    show Flown _ _ _ (QueueManager.inFlight _)
    rw [QueueManager.acknowledge_inFlight found]
    exact .answered (Or.inl command) named
  | nackAborted command admitted named nacked fails =>
    obtain ⟨task, found, spec⟩ := QueueManager.negativeAcknowledge_some nacked
    show Flown _ _ _ (QueueManager.inFlight _)
    rw [spec.inFlight_eq, Table.key_of_find? found]
    exact .answered (Or.inr command) named
  | nack command admitted named nacked passes persisted =>
    obtain ⟨task, found, spec⟩ := QueueManager.negativeAcknowledge_some nacked
    rw [persisted.memory.1]
    show Flown _ _ _ (QueueManager.inFlight _)
    rw [spec.inFlight_eq, Table.key_of_find? found]
    exact .answered (Or.inr command) named
  | replayCut command opened found decodes unsaved =>
    exact unmoved (QueueManager.append_inFlight _ _)
  | replay command opened found decodes binds alive =>
    exact unmoved (QueueManager.append_inFlight _ _)
  | retry command closed named found => exact unmoved (QueueManager.retry_inFlight _ _)
  | purge command opened counted persisted =>
    rw [persisted.memory.1]
    exact .still
  | _ => exact .still

/-- An ACK of a task in flight that is answered is acknowledged. -/
theorem Effect.acknowledged_of_admits {response : Response}
    (effect : Effect platform env m (.command message) (.ok (.answered response)) c)
    (command : commandOf message = some .ack) (admits : Admits platform env m message .ack) :
    ∃ text, response = .acknowledged text := by
  cases effect with
  | quiet idle silent => exact absurd admits (idle .ack command)
  | ack _ admitted named found passes persisted =>
    obtain ⟨same, -⟩ := persisted.of_ok
    exact ⟨_, Outcome.answered.inj same⟩
  | replayCut is _ _ _ unsaved => cases is.symm.trans command
  | produce is | consume is | consumeEmpty is | register is | heartbeat is | nack is | replay is
  | retry is | purge is | purgeMemory is => cases is.symm.trans command

/-- A NACK of a task in flight that is answered is accepted. -/
theorem Effect.negativeAcknowledged_of_admits {response : Response}
    (effect : Effect platform env m (.command message) (.ok (.answered response)) c)
    (command : commandOf message = some .nack) (admits : Admits platform env m message .nack) :
    ∃ action attempts text, response = .negativeAcknowledged action attempts text := by
  cases effect with
  | quiet idle silent => exact absurd admits (idle .nack command)
  | nack _ admitted named nacked passes persisted =>
    obtain ⟨same, -⟩ := persisted.of_ok
    exact ⟨_, _, _, Outcome.answered.inj same⟩
  | replayCut is _ _ _ unsaved => cases is.symm.trans command
  | produce is | consume is | consumeEmpty is | register is | heartbeat is | ack is | replay is
  | retry is | purge is | purgeMemory is => cases is.symm.trans command

/-- A pass that finds nobody expired takes no task away. -/
theorem Effect.inFlight_of_evict {order : SetOrder}
    (effect : Effect platform env m (.evict order) r c)
    (alive : ∀ worker ∈ m.broker.workerRegistry.workers,
      WorkerRegistry.expired env.time worker = false) :
    c.queueManager.inFlight = m.broker.queueManager.inFlight := by
  have nobody : m.broker.workerRegistry.deadWorkers env.time = [] := by
    refine List.filter_eq_nil_iff.mpr fun worker inside => ?_
    rw [alive worker inside]
    exact Bool.false_ne_true
  cases effect with
  | evict ran ending =>
    unfold evictDeadWorkers at ran
    rw [nobody] at ran
    cases ran
    rfl

/-! ## Brokers that answer -/

/-- `complete_task` keeps working, whatever string fields come. -/
theorem WorkerRegistry.Iterable.effect {action : Action} (ordinary : action.Ordinary)
    (effect : Effect platform env m action r c)
    (iterable : m.broker.workerRegistry.Iterable) : c.workerRegistry.Iterable := by
  cases effect with
  | consume command admitted hashed taken consumer persisted =>
    rw [persisted.memory.2.1]
    exact iterable.assignTask _ _ _
  | register command hashed known => exact iterable.register ordinary _ _
  | heartbeat command hashed => exact iterable.recordHeartbeat _ _
  | @ackAborted message id task e command admitted named found fails =>
    exact (iterable.completion ordinary.worker env id).2
  | @ack message id text task r c command admitted named found passes persisted =>
    rw [persisted.memory.2.1]
    exact (iterable.completion ordinary.worker env id).2
  | @nackAborted message id action task qm e command admitted named nacked fails =>
    exact (iterable.completion ordinary.worker env id).2
  | @nack message id action task qm r c command admitted named nacked passes persisted =>
    rw [persisted.memory.2.1]
    exact (iterable.completion ordinary.worker env id).2
  | evict ran ending =>
    obtain ⟨-, workers, -⟩ := evictDeadWorkers_spec ran
    intro worker stored
    rw [workers] at stored
    exact iterable worker (Table.mem_filter.mp stored).1
  | crashWorker active => exact iterable.put rfl active rfl
  | produce command admitted named hashed persisted =>
    rw [persisted.memory.2.1]
    exact iterable
  | purge command opened counted persisted =>
    rw [persisted.memory.2.1]
    exact iterable
  | reset persisted =>
    rw [persisted.memory.2.1]
    exact iterable
  | _ => exact iterable

/-- Nothing in the broker's state makes a request of a worker raise. -/
structure Core.Ready (platform : Platform) (c : Core) : Prop where
  iterable : c.workerRegistry.Iterable
  simulates : c.walStore.isSome = true → Simulates platform c

/-- The commands of workers. -/
def Command.isWorkers : Command → Bool
  | .register | .heartbeat | .consume | .ack | .nack => true
  | _ => false

/-- A dead letter of a ready broker can be stored: the log has a row for the task in flight, and
what was stored once can be stored again. -/
theorem Core.Ready.nackStatements_ok (ready : m.core.Ready platform) {config : Config}
    {used : List String} (sound : m.core.Sound config platform used)
    (opened : m.broker.walStore.isSome = true) {id : String} {action : NackAction} {task : Task}
    {qm : QueueManager}
    (nacked : m.broker.queueManager.negativeAcknowledge env.time id = (some (action, task), qm)) :
    ∃ statements,
      nackStatements platform env m.broker.walStore qm.deadLetterQueue action task =
        .ok statements := by
  obtain ⟨origin, found, spec⟩ := QueueManager.negativeAcknowledge_some nacked
  cases action with
  | requeued => exact ⟨_, rfl⟩
  | deadLettered =>
    obtain ⟨row, -, binds⟩ := (ready.simulates opened).nackStatements_bind sound found spec
    exact ⟨_, binds⟩

/-- A worker is answered with one dictionary, or with a task. -/
theorem flat_or_consumed {m' : Machine} {response : Response} {command : Command}
    (named : commandOf message = some command) (workers : command.isWorkers = true)
    (responds : dispatch platform env message m = .ok response m') :
    response.Flat ∨ ∃ delivery, response = .consumed delivery := by
  have flat {response : Response} (flat : response.Flat) :
      response.Flat ∨ ∃ delivery, response = .consumed delivery := Or.inl flat
  have holds : Exec.wp (handle platform env message command)
      (fun response _ => response.Flat ∨ ∃ delivery, response = .consumed delivery)
      (fun _ _ => True) m := by
    cases command with
    | register =>
      show Exec.wp (handleRegister platform env message) _ _ m
      unfold handleRegister
      simp only [Exec.wp_ite, Exec.wp_bind, Exec.wp_pure, wp_hashable, wp_onRegistry]
      exact ⟨fun _ => flat trivial, fun _ => ⟨fun _ _ => flat trivial, fun _ => trivial⟩⟩
    | heartbeat =>
      show Exec.wp (handleHeartbeat platform env message) _ _ m
      unfold handleHeartbeat
      simp only [Exec.wp_ite, Exec.wp_bind, Exec.wp_pure, wp_hashable, wp_onRegistry]
      exact ⟨fun _ => flat trivial, fun _ =>
        ⟨fun _ _ => ⟨fun _ => flat trivial, fun _ => flat trivial⟩, fun _ => trivial⟩⟩
    | consume =>
      show Exec.wp (handleConsume platform env message) _ _ m
      unfold handleConsume
      simp only [Exec.wp_ite, Exec.wp_bind, Exec.wp_pure, wp_onQueueManager, wp_hashable]
      refine ⟨fun _ => flat trivial, fun _ => ⟨fun _ => flat trivial, fun _ =>
        ⟨fun queue _ => ?_, fun _ => trivial⟩⟩⟩
      split
      · exact flat trivial
      · simp only [Exec.wp_bind, wp_hashable, wp_onRegistry, wp_onMetrics, Exec.wp_pure]
        refine ⟨fun worker _ => ?_, fun _ => trivial⟩
        exact Exec.wp_of_forall (fun _ _ => Or.inr ⟨_, rfl⟩) fun _ _ => trivial
    | ack =>
      show Exec.wp (handleAck platform env message) _ _ m
      unfold handleAck
      simp only [Exec.wp_ite, Exec.wp_bind, Exec.wp_pure]
      refine ⟨fun _ => flat trivial,
        fun _ => Exec.wp_of_forall (fun key _ => ?_) fun _ _ => trivial⟩
      split
      · exact flat trivial
      · -- whatever comes before the response, it is a dictionary of texts
        simp only [Exec.wp_bind, wp_onQueueManager, wp_hashable, wp_onMetrics, Exec.wp_pure]
        refine Exec.wp_of_forall (fun _ _ => ⟨fun queue _ => ?_, fun _ => trivial⟩)
          fun _ _ => trivial
        exact Exec.wp_of_forall (fun _ _ => flat trivial) fun _ _ => trivial
    | nack =>
      show Exec.wp (handleNack platform env message) _ _ m
      unfold handleNack
      simp only [Exec.wp_ite, Exec.wp_bind, Exec.wp_pure]
      refine ⟨fun _ => flat trivial,
        fun _ => Exec.wp_of_forall (fun key _ => ?_) fun _ _ => trivial⟩
      split
      · exact flat trivial
      · simp only [Exec.wp_bind, wp_onQueueManager]
        split
        · exact flat trivial
        · simp only [Exec.wp_bind, wp_onMetrics, Exec.wp_pure]
          refine Exec.wp_of_forall (fun _ _ => ?_) fun _ _ => trivial
          exact Exec.wp_of_forall (fun _ _ => flat trivial) fun _ _ => trivial
    | _ => cases workers
  rw [← dispatch_eq_handle named] at holds
  unfold Exec.wp at holds
  rw [responds] at holds
  exact holds

/-- **A ready broker answers a worker.**  The names that the worker sends are strings, and where
there is a store, it can bind them. -/
theorem Core.Ready.not_raises (ready : m.core.Ready platform) {config : Config}
    {used : List String} (sound : m.core.Sound config platform used) (text : TextFields message)
    (storable : m.broker.walStore.isSome = true → Storable platform message)
    {command : Command} (named : commandOf message = some command)
    (workers : command.isWorkers = true) : ¬RaisesMessage platform env m message := by
  have found : ¬Unfindable platform m message := by
    rintro ⟨given, notText, -⟩
    rcases text.task.get .null with missing | ⟨id, isText⟩
    · rw [missing] at given
      cases given
    · exact notText id isText
  have completes (id : String) : ¬Incompletable m.broker.workerRegistry message id := by
    rw [← @completion_error_iff env]
    rintro ⟨e, failed⟩
    cases failed.symm.trans (ready.iterable.completion text.worker env id).1
  obtain ⟨name, isText, -⟩ := commandOf_some named
  rintro (⟨-, unhashable⟩ | ⟨command', named', raises⟩)
  · rw [isText] at unhashable
    cases unhashable
  obtain rfl := Option.some.inj (named'.symm.trans named)
  cases command' with
  | register => exact text.worker.hashable raises.2
  | heartbeat => exact text.worker.hashable raises.2
  | consume =>
    obtain ⟨-, -, unhashable | ⟨queue, task, qm, -, -, fails⟩⟩ := raises
    · exact text.queue.hashable unhashable
    · rcases fails with unhashable | ⟨opened, e, unbound⟩
      · exact text.worker.hashable unhashable
      · obtain ⟨bound, binds⟩ := text.worker.textOf ((storable opened).worker named)
        cases unbound.symm.trans binds
  | ack =>
    rcases raises with unfindable | ⟨-, id, -, incompletable | unhashable⟩
    · exact found unfindable
    · exact completes id incompletable
    · obtain ⟨queue, isQueue⟩ := text.queue.get_str "unknown"
      rw [isQueue] at unhashable
      cases unhashable
  | nack =>
    rcases raises with unfindable | ⟨-, id, action, task, qm, -, nacked, fails⟩
    · exact found unfindable
    · rcases fails with incompletable | ⟨opened, unstorable⟩
      · exact completes id incompletable
      · obtain ⟨statements, binds⟩ := ready.nackStatements_ok sound opened nacked
        obtain ⟨e, fails⟩ := nackStatements_error_iff.mpr unstorable
        cases fails.symm.trans binds
  | _ => cases workers

end Effects

/-! ### String fields can be checked -/

/-- The value is a string. -/
def isText : Json → Bool
  | .str _ => true
  | _ => false

theorem isText_iff {value : Json} : isText value = true ↔ ∃ text, value = .str text := by
  cases value <;> simp [isText]

instance (message : Message) (field : String) : Decidable (TextField message field) :=
  decidable_of_iff ((message.lookup field).all isText = true) (by
    unfold TextField
    cases message.lookup field with
    | none => simp
    | some value => simp [isText_iff])

instance (message : Message) : Decidable (TextFields message) :=
  decidable_of_iff ((TextField message "queue" ∧ TextField message "worker_id" ∧
      TextField message "task_id") ∧ (message.lookup "queues").all
        (fun value => value.items?.any fun names => names.all isText) = true) (by
    constructor
    · rintro ⟨⟨queue, worker, task⟩, queues⟩
      refine ⟨queue, worker, task, fun value found => ?_⟩
      rw [found] at queues
      simpa [Option.any_eq_true, isText_iff] using queues
    · rintro ⟨queue, worker, task, queues⟩
      refine ⟨⟨queue, worker, task⟩, ?_⟩
      cases found : message.lookup "queues" with
      | none => rfl
      | some value => simpa [Option.any_eq_true, isText_iff] using queues value found)

section Runs

variable {config : Config} {platform : Platform} {events : List Event}

/-- Without a store, string fields are enough. -/
theorem iterable_preserved (volatile : config.persistent = false) :
    Preserved config platform
      (fun events system event => DrawsFresh events system event ∧ event.action.Ordinary)
      (fun events c => c.Sound config platform (drawn events) ∧ c.workerRegistry.Iterable)
      (fun events disk => disk.Sound platform (drawn events) ∧
        (config.persistent = false → disk = {})) := by
  refine .ofMemory And.left ?_ ?_ ?_
  · rintro events broker disk event r c - - iterable ⟨-, ordinary⟩ effect
    exact WorkerRegistry.Iterable.effect ordinary effect iterable
  · intro events disk event c _ _ persistent
    rw [volatile] at persistent
    cases persistent
  · intro events disk event _ _ worker stored
    exact absurd stored (Table.not_mem_empty worker)

/-- An event that leaves the broker ready: its fields are strings, the process does not die in it,
and a store can take what it is given. -/
structure Event.Harmless (config : Config) (platform : Platform) (event : Event) : Prop where
  ordinary : event.action.Ordinary
  whole : event.crashIn = none
  storable : config.persistent = true → event.action.Storable platform

/-- **After a run of such events the broker is ready.** -/
theorem reach_ready {broker : Broker} {disk : Database} (fresh : FreshIds events)
    (harmless : ∀ event ∈ events, event.Harmless config platform)
    (position : reach config platform events = .running broker disk) :
    (broker.core disk).Sound config platform (drawn events) ∧
      (broker.core disk).Ready platform := by
  have inside {front back : List Event} {event : Event} (split : events = front ++ event :: back) :
      event ∈ events := by
    rw [split]
    simp
  cases persistent : config.persistent with
  | true =>
    have each : Trace.EachStep (step config platform) System.initial (FollowedByLog platform)
        events := by
      intro front event back split
      have known := harmless event (inside split)
      exact ⟨fresh.drawsFresh front event back split, known.ordinary,
        known.storable persistent, known.whole⟩
    have holds := (simulates_preserved persistent).holds ⟨Database.sound_empty, fun _ => rfl⟩ each
    rw [position] at holds
    obtain ⟨sound, simulates⟩ := holds
    exact ⟨sound, simulates.iterable, fun _ => simulates⟩
  | false =>
    have each : Trace.EachStep (step config platform) System.initial
        (fun events system event => DrawsFresh events system event ∧ event.action.Ordinary)
        events := by
      intro front event back split
      exact ⟨fresh.drawsFresh front event back split, (harmless event (inside split)).ordinary⟩
    have holds :=
      (iterable_preserved persistent).holds ⟨Database.sound_empty, fun _ => rfl⟩ each
    rw [position] at holds
    obtain ⟨sound, iterable⟩ := holds
    refine ⟨sound, iterable, fun opened => ?_⟩
    rw [sound.store, persistent] at opened
    cases opened

/-- An event that does not kill the process is an effect on it. -/
theorem step_effect_running {broker : Broker} {disk : Database} {event : Event}
    (whole : event.crashIn = none) (other : event.action ≠ .crash) :
    ∃ r broker' disk', step config platform (.running broker disk) event =
        (outcomeOf r, .running broker' disk') ∧
      Effect platform event.env { broker, disk, crashIn := none } event.action r
        (broker'.core disk') := by
  have transition := step_transition config platform (.running broker disk) event
  generalize step config platform (.running broker disk) event = next at transition ⊢
  obtain ⟨outcome, next⟩ := next
  cases transition with
  | ran effect _ survived =>
    rw [whole] at effect
    exact ⟨_, _, _, rfl, effect⟩
  | died effect cut =>
    rcases cut with cut | died
    · exact absurd whole cut
    · exact absurd died (effect.survives whole other)

/-- A message that does not raise is answered. -/
theorem step_of_not_raises {broker : Broker} {disk : Database} {env : Env} {message : Message}
    (quiet : ¬RaisesMessage platform env { broker, disk, crashIn := none } message) :
    ∃ response m broker' disk',
      dispatch platform env message { broker, disk, crashIn := none } = .ok response m ∧
      step config platform (.running broker disk) { action := .command message, env } =
        (.answered response, .running broker' disk') ∧
      Effect platform env { broker, disk, crashIn := none } (.command message)
        (.ok (.answered response)) (broker'.core disk') := by
  obtain ⟨r, broker', disk', steps, effect⟩ :=
    @step_effect_running config platform broker disk { action := .command message, env } rfl nofun
  cases ran : dispatch platform env message { broker, disk, crashIn := none } with
  | error stop m => exact absurd (raisesMessage_of_error rfl ran) quiet
  | ok response m =>
    have concludes : step config platform (.running broker disk)
        { action := .command message, env } = conclude (.ok (.answered response) m) := by
      unfold step perform
      simp only [bind, EStateM.bind, ran]
      rfl
    rw [steps] at concludes
    have isAnswer : r = .ok (.answered response) := by
      simp only [conclude] at concludes
      split_ifs at concludes
      · rcases r with (e | _) | outcome
        · cases concludes
        · cases concludes
        · exact congrArg Except.ok (Prod.mk.inj concludes).1
      · cases (Prod.mk.inj concludes).2
    subst isAnswer
    exact ⟨response, m, broker', disk', rfl, steps, effect⟩

end Runs

/-! ### Responses that arrive -/

/-- The client gets the response: `_send_response` can write it, and the client's `json.loads` can
read it. -/
def Wire.Conveys (wire : Wire) (data : Json) : Prop :=
  wire.Sendable data ∧ data.depth ≤ wire.readDepth

instance (wire : Wire) (data : Json) : Decidable (wire.Conveys data) :=
  inferInstanceAs (Decidable (_ ∧ _))

/-- If there is a response, its text has less than 2³² bytes. -/
def Outcome.Framed (wire : Wire) : Outcome → Prop
  | .answered response => (wire.encoded (response.toJson wire)).length < 2 ^ 32
  | _ => True

instance (wire : Wire) (outcome : Outcome) : Decidable (outcome.Framed wire) :=
  match outcome with
  | .answered response =>
    inferInstanceAs (Decidable ((wire.encoded (response.toJson wire)).length < 2 ^ 32))
  | .completed => isTrue trivial
  | .replayedAll _ => isTrue trivial
  | .raised _ => isTrue trivial
  | .crashed => isTrue trivial
  | .ignored => isTrue trivial

/-- A response without a task in it arrives, if it is short. -/
theorem Response.Flat.conveys {wire : Wire} {response : Response} (flat : response.Flat)
    (framed : (Outcome.answered response).Framed wire) : wire.Conveys (response.toJson wire) := by
  have depth := Response.depth_of_flat wire flat
  refine ⟨⟨?_, framed⟩, ?_⟩
  · rw [depth]
    exact wire.replyDepth_pos
  · rw [depth]
    exact wire.readDepth_pos

end DistroSync
