import DistroSync.Scenario

/-!
# The write-ahead log simulates the queue manager

With persistence enabled and string fields, and with crashes only between events, the
tasks that are pending or in flight in memory are at every moment those of the live
rows of the table `tasks`: the same ids, queues, payloads and attempt counts.  Hence a
crash and a start bring back exactly the tasks that were not finished.

This needs more than strings.  `json.loads` returns strings that SQLite cannot bind, since
UTF-8 has no code for a surrogate, and payloads that are nested too deeply for `json.dumps`;
a PRODUCE with one of these enqueues its task and then raises in `save_task`
(`unstorable_task_unrecorded`).  `Storable` is what the store can take.

The two sides are compared as sets of `Facts`.  On either side an action inserts or
removes the facts of one id; `Ledger` and `Database` have one lemma for each such
change, and the simulation puts them side by side, action by action.

All this matters because every handler changes the memory first and can raise
afterwards: the invariant `Simulates` therefore also says what keeps the handlers from
raising (queue names are strings, no transaction is left open, the queues of every
worker can be iterated).
-/

namespace DistroSync

open Keyed Py

variable {task task' : Task} {qm : QueueManager} {payload : Json} {now : Rat} {c : Core}
  {registry : WorkerRegistry} {success : Outcome}

/-- What the log records of an unfinished task. -/
structure Facts where
  taskId : String
  queueName : Scalar
  payload : Json
  attempts : Nat

/-- The facts about a task in memory. -/
def Task.facts (task : Task) : Facts :=
  ⟨task.taskId, task.queueName, task.payload, task.attempts⟩

/-- The tasks that are pending or in flight. -/
def QueueManager.unfinished (qm : QueueManager) : Set Facts :=
  {facts | ∃ task, (task ∈ qm.pending ∨ task ∈ qm.inFlight) ∧ task.facts = facts}

/-- The rows of `tasks` whose status is pending or in flight, with their payloads decoded. -/
def Database.unfinished (db : Database) (platform : Platform) : Set Facts :=
  {facts | ∃ row ∈ db.tasks, row.live = true ∧
    platform.loads row.payload = some facts.payload ∧
    facts.taskId = row.taskId ∧ facts.queueName = .str row.queueName ∧
    facts.attempts = row.attempts}

/-! ## Changes in memory -/

section Memory

/-- The unfinished tasks of a ledger. -/
def Ledger.unfinished (l : Ledger) : Set Facts :=
  {facts | ∃ task, (task ∈ l.pending ∨ task ∈ l.inFlight) ∧ task.facts = facts}

theorem QueueManager.unfinished_eq (qm : QueueManager) :
    qm.unfinished = qm.ledger.unfinished := rfl

variable {qm : QueueManager} {l : Ledger} {facts : Facts}

theorem mem_unfinished_created (pending : l.pending = task ::ₘ qm.ledger.pending)
    (inFlight : l.inFlight = qm.ledger.inFlight) :
    facts ∈ l.unfinished ↔ facts = task.facts ∨ facts ∈ qm.unfinished := by
  simp only [Ledger.unfinished, Set.mem_ofPred_eq, pending, inFlight, Multiset.mem_cons]
  constructor
  · rintro ⟨other, (rfl | waiting) | flying, rfl⟩
    · exact Or.inl rfl
    · exact Or.inr ⟨other, Or.inl waiting, rfl⟩
    · exact Or.inr ⟨other, Or.inr flying, rfl⟩
  · rintro (rfl | ⟨other, waiting | flying, rfl⟩)
    · exact ⟨task, Or.inl (Or.inl rfl), rfl⟩
    · exact ⟨other, Or.inl (Or.inr waiting), rfl⟩
    · exact ⟨other, Or.inr flying, rfl⟩

/-- A delivery replaces the facts of one id. -/
theorem mem_unfinished_delivered {head : Task} {workerId : Json} (distinct : qm.Distinct)
    (split : qm.ledger.pending = head ::ₘ l.pending)
    (inFlight : l.inFlight = head.deliver workerId ::ₘ qm.ledger.inFlight) :
    facts ∈ l.unfinished ↔
      facts = (head.deliver workerId).facts ∨
        facts ∈ qm.unfinished ∧ facts.taskId ≠ head.taskId := by
  have headIn : head ∈ qm.ledger.pending := by
    rw [split]
    exact Multiset.mem_cons_self _ _
  simp only [Ledger.unfinished, Set.mem_ofPred_eq, inFlight, Multiset.mem_cons]
  constructor
  · rintro ⟨task, waiting | rfl | flying, rfl⟩
    · have old : task ∈ qm.ledger.pending := by
        rw [split]
        exact Multiset.mem_cons_of_mem waiting
      exact Or.inr ⟨⟨task, Or.inl old, rfl⟩, distinct.ne_of_pending split waiting⟩
    · exact Or.inl rfl
    · exact Or.inr ⟨⟨task, Or.inr flying, rfl⟩,
        (distinct.apart.pending_inFlight head headIn task flying).symm⟩
  · rintro (rfl | ⟨⟨task, waiting | flying, rfl⟩, other⟩)
    · exact ⟨_, Or.inr (Or.inl rfl), rfl⟩
    · have old : task ∈ head ::ₘ l.pending := split ▸ waiting
      rcases Multiset.mem_cons.mp old with rfl | inRest
      · exact absurd rfl other
      · exact ⟨task, Or.inl inRest, rfl⟩
    · exact ⟨task, Or.inr (Or.inr flying), rfl⟩

/-- A task that leaves the flight for good takes the facts of its id with it. -/
theorem mem_unfinished_removed {id : String} (distinct : qm.Distinct)
    (found : qm.inFlight.find? id = some task) (pending : l.pending = qm.ledger.pending)
    (inFlight : l.inFlight = ((qm.inFlight.erase id).rows : Multiset Task)) :
    facts ∈ l.unfinished ↔ facts ∈ qm.unfinished ∧ facts.taskId ≠ id := by
  have isId : task.taskId = id := Table.key_of_find? found
  simp only [Ledger.unfinished, Set.mem_ofPred_eq, pending, inFlight]
  constructor
  · rintro ⟨other, waiting | flying, rfl⟩
    · refine ⟨⟨other, Or.inl waiting, rfl⟩, ?_⟩
      exact isId ▸ distinct.apart.pending_inFlight other waiting task (Table.mem_of_find? found)
    · obtain ⟨old, apart⟩ := Table.mem_erase.mp flying
      exact ⟨⟨other, Or.inr old, rfl⟩, apart⟩
  · rintro ⟨⟨other, waiting | flying, rfl⟩, apart⟩
    · exact ⟨other, Or.inl waiting, rfl⟩
    · exact ⟨other, Or.inr (Table.mem_erase.mpr ⟨flying, apart⟩), rfl⟩

/-- Going back from flight to a queue changes no facts. -/
theorem unfinished_returned {l l' : Ledger} {taken : String → Prop}
    (returns : Ledger.Returns Ledger.inFlight Task.release taken l l') :
    l'.unfinished = l.unfinished := by
  ext facts
  constructor
  · rintro ⟨task, pending | flying, rfl⟩
    · rcases (returns.mem_pending task).mp pending with old | ⟨origin, flew, -, rfl⟩
      · exact ⟨task, Or.inl old, rfl⟩
      · exact ⟨origin, Or.inr flew, rfl⟩
    · exact ⟨task, Or.inr ((returns.mem_source task).mp flying).1, rfl⟩
  · rintro ⟨task, pending | flying, rfl⟩
    · exact ⟨task, Or.inl ((returns.mem_pending task).mpr (Or.inl pending)), rfl⟩
    · by_cases isTaken : taken task.taskId
      · exact ⟨task.release,
          Or.inl ((returns.mem_pending _).mpr (Or.inr ⟨task, flying, isTaken, rfl⟩)), rfl⟩
      · exact ⟨task, Or.inr ((returns.mem_source task).mpr ⟨flying, isTaken⟩), rfl⟩

end Memory

/-! ## Changes in the database -/

section Disk

variable {platform : Platform} {db : Database} {facts : Facts}

theorem mem_unfinished_saveTask {row : TaskRow} (live : row.live = true)
    (decodes : platform.loads row.payload = some payload)
    (absent : ∀ other ∈ db.tasks, other.taskId ≠ row.taskId) :
    facts ∈ (db.saveTask row).unfinished platform ↔
      facts = ⟨row.taskId, .str row.queueName, payload, row.attempts⟩ ∨
        facts ∈ db.unfinished platform := by
  constructor
  · rintro ⟨other, stored, isLive, loads, isId, queue, attempts⟩
    rcases Table.mem_upsert.mp stored with rfl | ⟨old, -⟩
    · rw [decodes] at loads
      cases loads
      cases facts
      simp_all
    · exact Or.inr ⟨other, old, isLive, loads, isId, queue, attempts⟩
  · rintro (rfl | ⟨other, stored, rest⟩)
    · exact ⟨row, Table.mem_upsert.mpr (Or.inl rfl), live, decodes, rfl, rfl, rfl⟩
    · exact ⟨other, Table.mem_upsert.mpr (Or.inr ⟨stored, absent other stored⟩), rest⟩

/-- Marking the row of an id replaces its facts, or removes them with a final status. -/
theorem mem_unfinished_updateTaskStatus {row : TaskRow} {status : TaskStatus}
    {attempts : Option Nat} {worker : Option (Option String)} (stored : row ∈ db.tasks)
    (decodes : platform.loads row.payload = some payload) :
    facts ∈ (db.updateTaskStatus row.taskId status attempts worker now).unfinished platform ↔
      (facts ∈ db.unfinished platform ∧ facts.taskId ≠ row.taskId) ∨
        status.live = true ∧
          facts = ⟨row.taskId, .str row.queueName, payload, attempts.getD row.attempts⟩ := by
  constructor
  · rintro ⟨other, inside, isLive, loads, isId, queue, count⟩
    rcases Database.mem_updateTaskStatus.mp inside with ⟨old, apart⟩ | ⟨old, member, same, rfl⟩
    · exact Or.inl ⟨⟨other, old, isLive, loads, isId, queue, count⟩, isId ▸ apart⟩
    · have isRow : old = row := db.tasks.eq_of_key_eq member stored same
      subst isRow
      refine Or.inr ⟨isLive, ?_⟩
      change platform.loads old.payload = _ at loads
      rw [decodes] at loads
      cases loads
      cases facts
      simp_all [TaskRow.mark]
  · rintro (⟨⟨other, old, isLive, loads, isId, rest⟩, apart⟩ | ⟨isLive, rfl⟩)
    · exact ⟨other, Database.mem_updateTaskStatus.mpr (Or.inl ⟨old, isId ▸ apart⟩), isLive, loads,
        isId, rest⟩
    · exact ⟨_, Database.mem_updateTaskStatus.mpr (Or.inr ⟨row, stored, rfl, rfl⟩), isLive,
        decodes, rfl, rfl, rfl⟩

theorem mem_unfinished_addToDlq {row : DlqRow} :
    facts ∈ (db.addToDlq row).unfinished platform ↔
      facts ∈ db.unfinished platform ∧ facts.taskId ≠ row.taskId := by
  constructor
  · rintro ⟨other, inside, isLive, loads, isId, rest⟩
    obtain ⟨old, apart⟩ := Table.mem_erase.mp inside
    exact ⟨⟨other, old, isLive, loads, isId, rest⟩, isId ▸ apart⟩
  · rintro ⟨⟨other, old, isLive, loads, isId, rest⟩, apart⟩
    exact ⟨other, Table.mem_erase.mpr ⟨old, isId ▸ apart⟩, isLive, loads, isId, rest⟩

/-- Marking a live row as live again, with the attempts it has, changes no facts. -/
theorem unfinished_remarked {row : TaskRow} {status : TaskStatus} {worker : Option (Option String)}
    (stored : row ∈ db.tasks) (live : row.live = true)
    (decodes : platform.loads row.payload = some payload) (stays : status.live = true) :
    (db.updateTaskStatus row.taskId status (some row.attempts) worker now).unfinished platform =
      db.unfinished platform := by
  ext facts
  rw [mem_unfinished_updateTaskStatus stored decodes]
  constructor
  · rintro (⟨old, -⟩ | ⟨-, rfl⟩)
    · exact old
    · exact ⟨row, stored, live, decodes, rfl, rfl, rfl⟩
  · intro old
    by_cases same : facts.taskId = row.taskId
    · obtain ⟨other, member, -, loads, isId, queue, count⟩ := old
      have isRow : other = row := db.tasks.eq_of_key_eq member stored (isId.symm.trans same)
      subst isRow
      rw [decodes] at loads
      cases loads
      refine Or.inr ⟨stays, ?_⟩
      cases facts
      simp_all
    · exact Or.inl ⟨old, same⟩

end Disk

/-! ## Messages that keep the handlers from raising -/

section Messages

/-- The field is a string where the message has it. -/
def TextField (message : Message) (field : String) : Prop :=
  ∀ value, message.lookup field = some value → ∃ text, value = .str text

/-- The fields that name something are strings, and so is every entry of `queues`. -/
structure TextFields (message : Message) : Prop where
  queue : TextField message "queue"
  worker : TextField message "worker_id"
  task : TextField message "task_id"
  queues : ∀ value, message.lookup "queues" = some value →
    ∃ names, value.items? = some names ∧ ∀ name ∈ names, ∃ text, name = .str text

variable {message : Message} {field : String}

theorem textFields_of_strings (strings : ∀ entry ∈ message, ∃ text, entry.2 = .str text) :
    TextFields message := by
  have isText (field : String) : TextField message field := by
    intro value found
    obtain ⟨before, later, rfl, -⟩ := List.lookup_eq_some_iff.mp found
    exact strings (field, value) (by simp)
  refine ⟨isText _, isText _, isText _, fun value found => ?_⟩
  obtain ⟨text, rfl⟩ := isText _ value found
  refine ⟨_, rfl, fun name inside => ?_⟩
  obtain ⟨c, -, rfl⟩ := List.mem_map.mp inside
  exact ⟨_, rfl⟩

/-- A field that is a string or missing. -/
theorem TextField.get (isText : TextField message field) (default : Json) :
    message.get field default = default ∨ ∃ text, message.get field default = .str text := by
  unfold Message.get
  cases found : message.lookup field with
  | none => exact Or.inl rfl
  | some value =>
    obtain ⟨text, rfl⟩ := isText value found
    exact Or.inr ⟨text, rfl⟩

theorem TextField.get_str (isText : TextField message field) (default : String) :
    ∃ text, message.get field (.str default) = .str text := by
  rcases isText.get (.str default) with missing | present
  · exact ⟨default, missing⟩
  · exact present

/-- A truthy name is a string. -/
theorem TextField.scalar (isText : TextField message field) {name : Scalar}
    (named : (message.get field .null).truthy = true)
    (hashed : (message.get field .null).scalar? = some name) : ∃ text, name = .str text := by
  rcases isText.get .null with missing | ⟨text, present⟩
  · rw [missing] at named
    cases named
  · rw [present] at hashed
    cases hashed
    exact ⟨text, rfl⟩

theorem TextField.hashable (isText : TextField message field) :
    (message.get field .null).scalar? ≠ none := by
  rcases isText.get .null with missing | ⟨text, present⟩
  · simp [missing, Json.scalar?]
  · simp [present]

/-- The text of a string. -/
def stringOf : Json → Option String
  | .str text => some text
  | _ => none

/-- If the field is a string, SQLite can bind it. -/
def BindableField (platform : Platform) (message : Message) (field : String) : Prop :=
  ∀ text ∈ stringOf (message.get field .null), platform.Binds text

/-- The store can take what a handler gives it: SQLite can bind the names, and `json.dumps` can
write the payload of a PRODUCE. -/
structure Storable (platform : Platform) (message : Message) : Prop where
  queue : commandOf message = some .produce ∨ commandOf message = some .dlqPurge →
    BindableField platform message "queue"
  worker : commandOf message = some .consume → BindableField platform message "worker_id"
  payload : commandOf message = some .produce → platform.Writes (message.get "task" .null)

variable {platform : Platform}

theorem TextField.textOf (isText : TextField message field)
    (bindable : BindableField platform message field) :
    ∃ text, platform.textOf (message.get field .null) = .ok text := by
  rcases isText.get .null with missing | ⟨text, present⟩
  · exact ⟨none, by rw [missing]; rfl⟩
  · have binds := bindable text (by rw [present]; rfl)
    exact ⟨some text, by rw [present, binds.textOf]⟩

theorem TextField.optionalTextOf (isText : TextField message field)
    (bindable : BindableField platform message field) :
    ∃ text, platform.optionalTextOf (message.get field .null) = .ok text := by
  obtain ⟨text, bound⟩ := isText.textOf bindable
  unfold Platform.optionalTextOf
  split_ifs
  · exact ⟨none, rfl⟩
  · exact ⟨some text, by rw [bound]; rfl⟩

theorem TextField.queueFilter (isText : TextField message field)
    (bindable : BindableField platform message field) :
    ∃ name, platform.queueFilter (message.get field .null) = .ok name := by
  obtain ⟨text, bound⟩ := isText.textOf bindable
  unfold Platform.queueFilter
  split_ifs
  · exact ⟨some text, by rw [bound]; rfl⟩
  · exact ⟨none, rfl⟩

instance (message : Message) (field : String) : Decidable (BindableField platform message field) :=
  inferInstanceAs (Decidable (∀ text ∈ stringOf (message.get field .null), platform.Binds text))

instance (message : Message) : Decidable (Storable platform message) :=
  decidable_of_iff
    ((commandOf message = some .produce ∨ commandOf message = some .dlqPurge →
        BindableField platform message "queue") ∧
      (commandOf message = some .consume → BindableField platform message "worker_id") ∧
      (commandOf message = some .produce → platform.Writes (message.get "task" .null)))
    ⟨fun all => ⟨all.1, all.2.1, all.2.2⟩, fun all => ⟨all.queue, all.worker, all.payload⟩⟩

end Messages

/-! ## Registries whose workers can be completed -/

section Registry

/-- `complete_task` can run over the queues of every worker. -/
def WorkerRegistry.Iterable (registry : WorkerRegistry) : Prop :=
  ∀ worker ∈ registry.workers, ∃ names, worker.queues.items? = some names ∧
    ∀ name ∈ names, name.key?.isSome = true

namespace WorkerRegistry.Iterable

variable {registry registry' : WorkerRegistry}

theorem put (iterable : registry.Iterable) {info info' : WorkerInfo}
    (workers : registry'.workers = registry.workers.put info') (stored : info ∈ registry.workers)
    (queues : info'.queues = info.queues) : registry'.Iterable := by
  intro worker member
  rw [workers] at member
  rcases Table.mem_put.mp member with rfl | ⟨old, -⟩
  · rw [queues]
    exact iterable info stored
  · exact iterable worker old

theorem register (iterable : registry.Iterable) {message : Message} (text : TextFields message)
    (worker : Scalar) (now : Rat) :
    (registry.register worker (message.get "queues" (.arr [])) now).2.Iterable := by
  intro info member
  rcases Table.mem_put.mp member with rfl | ⟨old, -⟩
  · dsimp only
    split
    · unfold Message.get
      cases found : message.lookup "queues" with
      | none => exact ⟨[], rfl, by simp⟩
      | some value =>
        obtain ⟨names, items, strings⟩ := text.queues value found
        refine ⟨names, items, fun name inside => ?_⟩
        obtain ⟨string, rfl⟩ := strings name inside
        rfl
    · exact ⟨[], rfl, by simp⟩
  · exact iterable info old

theorem recordHeartbeat (iterable : registry.Iterable) (worker : Key) (now : Rat) :
    (registry.recordHeartbeat worker now).2.Iterable := by
  unfold WorkerRegistry.recordHeartbeat
  cases found : registry.workers.find? worker with
  | none => exact iterable
  | some info => exact iterable.put rfl (Table.mem_of_find? found) rfl

theorem assignTask (iterable : registry.Iterable) (worker : Key) (taskId : String) (now : Rat) :
    (registry.assignTask worker taskId now).Iterable := by
  unfold WorkerRegistry.assignTask
  cases found : registry.workers.find? worker with
  | none => exact iterable
  | some info => exact iterable.put rfl (Table.mem_of_find? found) rfl

theorem completeTask (iterable : registry.Iterable) (worker : Key) (taskId : String) (now : Rat) :
    (registry.completeTask worker taskId now).1 = .ok () ∧
      (registry.completeTask worker taskId now).2.Iterable := by
  have workers := registry.completeTask_workers worker taskId now
  cases found : registry.workers.find? worker with
  | none =>
    simp only [found] at workers
    refine ⟨by simp [WorkerRegistry.completeTask, found], ?_⟩
    unfold WorkerRegistry.Iterable
    rw [workers]
    exact iterable
  | some info =>
    simp only [found] at workers
    refine ⟨?_, iterable.put workers (Table.mem_of_find? found) rfl⟩
    obtain ⟨names, items, hashable⟩ := iterable info (Table.mem_of_find? found)
    unfold WorkerRegistry.completeTask
    simp only [found]
    cases info.taskStartTimes.find? taskId with
    | none => rfl
    | some entry =>
      simp only [items]
      exact recordLatencies_ok _ hashable _

theorem completion (iterable : registry.Iterable) {message : Message}
    (worker : TextField message "worker_id") (env : Env) (id : String) :
    (completion env registry message id).1 = .ok () ∧
      (completion env registry message id).2.Iterable := by
  obtain ⟨text, isText⟩ := worker.get_str ""
  simp only [DistroSync.completion, isText, Json.scalar?_str]
  exact iterable.completeTask _ _ _

theorem ackChecks (iterable : registry.Iterable) {message : Message} (text : TextFields message)
    (env : Env) (id : String) : ackChecks env registry message id = .ok () := by
  obtain ⟨queue, isQueue⟩ := text.queue.get_str "unknown"
  simp only [DistroSync.ackChecks, (iterable.completion text.worker env id).1, isQueue,
    Json.scalar?_str]

end WorkerRegistry.Iterable

end Registry

/-! ## The simulation, action by action -/

/-- The log and the memory agree, and nothing can make the next handler raise halfway. -/
structure Simulates (platform : Platform) (c : Core) : Prop where
  clean : c.walStore = some {}
  iterable : c.workerRegistry.Iterable
  same : c.queueManager.unfinished = c.disk.unfinished platform

/-- A process that does not die in a store call, and whose statements bind, commits. -/
theorem Persist.commits {crashIn : Option Nat} {c' : Core}
    {bound : Except Error (Database → Database)} {r : Except Stop Outcome}
    {statements : Database → Database} (persisted : Persist crashIn c bound success r c')
    (whole : crashIn = none) (clean : c.walStore = some {}) (binds : bound = .ok statements) :
    c' = { c with walStore := some {}, disk := statements c.disk } := by
  cases persisted with
  | off absent =>
    rw [clean] at absent
    cases absent
  | died present binds spent =>
    rw [whole] at spent
    cases spent
  | refused present fails =>
    rw [binds] at fails
    cases fails
  | committed present binds' alive =>
    cases binds.symm.trans binds'
    rfl

namespace Simulates

variable {platform : Platform} {c : Core}

/-- The row behind an unfinished task. -/
theorem row (simulates : Simulates platform c)
    (unfinished : task ∈ c.queueManager.pending ∨ task ∈ c.queueManager.inFlight) :
    ∃ row ∈ c.disk.tasks, row.live = true ∧ platform.loads row.payload = some task.payload ∧
      task.taskId = row.taskId ∧ task.queueName = .str row.queueName ∧
      task.attempts = row.attempts := by
  have inside : task.facts ∈ c.queueManager.unfinished := ⟨task, unfinished, rfl⟩
  rw [simulates.same] at inside
  exact inside

/-- PRODUCE inserts the task and its row. -/
theorem created (simulates : Simulates platform c) {env : Env} {name : String} {row : TaskRow}
    (binds : platform.taskRow (env.task (.str name) payload) env.time = .ok row)
    (absent : ∀ other ∈ c.disk.tasks, other.taskId ≠ env.uuid.text) :
    Simulates platform
      { c with
        queueManager := c.queueManager.enqueue env.uuid.text env.time (.str name) payload
        walStore := some {}
        disk := c.disk.saveTask row } where
  clean := rfl
  iterable := simulates.iterable
  same := by
    obtain ⟨isId, encodes, status, attempts, -, isName⟩ := Platform.taskRow_ok binds
    have live : row.live = true := by
      rw [TaskRow.live, status]
      rfl
    have decodes : platform.loads row.payload = some payload := encodes.loads
    have named : row.queueName = name := (Platform.eq_of_requiredTextOf_str isName).2
    have ledger := c.queueManager.ledger_enqueue env.uuid.text env.time (.str name) payload
    have pending : (c.queueManager.enqueue env.uuid.text env.time (.str name)
        payload).ledger.pending =
          env.task (.str name) payload ::ₘ c.queueManager.ledger.pending := by
      rw [ledger]
      rfl
    ext facts
    rw [QueueManager.unfinished_eq, mem_unfinished_created pending (by rw [ledger]),
      mem_unfinished_saveTask live decodes (isId ▸ absent), isId, named, attempts, simulates.same]
    rfl

/-- CONSUME changes the status and the attempts on both sides. -/
theorem delivered (simulates : Simulates platform c) (distinct : c.queueManager.Distinct)
    {queue : Scalar} {workerId : Json} {text : Option (Option String)}
    (iterable : registry.Iterable)
    (taken : c.queueManager.dequeue queue workerId = (some task, qm)) :
    Simulates platform
      { queueManager := qm
        workerRegistry := registry
        walStore := some {}
        disk := c.disk.updateTaskStatus task.taskId .inFlight (some task.attempts) text now } where
  clean := rfl
  iterable := iterable
  same := by
    obtain ⟨head, rest, rfl, split, ledger⟩ := QueueManager.ledger_dequeue_some distinct taken
    have pending : c.queueManager.ledger.pending = head ::ₘ qm.ledger.pending := by
      rw [split, ledger]
    have inFlight : qm.ledger.inFlight =
        head.deliver workerId ::ₘ c.queueManager.ledger.inFlight := by rw [ledger]
    have headIn : head ∈ c.queueManager.ledger.pending := by
      rw [split]
      exact Multiset.mem_cons_self _ _
    obtain ⟨row, stored, -, decodes, isId, named, -⟩ := simulates.row (Or.inl headIn)
    ext facts
    rw [QueueManager.unfinished_eq, mem_unfinished_delivered distinct pending inFlight,
      Task.deliver_taskId, isId, mem_unfinished_updateTaskStatus stored decodes, simulates.same]
    have new : (head.deliver workerId).facts =
        ⟨row.taskId, .str row.queueName, head.payload, head.attempts + 1⟩ := by
      simp [Task.facts, Task.deliver, isId, named]
    rw [new, or_comm]
    simp [TaskStatus.live]

/-- A task that leaves the flight for good, with its row. -/
theorem removed (simulates : Simulates platform c) (distinct : c.queueManager.Distinct)
    {id : String} {disk : Database} (iterable : registry.Iterable)
    (found : c.queueManager.inFlight.find? id = some task)
    (pending : qm.ledger.pending = c.queueManager.ledger.pending) (inFlight : qm.ledger.inFlight =
      ((c.queueManager.inFlight.erase id).rows : Multiset Task))
    (row : ∀ facts, facts ∈ disk.unfinished platform ↔
      facts ∈ c.disk.unfinished platform ∧ facts.taskId ≠ id) :
    Simulates platform
      { queueManager := qm, workerRegistry := registry, walStore := some {}, disk := disk } where
  clean := rfl
  iterable := iterable
  same := by
    ext facts
    rw [QueueManager.unfinished_eq, mem_unfinished_removed distinct found pending inFlight,
      simulates.same, row]

/-- ACK removes the task, and its row is no longer live. -/
theorem acknowledged (simulates : Simulates platform c) (distinct : c.queueManager.Distinct)
    {id : String} (iterable : registry.Iterable)
    (found : c.queueManager.inFlight.find? id = some task) :
    Simulates platform
      { queueManager := (c.queueManager.acknowledge id).2
        workerRegistry := registry
        walStore := some {}
        disk := c.disk.updateTaskStatus id .done none none now } := by
  have ledger := QueueManager.ledger_acknowledge distinct found
  refine simulates.removed distinct iterable found (by rw [ledger]) (by rw [ledger]) fun facts => ?_
  obtain ⟨row, stored, -, decodes, isId, -⟩ := simulates.row (Or.inr (Table.mem_of_find? found))
  rw [← Table.key_of_find? found, isId, mem_unfinished_updateTaskStatus stored decodes]
  simp [TaskStatus.live]

/-- The row moves to the other table. -/
theorem buried (simulates : Simulates platform c) (distinct : c.queueManager.Distinct) {id : String}
    {row : DlqRow} (iterable : registry.Iterable)
    (found : c.queueManager.inFlight.find? id = some task)
    (spec : QueueManager.Nacked c.queueManager now task .deadLettered task' qm)
    (isId : row.taskId = id) :
    Simulates platform
      { queueManager := qm
        workerRegistry := registry
        walStore := some {}
        disk := c.disk.addToDlq row } := by
  have ledger := QueueManager.ledger_buried distinct found spec
  refine simulates.removed distinct iterable found (by rw [ledger]) (by rw [ledger]) fun facts => ?_
  rw [mem_unfinished_addToDlq, isId]

/-- A requeued task keeps its row, which stays live. -/
theorem requeued (simulates : Simulates platform c) {id : String} (iterable : registry.Iterable)
    (found : c.queueManager.inFlight.find? id = some task)
    (spec : QueueManager.Nacked c.queueManager now task .requeued task' qm) :
    Simulates platform
      { queueManager := qm
        workerRegistry := registry
        walStore := some {}
        disk := c.disk.updateTaskStatus task'.taskId .pending (some task'.attempts) none now } where
  clean := rfl
  iterable := iterable
  same := by
    have ledger := QueueManager.ledger_requeued found spec
    have split := QueueManager.inFlight_of_find? found
    have returns : Ledger.Returns Ledger.inFlight Task.release (fun other => other = id)
        c.queueManager.ledger qm.ledger := by
      refine .one found rfl (by rw [ledger]) (by rw [ledger]) ?_
      rw [ledger]
      simp only [Ledger.ids, split, Multiset.map_cons, Task.release_taskId, Multiset.cons_add,
        Multiset.add_cons]
    obtain ⟨row, stored, live, decodes, isId, -, attempts⟩ :=
      simulates.row (Or.inr (Table.mem_of_find? found))
    rw [QueueManager.unfinished_eq, unfinished_returned returns, spec.taskId_eq, spec.attempts_eq,
      isId, attempts, unfinished_remarked stored live decodes rfl]
    exact simulates.same

/-- Neither side changes. -/
theorem unchanged (simulates : Simulates platform c) {c' : Core} (clean : c'.walStore = some {})
    (iterable : c'.workerRegistry.Iterable)
    (memory : c'.queueManager.ledger.unfinished = c.queueManager.ledger.unfinished)
    (tasks : c'.disk.tasks = c.disk.tasks) : Simulates platform c' where
  clean := clean
  iterable := iterable
  same := by
    have disk : c'.disk.unfinished platform = c.disk.unfinished platform := by
      unfold Database.unfinished
      rw [tasks]
    rw [disk, QueueManager.unfinished_eq, memory]
    exact simulates.same

end Simulates

/-- The actions of a run that the log follows: all but the dashboard's replay-all, which
does not touch the database, and with string fields in the messages. -/
def Action.Ordinary : Action → Prop
  | .command message => TextFields message
  | .replayAll => False
  | _ => True

/-- The store can take what the action gives it. -/
def Action.Storable (platform : Platform) : Action → Prop
  | .command message => DistroSync.Storable platform message
  | _ => True

instance (platform : Platform) (action : Action) : Decidable (action.Storable platform) :=
  match action with
  | .command message => inferInstanceAs (Decidable (DistroSync.Storable platform message))
  | .evict _ => isTrue trivial
  | .reset => isTrue trivial
  | .replayAll => isTrue trivial
  | .crashWorker _ => isTrue trivial
  | .crash => isTrue trivial
  | .start => isTrue trivial

namespace Simulates

variable {config : Config} {platform : Platform} {env : Env} {m : Machine} {message : Message}
  {r : Except Stop Outcome} {c : Core} {used : List String}

/-- A PRODUCE saves the task that it enqueues. -/
theorem produce (simulates : Simulates platform m.core) (whole : m.crashIn = none)
    (text : TextFields message) (storable : Storable platform message)
    (absent : ∀ row ∈ m.disk.tasks, row.taskId ≠ env.uuid.text) {queue : Scalar}
    (command : commandOf message = some .produce)
    (named : (message.get "queue" .null).truthy = true)
    (hashed : (message.get "queue" .null).scalar? = some queue)
    (persisted : Persist m.crashIn
      { m.core with
        queueManager := m.broker.queueManager.enqueue env.uuid.text env.time queue
          (message.get "task" .null) }
      ((platform.taskRow (env.task queue (message.get "task" .null)) env.time).map
        fun row db => db.saveTask row)
      (.answered (.produced env.uuid.text)) r c) :
    Simulates platform c := by
  obtain ⟨name, rfl⟩ := text.queue.scalar named hashed
  have binds := storable.queue (Or.inl command) name (by rw [Json.eq_str_of_scalar? hashed]; rfl)
  have saves : platform.taskRow (env.task (.str name) (message.get "task" .null)) env.time = _ :=
    Platform.taskRow_of_writes (storable.payload command) binds.requiredTextOf rfl
  rw [persisted.commits whole simulates.clean (congrArg (Except.map _) saves)]
  exact simulates.created saves absent

/-- A CONSUME marks the row of the task that it takes. -/
theorem consume (simulates : Simulates platform m.core) (whole : m.crashIn = none)
    (distinct : m.broker.queueManager.Distinct) (text : TextFields message)
    (storable : Storable platform message) {queue worker : Scalar}
    (command : commandOf message = some .consume)
    (taken : m.broker.queueManager.dequeue queue (message.get "worker_id" .null) =
      (some task, qm)) (persisted : Persist m.crashIn
      { m.core with
        queueManager := qm
        workerRegistry :=
          m.broker.workerRegistry.assignTask worker.key task.taskId env.monotonic }
      ((platform.optionalTextOf (message.get "worker_id" .null)).map fun text db =>
        db.updateTaskStatus task.taskId .inFlight (some task.attempts) text env.time)
      success r c) :
    Simulates platform c := by
  obtain ⟨text, binds⟩ := text.worker.optionalTextOf (storable.worker command)
  rw [persisted.commits whole simulates.clean (congrArg (Except.map _) binds)]
  exact simulates.delivered distinct (simulates.iterable.assignTask _ _ _) taken

/-- The row of a task in flight can be written once more, to the dead letter table. -/
theorem nackStatements_bind (simulates : Simulates platform m.core)
    (sound : m.core.Sound config platform used) {id : String}
    (found : m.broker.queueManager.inFlight.find? id = some task)
    (spec : QueueManager.Nacked m.broker.queueManager env.time task .deadLettered task' qm) :
    ∃ row : DlqRow, row.taskId = id ∧
      nackStatements platform env m.broker.walStore qm.deadLetterQueue .deadLettered task' =
        .ok fun db => db.addToDlq row := by
  obtain ⟨row, stored, -, decodes, -, named, -⟩ :=
    simulates.row (Or.inr (Table.mem_of_find? found))
  obtain ⟨-, binds, value, encodes⟩ := sound.disk.tasks row stored
  obtain rfl : value = task.payload := Option.some.inj (encodes.loads.symm.trans decodes)
  have writes := spec.writes_deadLetter sound.distinct found encodes.writes
  have isName : platform.requiredTextOf (nackStub env qm.deadLetterQueue task').queueName.toJson =
      .ok row.queueName := by
    rw [show (nackStub env qm.deadLetterQueue task').queueName = task'.queueName from rfl,
      spec.queueName_eq, named]
    exact binds.requiredTextOf
  have closed : m.broker.walStore ≠ some { inTransaction := true } := by
    rw [show m.broker.walStore = some {} from simulates.clean]
    simp
  have bound : platform.dlqRow (nackStub env qm.deadLetterQueue task') "max retries exceeded"
      env.time = _ := Platform.dlqRow_of_writes writes isName
  have statements : nackStatements platform env m.broker.walStore qm.deadLetterQueue
      .deadLettered task' = .ok fun db => db.addToDlq _ :=
    (if_neg closed).trans (congrArg (Except.map _) bound)
  exact ⟨_, spec.taskId_eq.trans (Table.key_of_find? found), statements⟩

/-- A NACK marks the row of its task, or moves it to the dead letter table. -/
theorem nack (simulates : Simulates platform m.core) (whole : m.crashIn = none)
    (sound : m.core.Sound config platform used) (text : TextFields message) {id : String}
    {action : NackAction}
    (nacked : m.broker.queueManager.negativeAcknowledge env.time id = (some (action, task'), qm))
    (persisted : Persist m.crashIn
      { m.core with
        queueManager := qm
        workerRegistry := (completion env m.broker.workerRegistry message id).2 }
      (nackStatements platform env m.broker.walStore qm.deadLetterQueue action task') success
      r c) :
    Simulates platform c := by
  obtain ⟨task, found, spec⟩ := QueueManager.negativeAcknowledge_some nacked
  have iterable := (simulates.iterable.completion text.worker env id).2
  cases action with
  | requeued =>
    rw [persisted.commits whole simulates.clean rfl]
    exact simulates.requeued iterable found spec
  | deadLettered =>
    obtain ⟨row, isId, binds⟩ := simulates.nackStatements_bind sound found spec
    rw [persisted.commits whole simulates.clean binds]
    exact simulates.buried sound.distinct iterable found spec isId

/-- A reset clears both sides. -/
theorem reset (simulates : Simulates platform m.core) (whole : m.crashIn = none)
    (persisted : Persist m.crashIn { m.core with queueManager := qm.reset }
      (.ok fun db => db.clearAllData) success r c) :
    Simulates platform c := by
  rw [persisted.commits whole simulates.clean rfl]
  refine ⟨rfl, simulates.iterable, ?_⟩
  ext facts
  constructor
  · rintro ⟨task, pending | flying, -⟩
    · cases pending
    · exact absurd flying (Table.not_mem_empty task)
  · rintro ⟨row, stored, -⟩
    exact absurd stored (Table.not_mem_empty row)

end Simulates

/-- **One action.**  What it does to the memory, it does to the log. -/
theorem Simulates.effect {config : Config} {platform : Platform} {env : Env} {m : Machine}
    {action : Action} {r : Except Stop Outcome} {events : List Event}
    (simulates : Simulates platform m.core) (sound : m.core.Sound config platform (drawn events))
    (fresh : env.uuid.text ∉ drawn events) (ordinary : action.Ordinary)
    (storable : action.Storable platform) (whole : m.crashIn = none)
    (effect : Effect platform env m action r c) :
    Simulates platform c := by
  have clean : m.broker.walStore = some {} := simulates.clean
  have absent : ∀ row ∈ m.disk.tasks, row.taskId ≠ env.uuid.text := fun row stored same =>
    fresh (same ▸ (sound.disk.tasks row stored).1)
  cases effect with
  | produce command admitted named hashed persisted =>
    exact simulates.produce whole ordinary storable absent command named hashed persisted
  | consumeEmpty command hashed taken =>
    exact simulates.unchanged clean simulates.iterable
      (by rw [QueueManager.ledger_dequeue_none taken]; rfl) rfl
  | consumeUnhashable command admitted hashed taken unhashable =>
    -- a string is hashable
    exact absurd unhashable ordinary.worker.hashable
  | consume command admitted hashed taken consumer persisted =>
    exact simulates.consume whole sound.distinct ordinary storable command taken persisted
  | register command hashed known =>
    exact simulates.unchanged clean (simulates.iterable.register ordinary _ _) rfl rfl
  | heartbeat command hashed =>
    exact simulates.unchanged clean (simulates.iterable.recordHeartbeat _ _) rfl rfl
  | @ackAborted message id task e command admitted named found fails =>
    cases fails.symm.trans (simulates.iterable.ackChecks ordinary env id)
  | @ack message id text task r c command admitted named found passes persisted =>
    rw [persisted.commits whole clean rfl]
    exact simulates.acknowledged sound.distinct
      (simulates.iterable.completion ordinary.worker env id).2 found
  | @nackAborted message id action task qm e command admitted named nacked fails =>
    cases fails.symm.trans (simulates.iterable.completion ordinary.worker env id).1
  | nack command admitted named nacked passes persisted =>
    exact simulates.nack whole sound ordinary nacked persisted
  | replayDied command opened found spent =>
    rw [whole] at spent
    cases spent
  | replayDropped command opened found fails =>
    obtain ⟨-, isText, payload, decodes⟩ := sound.disk.namedRow found
    rcases fails with rigid | undecodable
    · rw [isText] at rigid
      cases rigid
    · cases decodes.symm.trans undecodable
  | replayCut command opened found decodes unsaved =>
    have spent := (sound.disk.died_of_unsaved found decodes unsaved).2
    rw [whole] at spent
    cases spent
  | @replay message row payload saved command opened found decodes binds alive =>
    have deleted : Simulates platform
        { m.core with disk := m.disk.deleteDlq row.taskId } :=
      simulates.unchanged clean simulates.iterable rfl rfl
    exact deleted.created binds absent
  | retry command closed named found => cases clean.symm.trans closed
  | purge command opened counted persisted =>
    obtain ⟨name, filter⟩ := ordinary.queue.queueFilter (storable.queue (Or.inr command))
    rw [persisted.commits whole clean (congrArg (Except.map _) filter)]
    exact simulates.unchanged rfl simulates.iterable rfl (by cases name <;> rfl)
  | purgeMemory command closed purged => cases clean.symm.trans closed
  | evict ran ending =>
    obtain ⟨spec, workers, -⟩ := evictDeadWorkers_spec ran
    refine simulates.unchanged clean ?_ (unfinished_returned spec.returns) rfl
    intro worker stored
    rw [workers] at stored
    exact simulates.iterable worker (Table.mem_filter.mp stored).1
  | reset persisted => exact simulates.reset whole persisted
  | replayAll ran => exact ordinary.elim
  | crashWorker active =>
    exact simulates.unchanged clean (simulates.iterable.put rfl active rfl) rfl rfl
  | _ => exact simulates

/-! ## Recovery -/

/-- The invariant of the recovery loop: the log keeps recording the tasks `target`, and the
memory has them but for the rows that are still to come. -/
structure Restoring (platform : Platform) (target : Set Facts) (rows : List TaskRow) (c : Core) :
    Prop where
  clean : c.walStore = some {}
  iterable : c.workerRegistry.Iterable
  idle : c.queueManager.inFlight.rows = []
  stored : ∀ row ∈ rows, row ∈ c.disk.tasks ∧ row.live = true
  apart : (rows.map TaskRow.taskId).Nodup
  disk : c.disk.unfinished platform = target
  memory : ∀ facts, facts ∈ c.queueManager.unfinished ↔
    facts ∈ target ∧ ∀ row ∈ rows, facts.taskId ≠ row.taskId

section Recovery

variable {config : Config} {platform : Platform} {env : Env} {target : Set Facts}

theorem startCore_restoring (persistent : config.persistent = true) (disk : Database) :
    Restoring platform (disk.unfinished platform) disk.loadPendingTasks
      (startCore config env disk) where
  clean := by simp [startCore, Broker.core, Broker.new, persistent]
  iterable worker stored := absurd stored (Table.not_mem_empty worker)
  idle := rfl
  stored _ pending := Database.mem_loadPendingTasks.mp pending
  apart := disk.nodup_loadPendingTasks
  disk := rfl
  memory facts := by
    constructor
    · rintro ⟨task, pending | flying, -⟩
      · cases pending
      · exact absurd flying (Table.not_mem_empty task)
    · rintro ⟨⟨row, stored, live, -, isId, -⟩, others⟩
      exact absurd isId (others row (Database.mem_loadPendingTasks.mpr ⟨stored, live⟩))

/-- The loop enqueues the task of the next row. -/
theorem Restoring.next {row : TaskRow} {rest : List TaskRow}
    (decodes : platform.loads row.payload = some payload)
    (restoring : Restoring platform target (row :: rest) c) :
    Restoring platform target rest (c.recoverRow env row payload) := by
  obtain ⟨clean, iterable, idle, rows, apart, rfl, memory⟩ := restoring
  obtain ⟨stored, live⟩ := rows row (by simp)
  rw [List.map_cons, List.nodup_cons] at apart
  have other : ∀ row' ∈ rest, row'.taskId ≠ row.taskId := fun row' later equal =>
    apart.1 (equal ▸ List.mem_map_of_mem later)
  have ledger := c.queueManager.ledger_enqueueRecovered (.str row.queueName) row.taskId env.time
    payload row.attempts
  refine ⟨rfl, iterable, ?_, ?_, apart.2, unfinished_remarked stored live decodes rfl,
    fun facts => ?_⟩
  · have same := congrArg Ledger.inFlight ledger
    exact (Multiset.coe_eq_zero _).mp (same.trans ((Multiset.coe_eq_zero _).mpr idle))
  · intro row' later
    obtain ⟨old, isLive⟩ := rows row' (List.mem_cons_of_mem _ later)
    exact ⟨Database.mem_updateTaskStatus.mpr (Or.inl ⟨old, other row' later⟩), isLive⟩
  · rw [QueueManager.unfinished_eq, Core.recoverRow,
      mem_unfinished_created (congrArg Ledger.pending ledger) (by rw [ledger]), memory]
    constructor
    · rintro (rfl | ⟨old, others⟩)
      · exact ⟨⟨row, stored, live, decodes, rfl, rfl, rfl⟩, fun row' later equal =>
          other row' later equal.symm⟩
      · exact ⟨old, fun row' later => others row' (List.mem_cons_of_mem _ later)⟩
    · rintro ⟨old, others⟩
      by_cases isRow : facts.taskId = row.taskId
      · obtain ⟨row', stored', -, decodes', isId, queue, attempts⟩ := old
        have equal : row' = row := c.disk.tasks.eq_of_key_eq stored' stored (isId.symm.trans isRow)
        subst equal
        rw [decodes] at decodes'
        cases decodes'
        refine Or.inl ?_
        cases facts
        simp_all [Task.facts]
      · refine Or.inr ⟨old, fun row' member => ?_⟩
        rcases List.mem_cons.mp member with rfl | later
        · exact isRow
        · exact others row' later

/-- When no row is left, everything has been restored. -/
theorem Restoring.complete (restoring : Restoring platform target [] c) :
    c.queueManager.unfinished = target := by
  ext facts
  rw [restoring.memory]
  simp

theorem Restoring.simulates (restoring : Restoring platform target [] c) :
    Simulates platform c where
  clean := restoring.clean
  iterable := restoring.iterable
  same := restoring.complete.trans restoring.disk.symm

/-- A recovery phase that is not cut short completes, if every row can be decoded. -/
theorem Recovery.completes {crashes : Prop} {rows : List TaskRow} {c' : Core} {r : Except Stop Unit}
    (recovery : Recovery platform env crashes rows c r c') (survives : ¬crashes)
    (decodable : ∀ row ∈ rows, ∃ payload, platform.loads row.payload = some payload) :
    r = .ok () := by
  induction recovery with
  | done => rfl
  | undecodable fails =>
    obtain ⟨payload, decodes⟩ := decodable _ List.mem_cons_self
    cases fails.symm.trans decodes
  | died may same => exact absurd may survives
  | next decodes later ih =>
    exact ih fun row member => decodable row (List.mem_cons_of_mem _ member)

/-- **A start restores what the log records**: every task once, all of them pending. -/
theorem start_restores {disk : Database} {used : List String}
    (persistent : config.persistent = true) (sound : disk.Sound platform used) :
    ∃ broker disk', (step config platform (.stopped disk) { action := .start, env }).2 =
        .running broker disk' ∧
      broker.queueManager.unfinished = disk.unfinished platform ∧
      broker.queueManager.inFlight.rows = [] ∧
      (broker.queueManager.pending.map Task.taskId).Nodup := by
  have transition := step_transition config platform (.stopped disk) { action := .start, env }
  generalize (step config platform (.stopped disk) { action := .start, env }).1 = outcome
    at transition
  generalize (step config platform (.stopped disk) { action := .start, env }).2 = next
    at transition ⊢
  cases transition with
  | ignored other => exact absurd rfl other
  | @started disk disk' broker starts whole recovery fresh =>
    obtain ⟨rest, reached, ⟨restoring, recovering⟩, -, complete⟩ :=
      (recovery persistent).invariant (P := fun rows c =>
          Restoring platform (disk.unfinished platform) rows c ∧
            Recovering config platform used rows c)
        ⟨startCore_restoring persistent disk, startCore_recovering sound persistent⟩
        fun row rest payload c decodes both =>
          ⟨both.1.next decodes, both.2.next persistent⟩
    obtain ⟨rfl, rfl⟩ := complete rfl
    refine ⟨broker, disk', rfl, restoring.complete, restoring.idle, ?_⟩
    exact Multiset.coe_nodup.mp recovering.sound.distinct.apart.pending
  | failed starts recovery fresh why =>
    have completes := (recovery persistent).completes (by simp) fun row pending => by
      obtain ⟨stored, -⟩ := Database.mem_loadPendingTasks.mp pending
      obtain ⟨-, -, payload, encodes⟩ := sound.tasks row stored
      exact ⟨payload, encodes.loads⟩
    rcases why with ⟨e, -, raised⟩ | ⟨-, cut⟩
    · cases completes.symm.trans raised
    · exact absurd rfl cut

end Recovery

/-! ## Whole runs -/

section Run

variable {config : Config} {platform : Platform}

/-- The step condition: a fresh id, an action the log follows and can take, and no crash in the
middle of it. -/
def FollowedByLog (platform : Platform) (events : List Event) (system : System) (event : Event) :
    Prop :=
  DrawsFresh events system event ∧ event.action.Ordinary ∧ event.action.Storable platform ∧
    event.crashIn = none

/-- **Every event keeps the two sides equal.** -/
theorem simulates_preserved (persistent : config.persistent = true) :
    Preserved config platform (FollowedByLog platform)
      (fun events c => c.Sound config platform (drawn events) ∧ Simulates platform c)
      (fun events disk => disk.Sound platform (drawn events) ∧
        (config.persistent = false → disk = {})) := by
  refine .ofMemory And.left ?_ ?_ ?_
  · rintro events broker disk event r c - sound simulates ⟨fresh, ordinary, storable, whole⟩ effect
    exact simulates.effect sound fresh ordinary storable whole effect
  · intro events disk event c sound _ _ recovery
    obtain ⟨rest, reached, restoring, -, restored⟩ :=
      recovery.invariant (startCore_restoring persistent disk)
        fun row rest payload c decodes restoring => restoring.next decodes
    obtain ⟨rfl, rfl⟩ := restored rfl
    exact restoring.simulates
  · intro events disk event _ volatile
    rw [persistent] at volatile
    cases volatile

/-- **Durable simulation.**  After every event of a run of a persistent broker with string
fields that the store can take, without replay-all and with crashes between the events, the
unfinished tasks in memory are those of the log; and a crash followed by a start brings back
exactly these tasks, each of them once and all of them pending. -/
theorem log_simulates_memory {events : List Event} {broker : Broker} {disk : Database}
    (persistent : config.persistent = true) (fresh : FreshIds events)
    (ordinary : ∀ event ∈ events, event.action.Ordinary ∧ event.crashIn = none)
    (storable : ∀ event ∈ events, event.action.Storable platform)
    (position : reach config platform events = .running broker disk) :
    broker.queueManager.unfinished = disk.unfinished platform ∧
      ∀ down up : Env, ∃ broker' disk',
        reach config platform
            (events ++ [{ action := .crash, env := down }, { action := .start, env := up }]) =
          .running broker' disk' ∧
        broker'.queueManager.unfinished = broker.queueManager.unfinished ∧
        broker'.queueManager.inFlight.rows = [] ∧
        (broker'.queueManager.pending.map Task.taskId).Nodup := by
  have each : Trace.EachStep (step config platform) System.initial (FollowedByLog platform)
      events := by
    intro front event back split
    have inside : event ∈ events := by
      rw [split]
      simp
    exact ⟨fresh.drawsFresh front event back split, (ordinary event inside).1,
      storable event inside, (ordinary event inside).2⟩
  have holds := (simulates_preserved persistent).holds ⟨Database.sound_empty, fun _ => rfl⟩ each
  rw [position] at holds
  obtain ⟨sound, simulates⟩ := holds
  refine ⟨simulates.same, fun down up => ?_⟩
  have crashes : reach config platform
      (events ++ [{ action := .crash, env := down }, { action := .start, env := up }]) =
        (step config platform (.stopped disk) { action := .start, env := up }).2 := by
    rw [reach, Trace.after_append]
    change Trace.after _ (reach config platform events) _ = _
    rw [position]
    rfl
  obtain ⟨broker', disk', started, restored, rest⟩ :=
    @start_restores config platform up disk _ persistent sound.disk
  exact ⟨broker', disk', crashes.trans started, restored.trans simulates.same.symm, rest⟩

end Run

/-- Two tasks are produced, one of them is delivered, fails, and is delivered again. -/
def retriedRun : List Event :=
  [.at 0 .start, .at 1 (.produce "q" "a"), .at 2 (.produce "q" "b"), .at 3 (.consume "q" "w"),
    .at 4 (.nack (idAt 1)), .at 5 (.consume "*" "w")]

/-- Messages of strings. -/
theorem ordinary_send {command : String} {fields : List (String × Json)}
    (strings : ∀ entry ∈ fields, ∃ text, entry.2 = .str text) :
    (Action.send command fields).Ordinary := by
  refine textFields_of_strings fun entry inside => ?_
  rcases List.mem_cons.mp inside with rfl | field
  · exact ⟨_, rfl⟩
  · exact strings entry field

/-- The payload of a PRODUCE need not be a string. -/
theorem ordinary_produce {queue : String} :
    (Action.send "PRODUCE" [("queue", .str queue), ("task", payload)]).Ordinary where
  queue value found := by
    cases found
    exact ⟨queue, rfl⟩
  worker value found := by cases found
  task value found := by cases found
  queues value found := by cases found

theorem log_simulates_memory_retried :
    ∃ broker disk, reach { persistent := true } .plain retriedRun = .running broker disk ∧
      broker.queueManager.unfinished = disk.unfinished .plain ∧
      ∃ broker' disk', reach { persistent := true } .plain
          (retriedRun ++ [.at 6 .crash, .at 7 .start]) = .running broker' disk' ∧
        broker'.queueManager.unfinished = broker.queueManager.unfinished := by
  obtain ⟨broker, disk, position, -⟩ :=
    System.of_passes (show (reach { persistent := true } .plain retriedRun).passes
      (fun broker _ => broker.queueManager.inFlightCount = 1) = true by decide +kernel)
  have ordinary : ∀ event ∈ retriedRun, event.action.Ordinary ∧ event.crashIn = none := by
    simp only [retriedRun, List.mem_cons, List.not_mem_nil, or_false]
    rintro event (rfl | rfl | rfl | rfl | rfl | rfl)
    · exact ⟨trivial, rfl⟩
    all_goals exact ⟨ordinary_send (by simp), rfl⟩
  obtain ⟨same, restart⟩ := log_simulates_memory rfl (by decide +kernel) ordinary
    (by decide +kernel) position
  obtain ⟨broker', disk', restarted, restored, -⟩ := restart (.at 6) (.at 7)
  exact ⟨broker, disk, position, same, broker', disk', restarted, restored⟩

/-- Lists in lists. -/
def nested : Nat → Json
  | 0 => .null
  | n + 1 => .arr [nested n]

/-- A PRODUCE on a broker that was just started. -/
def unrecordedRun (queue : String) (payload : Json) : List Event :=
  [.at 0 .start, .at 1 (.send "PRODUCE" [("queue", .str queue), ("task", payload)])]

/-- The PRODUCE leaves a pending task without a row, and a crash and a start lose the task. -/
def Unrecorded (queue : String) (payload : Json) : Prop :=
  FreshIds (unrecordedRun queue payload) ∧
  (∀ event ∈ unrecordedRun queue payload, event.action.Ordinary ∧ event.crashIn = none) ∧
  ∃ broker disk, reach { persistent := true } .plain (unrecordedRun queue payload) =
      .running broker disk ∧
    (broker.queueManager.pending.map Task.taskId) = [idAt 1] ∧
    broker.queueManager.unfinished ≠ disk.unfinished .plain ∧
    ∃ broker' disk', reach { persistent := true } .plain
        (unrecordedRun queue payload ++ [.at 2 .crash, .at 3 .start]) = .running broker' disk' ∧
      broker'.queueManager.pending = []

/-- The two runs say whether a PRODUCE is recorded: the table has no row, or the queue is empty
after the restart. -/
theorem unrecorded_of_passes {queue : String}
    (unsaved : (reach { persistent := true } .plain (unrecordedRun queue payload)).passes
      (fun broker disk => decide (broker.queueManager.pending.map Task.taskId = [idAt 1] ∧
        disk.tasks.rows = [])) = true) (forgotten : (reach { persistent := true } .plain
      (unrecordedRun queue payload ++ [.at 2 .crash, .at 3 .start])).passes
      (fun broker _ => broker.queueManager.pending.isEmpty) = true) :
    Unrecorded queue payload := by
  obtain ⟨broker, disk, position, shown⟩ := System.of_passes unsaved
  obtain ⟨broker', disk', restarted, lost⟩ := System.of_passes forgotten
  obtain ⟨pending, rows⟩ := of_decide_eq_true shown
  have fresh : FreshIds (unrecordedRun queue payload) := by
    show [idAt 0, idAt 1].Nodup
    decide +kernel
  refine ⟨fresh, ?_, broker, disk, position, pending, fun same => ?_, broker', disk',
    restarted, List.isEmpty_iff.mp lost⟩
  · simp only [unrecordedRun, List.mem_cons, List.not_mem_nil, or_false]
    rintro event (rfl | rfl)
    · exact ⟨trivial, rfl⟩
    · exact ⟨ordinary_produce, rfl⟩
  · obtain ⟨task, waiting, -⟩ := List.mem_map.mp (pending ▸ List.mem_singleton_self (idAt 1))
    have recorded : task.facts ∈ disk.unfinished .plain := same ▸ ⟨task, Or.inl waiting, rfl⟩
    obtain ⟨row, stored, -⟩ := recorded
    rw [← Table.mem_rows, rows] at stored
    cases stored

/-- **Tasks that the log does not know.**  The queue is named by a surrogate, or the payload is
nested 984 deep: `save_task` raises after the task was enqueued. -/
theorem unstorable_task_unrecorded :
    Unrecorded (String.singleton surrogate) (.str "p") ∧ Unrecorded "q" (nested 984) :=
  ⟨unrecorded_of_passes (by decide +kernel) (by decide +kernel),
    unrecorded_of_passes (by decide +kernel) (by decide +kernel)⟩

end DistroSync
