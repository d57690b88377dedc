import DistroSync.Scenario

/-!
# Crash recovery

The recovery phase of `start` as a function of the tables, and what becomes of it when the
process dies in the middle.

The loop rewrites the rows it runs over, but only their `status` and `updated_at`, and the
rewritten rows are still recoverable, in the same order.  So a second recovery finds the
same tasks, and overwrites whatever the first one wrote.
-/

namespace DistroSync

open Keyed Py Exec

/-! ## WAL states -/

/-- Every payload was written by `json.dumps`, as `save_task` does. -/
def Database.Written (platform : Platform) (db : Database) : Prop :=
  ∀ row ∈ db.tasks, ∃ payload, platform.Encodes payload row.payload

/-- A content of the tables that the store can write. -/
structure WalState (platform : Platform) where
  db : Database
  written : db.Written platform

/-- What a run leaves in the tables is a WAL state. -/
def WalState.ofReach (config : Config) (platform : Platform) (events : List Event)
    (fresh : FreshIds events) : WalState platform where
  db := (reach config platform events).disk
  written := by
    intro row stored
    have sound := @reach_sound config platform events fresh
    cases position : reach config platform events with
    | running broker disk =>
      rw [position] at sound stored
      exact (sound.disk.tasks row stored).2.2
    | stopped disk =>
      rw [position] at sound stored
      exact (sound.1.tasks row stored).2.2

/-! ## The rows -/

/-- A row as recovery leaves it. -/
def TaskRow.restore (now : Rat) (row : TaskRow) : TaskRow :=
  { row with status := .pending, updatedAt := now }

/-- The rows with these ids as recovery leaves them, and the others as they were. -/
def TaskRow.restoreIn (now : Rat) (ids : List String) (row : TaskRow) : TaskRow :=
  if row.taskId ∈ ids then row.restore now else row

section Rows

variable {now later : Rat} {ids : List String} {row : TaskRow}

@[simp] theorem TaskRow.restoreIn_taskId : (row.restoreIn now ids).taskId = row.taskId := by
  unfold restoreIn
  split_ifs <;> rfl

@[simp] theorem TaskRow.restoreIn_queueName :
    (row.restoreIn now ids).queueName = row.queueName := by
  unfold restoreIn
  split_ifs <;> rfl

@[simp] theorem TaskRow.restoreIn_payload : (row.restoreIn now ids).payload = row.payload := by
  unfold restoreIn
  split_ifs <;> rfl

@[simp] theorem TaskRow.restoreIn_attempts : (row.restoreIn now ids).attempts = row.attempts := by
  unfold restoreIn
  split_ifs <;> rfl

@[simp] theorem TaskRow.restoreIn_createdAt :
    (row.restoreIn now ids).createdAt = row.createdAt := by
  unfold restoreIn
  split_ifs <;> rfl

/-- A later recovery overwrites what an earlier one wrote. -/
theorem TaskRow.restoreIn_restoreIn {some : List String} (within : some ⊆ ids) :
    (row.restoreIn now some).restoreIn later ids = row.restoreIn later ids := by
  unfold restoreIn
  by_cases early : row.taskId ∈ some
  · simp only [early, if_true]
    have isIn : row.taskId ∈ ids := within early
    simp [isIn, TaskRow.restore]
  · simp only [early, if_false]

end Rows

namespace Database

variable {db db' : Database} {now : Rat} {ids : List String}

/-- The UPDATE that the recovery loop makes for a row. -/
def restoreRow (now : Rat) (db : Database) (row : TaskRow) : Database :=
  db.updateTaskStatus row.taskId .pending (some row.attempts) none now

/-- The tables agree but for the rows with these ids, which are as recovery leaves them. -/
structure Restored (now : Rat) (ids : List String) (db db' : Database) : Prop where
  tasks : db'.tasks.rows = db.tasks.rows.map (TaskRow.restoreIn now ids)
  deadLetterQueue : db'.deadLetterQueue = db.deadLetterQueue

/-- Restoring writes back the attempts that were read. -/
theorem rows_restoreRow {row : TaskRow}
    (agree : ∀ stored ∈ db.tasks, stored.taskId = row.taskId → stored.attempts = row.attempts) :
    (db.restoreRow now row).tasks.rows =
      db.tasks.rows.map (TaskRow.restoreIn now [row.taskId]) := by
  refine List.map_congr_left fun stored inside => ?_
  unfold TaskRow.restoreIn
  by_cases same : stored.taskId = row.taskId
  · have attempts := agree stored inside same
    simp [same, TaskRow.mark, TaskRow.restore, attempts]
  · simp [same]

/-- The statements of the loop, for rows that agree with the table on their attempts. -/
theorem restored_foldl (rows : List TaskRow)
    (agree : ∀ row ∈ rows, ∀ stored ∈ db.tasks, stored.taskId = row.taskId →
      stored.attempts = row.attempts) :
    Restored now (rows.map TaskRow.taskId) db (rows.foldl (restoreRow now) db) := by
  induction rows generalizing db with
  | nil => exact ⟨(List.map_id _).symm, rfl⟩
  | cons row rest ih =>
    have first := @rows_restoreRow db now row (agree row List.mem_cons_self)
    have kept : ∀ row' ∈ rest, ∀ stored ∈ (db.restoreRow now row).tasks,
        stored.taskId = row'.taskId → stored.attempts = row'.attempts := by
      intro row' inside stored there same
      rw [← Table.mem_rows, first] at there
      obtain ⟨old, isOld, rfl⟩ := List.mem_map.mp there
      rw [TaskRow.restoreIn_taskId] at same
      rw [TaskRow.restoreIn_attempts]
      exact agree row' (List.mem_cons_of_mem row inside) old isOld same
    obtain ⟨tasks, dead⟩ := ih kept
    refine ⟨?_, dead⟩
    rw [List.foldl_cons, tasks, first, List.map_map]
    refine List.map_congr_left fun stored _ => ?_
    by_cases same : stored.taskId = row.taskId <;>
      by_cases inside : stored.taskId ∈ rest.map TaskRow.taskId <;>
        simp_all [TaskRow.restoreIn, TaskRow.restore]

/-- A rewritten row is recoverable again, at its place. -/
theorem Restored.loadPendingTasks (restored : Restored now ids db db')
    (live : ∀ row ∈ db.tasks, row.taskId ∈ ids → row.live = true) :
    db'.loadPendingTasks = db.loadPendingTasks.map (TaskRow.restoreIn now ids) := by
  have sameLive : ∀ row ∈ db.tasks.rows, (row.restoreIn now ids).live = row.live := by
    intro row stored
    unfold TaskRow.restoreIn
    split_ifs with inside
    · rw [live row stored inside]
      rfl
    · rfl
  unfold Database.loadPendingTasks
  have kept : db.tasks.rows.filter (TaskRow.live ∘ TaskRow.restoreIn now ids) =
      db.tasks.rows.filter TaskRow.live := List.filter_congr sameLive
  rw [restored.tasks, List.filter_map, kept]
  exact (List.map_insertionSort _ _ _ _ fun a _ b _ => by simp).symm

/-- The loop over some of the recoverable rows. -/
theorem restored_sublist {rows : List TaskRow} (some : rows ⊆ db.loadPendingTasks) :
    Restored now (rows.map TaskRow.taskId) db (rows.foldl (restoreRow now) db) := by
  refine restored_foldl rows fun row inside stored there same => ?_
  have known := (mem_loadPendingTasks.mp (some inside)).1
  rw [db.tasks.eq_of_key_eq there known same]

theorem live_of_mem_ids {rows : List TaskRow} (some : rows ⊆ db.loadPendingTasks) {row : TaskRow}
    (stored : row ∈ db.tasks) (inside : row.taskId ∈ rows.map TaskRow.taskId) :
    row.live = true := by
  obtain ⟨other, there, same⟩ := List.mem_map.mp inside
  obtain ⟨known, live⟩ := mem_loadPendingTasks.mp (some there)
  rwa [db.tasks.eq_of_key_eq stored known same.symm]

/-- The tables after the whole loop. -/
def recovered (now : Rat) (db : Database) : Database :=
  db.loadPendingTasks.foldl (restoreRow now) db

/-- **What recovery changes in the tables**: the status and the update time of the
recoverable rows. -/
theorem recovered_rows (now : Rat) (db : Database) :
    (db.recovered now).tasks.rows =
        db.tasks.rows.map (fun row => if row.live then row.restore now else row) ∧
      (db.recovered now).deadLetterQueue = db.deadLetterQueue := by
  obtain ⟨tasks, dead⟩ := @restored_sublist db now _ (List.Subset.refl db.loadPendingTasks)
  refine ⟨tasks.trans (List.map_congr_left fun row stored => ?_), dead⟩
  unfold TaskRow.restoreIn
  have known : row.taskId ∈ db.loadPendingTasks.map TaskRow.taskId ↔ row.live = true :=
    ⟨fun inside => live_of_mem_ids (List.Subset.refl _) stored inside,
      fun live => List.mem_map_of_mem (mem_loadPendingTasks.mpr ⟨stored, live⟩)⟩
  simp only [known]

/-- Restoring does not touch the payloads. -/
theorem Written.restored {platform : Platform} (written : db.Written platform)
    (restored : Restored now ids db db') : db'.Written platform := by
  intro row stored
  rw [← Table.mem_rows, restored.tasks] at stored
  obtain ⟨old, isOld, rfl⟩ := List.mem_map.mp stored
  rw [TaskRow.restoreIn_payload]
  exact written old isOld

end Database

/-! ## The tasks -/

/-- The pending task that a row stands for. -/
def TaskRow.task (platform : Platform) (env : Env) (row : TaskRow) : Task where
  taskId := row.taskId
  queueName := .str row.queueName
  payload := (platform.loads row.payload).getD .null
  createdAt := env.time
  attempts := row.attempts

/-- One iteration of the loop in memory. -/
def QueueManager.restoreTask (platform : Platform) (env : Env) (qm : QueueManager)
    (row : TaskRow) : QueueManager :=
  qm.enqueueRecovered (.str row.queueName) row.taskId env.time
    ((platform.loads row.payload).getD .null) row.attempts

namespace QueueManager

variable {platform : Platform} {env : Env}

/-- A task is restored to the end of its queue. -/
theorem deque_restoreTask (qm : QueueManager) (row : TaskRow) (name : Key) :
    (qm.restoreTask platform env row).deque name =
      if .str row.queueName = name then qm.deque name ++ [row.task platform env]
      else qm.deque name := by
  split_ifs with own
  · subst own
    exact deque_append_self qm (row.task platform env)
  · exact (deque_put_of_ne _ _ _ (Ne.symm own)).trans (deque_ensureQueue qm _ name)

/-- Every row goes to the back of its own queue. -/
theorem deque_foldl_restoreTask (rows : List TaskRow) (qm : QueueManager) (name : Key) :
    (rows.foldl (restoreTask platform env) qm).deque name =
      qm.deque name ++
        (rows.filter fun row => Key.str row.queueName = name).map (TaskRow.task platform env) := by
  induction rows generalizing qm with
  | nil => simp
  | cons row rest ih =>
    rw [List.foldl_cons, ih, deque_restoreTask, List.filter_cons]
    by_cases own : Key.str row.queueName = name <;> simp [own]

theorem inFlight_foldl_restoreTask (rows : List TaskRow) (qm : QueueManager) :
    (rows.foldl (restoreTask platform env) qm).inFlight = qm.inFlight := by
  induction rows generalizing qm with
  | nil => rfl
  | cons row rest ih => exact (ih _).trans (ensureQueue_inFlight qm _)

end QueueManager

/-! ## The loop -/

section Loop

variable {platform : Platform} {env : Env} {m : Machine}

/-- The machine after an iteration of the loop that was not cut. -/
def Machine.restoreRow (platform : Platform) (env : Env) (m : Machine) (row : TaskRow) : Machine :=
  Machine.committed
    { m with
      broker :=
        { m.broker with queueManager := m.broker.queueManager.restoreTask platform env row } }
    (·.restoreRow env.time row)

/-- A row that decodes is restored, unless the process dies at its commit. -/
theorem recoverEach_cons {row : TaskRow} {rest : List TaskRow} {payload : Json}
    (decodes : platform.loads row.payload = some payload) (alive : m.crashIn ≠ some 0) :
    recoverEach platform env (row :: rest) m =
      recoverEach platform env rest (m.restoreRow platform env row) := by
  obtain ⟨broker, disk, crashIn⟩ := m
  unfold Machine.restoreRow QueueManager.restoreTask
  simp only [recoverEach, decodes]
  match crashIn with
  | none => rfl
  | some 0 => exact absurd rfl alive
  | some (k + 1) => rfl

theorem recoverEach_whole {rows : List TaskRow}
    (decodable : ∀ row ∈ rows, ∃ payload, platform.loads row.payload = some payload)
    (whole : m.crashIn = none) (clean : m.broker.walStore = some {}) :
    recoverEach platform env rows m = .ok ()
      { m with
        broker :=
          { m.broker with
            queueManager := rows.foldl (QueueManager.restoreTask platform env)
              m.broker.queueManager }
        disk := rows.foldl (Database.restoreRow env.time) m.disk } := by
  induction rows generalizing m with
  | nil => rfl
  | cons row rest ih =>
    obtain ⟨payload, decodes⟩ := decodable row List.mem_cons_self
    obtain ⟨⟨qm, registry, shedder, metrics, walStore⟩, disk, crashIn⟩ := m
    subst whole clean
    have alive : (none : Option Nat) ≠ some 0 := nofun
    rw [recoverEach_cons decodes alive,
      ih (fun other later => decodable other (List.mem_cons_of_mem row later)) rfl rfl]
    rfl

/-- A process with a crash point commits as many rows as it says. -/
theorem recoverEach_cut {rows : List TaskRow} {k : Nat}
    (decodable : ∀ row ∈ rows, ∃ payload, platform.loads row.payload = some payload)
    (cut : m.crashIn = some k) :
    wp (recoverEach platform env rows)
      (fun _ m' => m'.crashIn ≠ none ∧
        m'.disk = (rows.take k).foldl (Database.restoreRow env.time) m.disk)
      (fun stop m' => stop = .crashed ∧
        m'.disk = (rows.take k).foldl (Database.restoreRow env.time) m.disk) m := by
  induction rows generalizing m k with
  | nil =>
    refine ⟨by simp [cut], ?_⟩
    rw [List.take_nil]
    rfl
  | cons row rest ih =>
    obtain ⟨payload, decodes⟩ := decodable row List.mem_cons_self
    cases k with
    | zero =>
      obtain ⟨broker, disk, crashIn⟩ := m
      subst cut
      simp only [recoverEach, decodes]
      exact ⟨rfl, rfl⟩
    | succ k =>
      have alive : m.crashIn ≠ some 0 := by simp [cut]
      have onward := ih (m := m.restoreRow platform env row)
        (fun other later => decodable other (List.mem_cons_of_mem row later))
        (show _ = some k by simp [Machine.restoreRow, Machine.committed, cut])
      unfold wp at onward ⊢
      rw [recoverEach_cons decodes alive]
      exact onward

end Loop

/-! ## Starts -/

section Start

variable {config : Config} {platform : Platform} {event : Event} {db : Database}

theorem Database.Written.decodable (written : db.Written platform) :
    ∀ row ∈ db.loadPendingTasks, ∃ payload, platform.loads row.payload = some payload := by
  intro row pending
  obtain ⟨payload, encodes⟩ := written row (Database.mem_loadPendingTasks.mp pending).1
  exact ⟨payload, encodes.loads⟩

/-- The process after a recovery phase that was not cut short. -/
def Broker.recovered (config : Config) (platform : Platform) (env : Env) (db : Database) : Broker :=
  { Broker.new config env with
    queueManager := db.loadPendingTasks.foldl (QueueManager.restoreTask platform env)
      (Broker.new config env).queueManager }

theorem recover_eq (persistent : config.persistent = true) {env : Env} {crashIn : Option Nat} :
    recover platform env { broker := Broker.new config env, disk := db, crashIn } =
      recoverEach platform env db.loadPendingTasks
        { broker := Broker.new config env, disk := db, crashIn } := by
  have opened : (Broker.new config env).walStore.isSome = true := by
    simp [Broker.new, persistent]
  unfold recover whenPersistent
  simp only [bind, EStateM.bind, get, getThe, MonadStateOf.get, EStateM.get, opened, if_true]

/-- **A start restores all live rows, in the order of their creation.** -/
theorem step_start_whole (persistent : config.persistent = true) (written : db.Written platform)
    (starts : event.action = .start) (whole : event.crashIn = none) :
    step config platform (.stopped db) event =
      (.completed, .running (Broker.recovered config platform event.env db)
        (db.recovered event.env.time)) := by
  unfold step
  simp only [starts]
  rw [recover_eq persistent, recoverEach_whole written.decodable whole
    (by simp [Broker.new, persistent])]
  simp only [concludeStart, whole, if_true]
  rfl

/-- A start that is cut short leaves the rows of a prefix of the loop rewritten. -/
theorem step_start_cut (persistent : config.persistent = true) (written : db.Written platform)
    (starts : event.action = .start) {k : Nat} (cut : event.crashIn = some k) :
    step config platform (.stopped db) event =
      (.crashed, .stopped ((db.loadPendingTasks.take k).foldl
        (Database.restoreRow event.env.time) db)) := by
  have leaves := @recoverEach_cut platform event.env
    { broker := Broker.new config event.env, disk := db, crashIn := event.crashIn }
    db.loadPendingTasks k written.decodable cut
  unfold step
  simp only [starts]
  rw [recover_eq persistent]
  cases ran : recoverEach platform event.env db.loadPendingTasks
      { broker := Broker.new config event.env, disk := db, crashIn := event.crashIn } with
  | ok value m =>
    obtain ⟨pending, rows⟩ := wp_of_ok ran leaves
    simp only [concludeStart, pending, if_false, rows]
  | error stop m =>
    obtain ⟨rfl, rows⟩ := wp_of_error ran leaves
    simp only [concludeStart, rows]

/-- Recovery gives the same result on tables in which some of the rows were rewritten. -/
theorem recovered_restored {now : Rat} {rows : List TaskRow} {db' : Database}
    (some : rows ⊆ db.loadPendingTasks)
    (restored : Database.Restored now (rows.map TaskRow.taskId) db db') (env : Env) :
    Broker.recovered config platform env db' = Broker.recovered config platform env db ∧
      db'.recovered env.time = db.recovered env.time := by
  have pending := restored.loadPendingTasks fun row stored inside =>
    Database.live_of_mem_ids some stored inside
  have sameIds : db'.loadPendingTasks.map TaskRow.taskId =
      db.loadPendingTasks.map TaskRow.taskId := by
    rw [pending, List.map_map]
    exact List.map_congr_left fun row _ => TaskRow.restoreIn_taskId
  constructor
  · unfold Broker.recovered
    rw [pending, List.foldl_map]
    have sameTask : (fun qm row => QueueManager.restoreTask platform env qm
        (TaskRow.restoreIn now (rows.map TaskRow.taskId) row)) =
        QueueManager.restoreTask platform env := by
      funext qm row
      simp [QueueManager.restoreTask]
    rw [sameTask]
  · obtain ⟨tasks, dead⟩ :=
      @Database.restored_sublist db env.time _ (List.Subset.refl db.loadPendingTasks)
    obtain ⟨tasks', dead'⟩ :=
      @Database.restored_sublist db' env.time _ (List.Subset.refl db'.loadPendingTasks)
    have sameRows : (db'.recovered env.time).tasks = (db.recovered env.time).tasks := by
      apply Table.ext
      refine tasks'.trans (Eq.trans ?_ tasks.symm)
      rw [restored.tasks, List.map_map, sameIds]
      refine List.map_congr_left fun row _ => ?_
      exact TaskRow.restoreIn_restoreIn (List.map_subset _ some)
    have sameDead := dead'.trans (restored.deadLetterQueue.trans dead.symm)
    unfold Database.recovered at *
    generalize db'.loadPendingTasks.foldl _ db' = left at sameRows sameDead
    generalize db.loadPendingTasks.foldl _ db = right at sameRows sameDead
    cases left
    cases right
    simp_all

/-- A start that died anywhere does not change what a later start does. -/
theorem step_start_after_cut (persistent : config.persistent = true)
    (written : db.Written platform) {cut : Event} (tried : cut.action = .start)
    (died : cut.crashIn ≠ none) :
    ∃ db' : Database, (step config platform (.stopped db) cut).2 = .stopped db' ∧
      db'.Written platform ∧
      ∀ event : Event, event.action = .start → event.crashIn = none →
        step config platform (.stopped db') event = step config platform (.stopped db) event := by
  obtain ⟨k, cutAt⟩ := Option.ne_none_iff_exists'.mp died
  have some : db.loadPendingTasks.take k ⊆ db.loadPendingTasks := List.take_subset _ _
  have restored := @Database.restored_sublist db cut.env.time _ some
  refine ⟨_, by rw [step_start_cut persistent written tried cutAt], written.restored restored,
    fun event starts whole => ?_⟩
  rw [step_start_whole persistent (written.restored restored) starts whole,
    step_start_whole persistent written starts whole]
  obtain ⟨sameBroker, sameDisk⟩ :=
    @recovered_restored config platform db _ _ _ some restored event.env
  rw [sameBroker, sameDisk]

/-- The same for any number of starts. -/
theorem step_start_after_cuts (persistent : config.persistent = true) {cuts : List Event}
    (tried : ∀ cut ∈ cuts, cut.action = .start ∧ cut.crashIn ≠ none)
    (written : db.Written platform) (starts : event.action = .start)
    (whole : event.crashIn = none) :
    step config platform (Trace.after (step config platform) (.stopped db) cuts) event =
      step config platform (.stopped db) event := by
  induction cuts generalizing db with
  | nil => rfl
  | cons cut rest ih =>
    obtain ⟨isStart, died⟩ := tried cut List.mem_cons_self
    obtain ⟨db', stopped, written', same⟩ := step_start_after_cut persistent written isStart died
    rw [Trace.after_cons, stopped,
      ih (fun other later => tried other (List.mem_cons_of_mem cut later)) written',
      same event starts whole]

end Start

/-! ## The whole phase -/

/-- `ORDER BY created_at` leaves no choice where the times differ. -/
theorem Database.pairwise_loadPendingTasks {db : Database}
    (distinct : ((db.tasks.rows.filter TaskRow.live).map TaskRow.createdAt).Nodup) :
    db.loadPendingTasks.Pairwise fun a b => a.createdAt < b.createdAt := by
  have sorted := List.pairwise_insertionSort (fun a b : TaskRow => a.createdAt ≤ b.createdAt)
    (db.tasks.rows.filter TaskRow.live)
  have apart : (db.loadPendingTasks.map TaskRow.createdAt).Nodup :=
    ((List.perm_insertionSort _ _).map TaskRow.createdAt).nodup_iff.mpr distinct
  rw [List.Nodup, List.pairwise_map] at apart
  exact (sorted.and apart).imp fun both => lt_of_le_of_ne both.1 both.2

/-- **Recovery is complete and idempotent.**  For every WAL state whose recoverable rows have
different creation times, a start brings back exactly these rows, each of them once, in its
own queue, oldest first, with the id, the decoded payload and the attempts of the row; it
changes only their status and update time in the tables; and any number of starts that died
in the middle of the loop leave its result, in memory and in the tables, as it was. -/
theorem recovery_complete_idempotent {config : Config} {platform : Platform}
    (persistent : config.persistent = true) (wal : WalState platform)
    (distinct : ((wal.db.tasks.rows.filter TaskRow.live).map TaskRow.createdAt).Nodup)
    (env : Env) :
    ∃ rows : List TaskRow, ∃ broker disk,
      step config platform (.stopped wal.db) { action := .start, env } =
        (.completed, .running broker disk) ∧
      (∀ row, row ∈ rows ↔ row ∈ wal.db.tasks ∧
        (row.status = .pending ∨ row.status = .inFlight)) ∧
      rows.Pairwise (fun a b => a.createdAt < b.createdAt) ∧
      (∀ row ∈ rows, platform.loads row.payload = some (row.task platform env).payload) ∧
      (∀ name, broker.queueManager.deque name =
        (rows.filter fun row => Key.str row.queueName = name).map (TaskRow.task platform env)) ∧
      broker.queueManager.inFlight.rows = [] ∧
      disk.tasks.rows = wal.db.tasks.rows.map (fun row =>
        if row.status = .pending ∨ row.status = .inFlight then
          { row with status := .pending, updatedAt := env.time }
        else row) ∧
      disk.deadLetterQueue = wal.db.deadLetterQueue ∧
      ∀ cuts : List Event, (∀ cut ∈ cuts, cut.action = .start ∧ cut.crashIn ≠ none) →
        step config platform (Trace.after (step config platform) (.stopped wal.db) cuts)
            { action := .start, env } =
          (.completed, .running broker disk) := by
  have live (row : TaskRow) :
      row.live = true ↔ row.status = .pending ∨ row.status = .inFlight := by
    unfold TaskRow.live
    cases row.status <;> simp [TaskStatus.live]
  have started := @step_start_whole config platform { action := .start, env } wal.db persistent
    wal.written rfl rfl
  obtain ⟨tasks, dead⟩ := wal.db.recovered_rows env.time
  refine ⟨wal.db.loadPendingTasks, _, _, started, fun row => ?_,
    Database.pairwise_loadPendingTasks distinct, fun row pending => ?_, fun name => ?_, ?_, ?_,
    dead, fun cuts tried => ?_⟩
  · rw [Database.mem_loadPendingTasks, live]
  · obtain ⟨payload, decodes⟩ := wal.written.decodable row pending
    simp [TaskRow.task, decodes]
  · exact QueueManager.deque_foldl_restoreTask _ _ name
  · exact congrArg Table.rows (QueueManager.inFlight_foldl_restoreTask _ _)
  · rw [tasks]
    refine List.map_congr_left fun row _ => ?_
    simp only [live]
    rfl
  · rw [step_start_after_cuts persistent tried wal.written rfl rfl, started]

/-- A broker dies with one task in flight and one pending in another queue. -/
def crashedRun : List Event :=
  [.at 0 .start, .at 1 (.produce "q" "p"), .at 2 (.produce "r" "p"), .at 3 (.consume "q" "w"),
    .at 4 .crash]

/-- Both tasks come back, also if a first start dies after one row. -/
theorem recovery_complete_idempotent_crashed :
    ∃ broker disk,
      step { persistent := true } .plain (reach { persistent := true } .plain crashedRun)
        (.at 6 .start) = (.completed, .running broker disk) ∧
      step { persistent := true } .plain
        (reach { persistent := true } .plain (crashedRun ++ [.cutAt 5 1 .start]))
        (.at 6 .start) = (.completed, .running broker disk) ∧
      broker.queueManager.inFlight.rows = [] := by
  let wal := WalState.ofReach { persistent := true } .plain crashedRun (by decide +kernel)
  have isWal : .stopped wal.db = reach { persistent := true } .plain crashedRun := by
    have down : (reach { persistent := true } .plain crashedRun).passes (fun _ _ => true) =
        false := by decide +kernel
    change System.stopped (reach { persistent := true } .plain crashedRun).disk = _
    cases position : reach { persistent := true } .plain crashedRun with
    | stopped disk => rfl
    | running broker disk =>
      rw [position] at down
      cases down
  obtain ⟨rows, broker, disk', started, -, -, -, -, idle, -, -, again⟩ :=
    @recovery_complete_idempotent { persistent := true } .plain rfl wal (by decide +kernel) (.at 6)
  refine ⟨broker, disk', isWal ▸ started, ?_, idle⟩
  rw [reach_concat, ← isWal]
  exact again [.cutAt 5 1 .start] fun cut inside => by
    rw [List.mem_singleton.mp inside]
    exact ⟨rfl, nofun⟩

end DistroSync
