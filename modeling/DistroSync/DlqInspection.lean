import DistroSync.Scenario

/-!
# Inspecting the dead letters

DLQ_LIST and the `dlq.total_tasks` of METRICS read the dead letters of the active backend:
the table with persistence, the in-memory queue without.  Both are compared with the whole
content of that backend, at any state of it, for a request with a limit and a queue filter
or none.

The two backends differ in what comes first.  The SELECT filters, sorts and then limits;
the in-memory path limits first and filters what is left.  In both an empty filter is
taken for none, and METRICS counts what a listing with a fixed limit returns.  Only the SELECT
has to bind its parameters, and there are limits and names that SQLite does not take.

The listings are compared as the handler returns them.
-/

namespace DistroSync

open Keyed Py

/-- A DLQ_LIST request. -/
def dlqListRequest (queue : Option String) (limit : Nat) : Message :=
  match queue with
  | none => [("command", .str "DLQ_LIST"), ("limit", .int limit)]
  | some name => [("command", .str "DLQ_LIST"), ("queue", .str name), ("limit", .int limit)]

/-- A METRICS request. -/
def metricsRequest : Message := [("command", .str "METRICS")]

/-- All dead-lettered tasks of the active backend. -/
def Machine.deadLetters (m : Machine) (platform : Platform) : List DlqEntry :=
  if m.broker.walStore.isSome then m.disk.deadLetterQueue.rows.map (DlqEntry.ofRow platform)
  else m.broker.queueManager.deadLetterQueue.tasks.rows.map DlqEntry.ofTask

/-- Whether an entry passes the filter. -/
def DlqEntry.passes (queue : Option String) (entry : DlqEntry) : Bool :=
  match queue, entry.queueName with
  | none, _ => true
  | some name, .str text => text = name
  | some _, _ => false

/-- The entries are as many distinct dead letters as there are that pass the filter, up to
the limit. -/
structure ListsFully (deadLetters : List DlqEntry) (queue : Option String) (limit : Nat)
    (entries : List DlqEntry) : Prop where
  members : entries ⊆ deadLetters
  distinct : (entries.map DlqEntry.taskId).Nodup
  passing : ∀ entry ∈ entries, entry.passes queue = true
  length_eq : entries.length = min limit (deadLetters.filter (DlqEntry.passes queue)).length

/-- DLQ_LIST answers with a full listing. -/
def CompleteListing (platform : Platform) (env : Env) (m : Machine) (queue : Option String)
    (limit : Nat) : Prop :=
  ∃ entries m', dispatch platform env (dlqListRequest queue limit) m =
      .ok (.dlqList entries.length entries) m' ∧
    ListsFully (m.deadLetters platform) queue limit entries

/-- METRICS answers with the number of the dead letters. -/
def CompleteSnapshot (platform : Platform) (env : Env) (m : Machine) : Prop :=
  ∃ report m', dispatch platform env metricsRequest m = .ok (.metrics report) m' ∧
    report.dlqTotalTasks = (m.deadLetters platform).length

/-- The dead letters of the table, newest first. -/
def Database.newestFirst (db : Database) : List DlqRow :=
  db.deadLetterQueue.rows.insertionSort fun a b => b.deadLetteredAt ≤ a.deadLetteredAt

/-- The name that the request filters by can be bound, if it is not empty. -/
def Bindable (platform : Platform) (queue : Option String) : Prop :=
  ∀ name, queue = some name → name ≠ "" → platform.Binds name

/-- With persistence, the limit and the name can be bound, and if the name is empty, the newest
`limit` dead letters are all of the queue with that name.  Without, the oldest `limit` tasks
are all in the queue asked for, or none of the others is and the name is not empty. -/
def Listable (platform : Platform) (m : Machine) (queue : Option String) (limit : Nat) : Prop :=
  if m.broker.walStore.isSome then
    limit < 2 ^ 63 ∧ Bindable platform queue ∧
      (queue = some "" → ∀ row ∈ m.disk.newestFirst.take limit, row.queueName = "")
  else
    ∀ name, queue = some name →
      (∀ task ∈ m.broker.queueManager.deadLetterQueue.tasks.rows.take limit,
          task.queueName = .str name) ∨
        name ≠ "" ∧ ∀ task ∈ m.broker.queueManager.deadLetterQueue.tasks.rows.drop limit,
          task.queueName ≠ .str name

/-- The dead letters are at most as many as the listing inside METRICS may return. -/
def Countable (platform : Platform) (m : Machine) : Prop :=
  (m.deadLetters platform).length ≤ if m.broker.walStore.isSome then 100 else 1000

/-! ## Limits and filters -/

section Lists

variable {α : Type*} (p : α → Bool) (n : Nat) (xs : List α)

/-- Limiting before filtering loses nothing exactly if the first elements all pass or the
others all fail. -/
theorem length_filter_take_eq_iff :
    ((xs.take n).filter p).length = min n (xs.filter p).length ↔
      (∀ x ∈ xs.take n, p x = true) ∨ ∀ x ∈ xs.drop n, ¬p x = true := by
  have split : (xs.filter p).length =
      ((xs.take n).filter p).length + ((xs.drop n).filter p).length := by
    rw [← List.length_append, ← List.filter_append, List.take_append_drop]
  have bound : ((xs.take n).filter p).length ≤ (xs.take n).length := List.length_filter_le _ _
  have short : (xs.take n).length = min n xs.length := List.length_take
  have total : (xs.filter p).length ≤ xs.length := List.length_filter_le _ _
  constructor
  · intro full
    rcases Nat.lt_or_ge n (xs.filter p).length with many | few
    · left
      rw [← List.length_filter_eq_length_iff]
      omega
    · right
      have none : ((xs.drop n).filter p).length = 0 := by omega
      exact List.filter_eq_nil_iff.mp (List.length_eq_zero_iff.mp none)
  · rintro (all | none)
    · have whole := List.length_filter_eq_length_iff.mpr all
      have rest : ((xs.drop n).filter p).length ≤ xs.length - n := by
        rw [← List.length_drop]
        exact List.length_filter_le _ _
      omega
    · have rest := List.filter_eq_nil_iff.mpr none
      rw [rest, List.length_nil] at split
      omega

/-- Limiting without filtering gives what passes exactly if the first elements all pass. -/
theorem length_take_eq_of_all (all : ∀ x ∈ xs.take n, p x = true) :
    (xs.take n).length = min n (xs.filter p).length := by
  have full := (length_filter_take_eq_iff p n xs).mpr (.inl all)
  rwa [List.filter_eq_self.mpr all] at full

end Lists

/-! ## What the handlers answer -/

section Answers

variable {platform : Platform} {env : Env} {m : Machine} {queue : Option String} {limit : Nat}

/-- The filter that the handlers use: an empty name is none. -/
def effective (queue : Option String) : Option String := queue.filter (· ≠ "")

/-- The in-memory path compares the names as Python does, and a text equals only itself. -/
theorem passes_ofTask (name : String) (task : Task) :
    (DlqEntry.ofTask task).passes (some name) = task.inQueue (.str name) := by
  unfold DlqEntry.passes DlqEntry.ofTask Task.inQueue
  cases task.queueName <;> simp [Scalar.toJson, Scalar.key, eq_comm]

theorem dispatch_dlqListRequest :
    dispatch platform env (dlqListRequest queue limit) m =
      handleDlqList platform (dlqListRequest queue limit) m := by
  cases queue <;> rfl

theorem get_limit : (dlqListRequest queue limit).get "limit" (.int 50) = .int limit := by
  cases queue <;> rfl

/-- An empty name filters nothing. -/
theorem queueFilter_request (bindable : Bindable platform queue) :
    platform.queueFilter ((dlqListRequest queue limit).get "queue" .null) =
      .ok ((effective queue).map some) := by
  cases queue with
  | none => rfl
  | some name =>
    change platform.queueFilter (.str name) = _
    by_cases empty : name = ""
    · subst empty
      rfl
    · have bound := (bindable name rfl empty).textOf
      simp [Platform.queueFilter, Json.truthy, empty, effective, bound, Except.map,
        Option.filter]

theorem queueFilter_request_error (unbindable : ¬Bindable platform queue) :
    ∃ e, platform.queueFilter ((dlqListRequest queue limit).get "queue" .null) = .error e := by
  unfold Bindable at unbindable
  push Not at unbindable
  obtain ⟨name, rfl, empty, fails⟩ := unbindable
  change ∃ e, platform.queueFilter (.str name) = .error e
  have truthy : (Json.str name).truthy = true := by simpa [Json.truthy] using empty
  unfold Platform.queueFilter
  rw [if_pos truthy]
  cases bound : platform.textOf (.str name) with
  | error e => exact ⟨e, rfl⟩
  | ok text => exact absurd (Platform.eq_of_textOf_str bound).1 fails

/-- SQLite takes no integer of more than 64 bits. -/
theorem limitOf_int (platform : Platform) (limit : Nat) :
    platform.limitOf (.int limit) =
      if limit < 2 ^ 63 then .ok (limit : Int) else .error .overflowError := by
  have fits : sqliteInteger limit ↔ limit < 2 ^ 63 := by
    unfold sqliteInteger
    omega
  simp [Platform.limitOf, fits]

/-- The listing with persistence, if both parameters can be bound. -/
theorem dispatch_dlqList_persistent (persistent : m.broker.walStore.isSome = true)
    (small : limit < 2 ^ 63) (bindable : Bindable platform queue) :
    dispatch platform env (dlqListRequest queue limit) m =
      .ok (.dlqList ((m.disk.getDlqTasks ((effective queue).map some) limit).map
          (DlqEntry.ofRow platform)).length
        ((m.disk.getDlqTasks ((effective queue).map some) limit).map
          (DlqEntry.ofRow platform))) m := by
  rw [dispatch_dlqListRequest, handleDlqList, get_limit, queueFilter_request bindable,
    limitOf_int, if_pos small]
  simp only [bind, EStateM.bind, get, getThe, MonadStateOf.get, EStateM.get, persistent, if_true]
  rfl

/-- Without that, the listing raises. -/
theorem dispatch_dlqList_unbindable (persistent : m.broker.walStore.isSome = true)
    (unbindable : ¬(limit < 2 ^ 63 ∧ Bindable platform queue)) :
    ∃ e, dispatch platform env (dlqListRequest queue limit) m = .error (.raised e) m := by
  rw [dispatch_dlqListRequest, handleDlqList, get_limit, limitOf_int]
  simp only [bind, EStateM.bind, get, getThe, MonadStateOf.get, EStateM.get, persistent, if_true]
  by_cases bindable : Bindable platform queue
  · rw [queueFilter_request bindable, if_neg fun small => unbindable ⟨small, bindable⟩]
    exact ⟨_, rfl⟩
  · obtain ⟨e, fails⟩ := @queueFilter_request_error platform queue limit bindable
    rw [fails]
    exact ⟨e, rfl⟩

theorem handleDlqList_inMemory (inMemory : m.broker.walStore.isSome = false) (message : Message) :
    handleDlqList platform message m =
      match peekLimit m.broker.queueManager.deadLetterQueue (message.get "limit" (.int 50)) with
      | .error e => .error (.raised e) m
      | .ok tasks =>
        let tasks := if (message.get "queue" .null).truthy then
          tasks.filter fun task => task.inQueue (message.get "queue" .null) else tasks
        .ok (.dlqList (tasks.map DlqEntry.ofTask).length (tasks.map DlqEntry.ofTask)) m := by
  unfold handleDlqList
  simp only [bind, EStateM.bind, get, getThe, MonadStateOf.get, EStateM.get, inMemory]
  rw [if_neg Bool.false_ne_true]
  cases peekLimit m.broker.queueManager.deadLetterQueue (message.get "limit" (.int 50)) <;> rfl

/-- The listing without persistence. -/
theorem dispatch_dlqList_inMemory (inMemory : m.broker.walStore.isSome = false) :
    dispatch platform env (dlqListRequest queue limit) m =
      .ok (.dlqList
          (((m.broker.queueManager.deadLetterQueue.tasks.rows.take limit).map
            DlqEntry.ofTask).filter (DlqEntry.passes (effective queue))).length
        (((m.broker.queueManager.deadLetterQueue.tasks.rows.take limit).map
          DlqEntry.ofTask).filter (DlqEntry.passes (effective queue)))) m := by
  rw [dispatch_dlqListRequest, handleDlqList_inMemory inMemory, get_limit, peekLimit,
    DeadLetterQueue.peek, sliceTo_natCast]
  cases queue with
  | none =>
    have all : DlqEntry.passes (effective none) = fun _ => true := rfl
    rw [all, List.filter_true]
    rfl
  | some name =>
    have named : (dlqListRequest (some name) limit).get "queue" .null = .str name := rfl
    simp only [named]
    by_cases empty : name = ""
    · subst empty
      have all : DlqEntry.passes (effective (some "")) = fun _ => true := rfl
      rw [all, List.filter_true]
      rfl
    · have truthy : (Json.str name).truthy = true := by simpa [Json.truthy] using empty
      have kept : effective (some name) = some name := by simp [effective, Option.filter, empty]
      have same : (fun task : Task => task.inQueue (.str name)) =
          DlqEntry.passes (some name) ∘ DlqEntry.ofTask := by
        funext task
        exact (passes_ofTask name task).symm
      rw [kept, List.filter_map, ← same, if_pos truthy]

/-- Which listing an answer shows. -/
theorem answered_iff (listing : List DlqEntry) (Q : List DlqEntry → Prop) :
    (∃ entries m',
      (.ok (.dlqList listing.length listing) m : EStateM.Result Stop Machine Response) =
        .ok (.dlqList entries.length entries) m' ∧ Q entries) ↔ Q listing := by
  constructor
  · rintro ⟨entries, m', answered, shown⟩
    injection answered with same
    injection same with _ isListing
    rwa [isListing]
  · intro shown
    exact ⟨listing, m, rfl, shown⟩

end Answers

/-! ## Persistence -/

section Persistent

variable {platform : Platform} {env : Env} {m : Machine} {queue : Option String} {limit : Nat}

theorem effective_of_ne {name : String} (named : name ≠ "") :
    effective (some name) = some name := by
  simp [effective, Option.filter, named]

/-- The rows that a SELECT with the filter runs over. -/
def Database.filtered (db : Database) (queue : Option String) : List DlqRow :=
  db.deadLetterQueue.rows.filter fun row => queue.all fun name => row.queueName = name

/-- The table filters first and limits then. -/
theorem getDlqTasks_eq (db : Database) (queue : Option String) (limit : Nat) :
    db.getDlqTasks (queue.map some) limit =
      ((db.filtered queue).insertionSort fun a b => b.deadLetteredAt ≤ a.deadLetteredAt).take
        limit := by
  unfold Database.getDlqTasks Database.filtered
  rw [if_neg (by omega), Int.toNat_natCast]
  cases queue with
  | none => simp
  | some name => simp

/-- The rows of a SELECT without a filter are the newest ones. -/
theorem getDlqTasks_none (db : Database) (limit : Nat) :
    db.getDlqTasks none limit = db.newestFirst.take limit := by
  unfold Database.getDlqTasks Database.newestFirst
  rw [if_neg (by omega), Int.toNat_natCast]

/-- The rows of a SELECT are some of the rows that pass, in another order. -/
theorem getDlqTasks_subperm (db : Database) (queue : Option String) (limit : Nat) :
    (db.getDlqTasks (queue.map some) limit).Subperm (db.filtered queue) := by
  rw [getDlqTasks_eq]
  exact (List.take_sublist _ _).subperm.trans (List.perm_insertionSort _ _).subperm

theorem length_getDlqTasks (db : Database) (queue : Option String) (limit : Nat) :
    (db.getDlqTasks (queue.map some) limit).length = min limit (db.filtered queue).length := by
  rw [getDlqTasks_eq, List.length_take, List.length_insertionSort]

theorem passes_ofRow (queue : Option String) (row : DlqRow) :
    (DlqEntry.ofRow platform row).passes queue = queue.all fun name => row.queueName = name := by
  cases queue <;> rfl

/-- What a SELECT returns is distinct, and dead. -/
theorem getDlqTasks_listed (queue : Option String) (limit : Nat) (db : Database) :
    (db.getDlqTasks (queue.map some) limit).map (DlqEntry.ofRow platform) ⊆
        db.deadLetterQueue.rows.map (DlqEntry.ofRow platform) ∧
      (((db.getDlqTasks (queue.map some) limit).map (DlqEntry.ofRow platform)).map
        DlqEntry.taskId).Nodup := by
  have rows := (getDlqTasks_subperm db queue limit).trans List.filter_sublist.subperm
  refine ⟨List.map_subset _ rows.subset, ?_⟩
  have filtered : ((db.filtered queue).map DlqRow.taskId).Nodup :=
    db.deadLetterQueue.nodup.sublist (List.filter_sublist.map _)
  have sorted := ((List.perm_insertionSort
    (fun a b : DlqRow => b.deadLetteredAt ≤ a.deadLetteredAt) (db.filtered queue)).map
      DlqRow.taskId).nodup_iff.mpr filtered
  rw [List.map_map, getDlqTasks_eq]
  exact sorted.sublist ((List.take_sublist _ _).map _)

theorem length_deadLetters_filter (db : Database) (queue : Option String) :
    ((db.deadLetterQueue.rows.map (DlqEntry.ofRow platform)).filter
      (DlqEntry.passes queue)).length = (db.filtered queue).length := by
  rw [List.filter_map, List.length_map]
  congr 1
  exact List.filter_congr fun row _ => passes_ofRow queue row

/-- With the filter that is asked for, a SELECT is a full listing. -/
theorem listsFully_of_effective (same : effective queue = queue) (db : Database) :
    ListsFully (db.deadLetterQueue.rows.map (DlqEntry.ofRow platform)) queue limit
      ((db.getDlqTasks ((effective queue).map some) limit).map
        (DlqEntry.ofRow platform)) := by
  obtain ⟨members, distinct⟩ := @getDlqTasks_listed platform (effective queue) limit db
  refine ⟨members, distinct, ?_, ?_⟩
  · intro entry listed
    obtain ⟨row, isRow, rfl⟩ := List.mem_map.mp listed
    have inFilter := (getDlqTasks_subperm db (effective queue) limit).subset isRow
    rw [passes_ofRow, ← same]
    exact (List.mem_filter.mp inFilter).2
  · rw [List.length_map, length_getDlqTasks, length_deadLetters_filter, same]

/-- A SELECT without a filter is a full listing of the queue with the empty name exactly if it
finds nothing else. -/
theorem listsFully_empty_iff (db : Database) :
    ListsFully (db.deadLetterQueue.rows.map (DlqEntry.ofRow platform)) (some "") limit
        ((db.getDlqTasks none limit).map (DlqEntry.ofRow platform)) ↔
      ∀ row ∈ db.newestFirst.take limit, row.queueName = "" := by
  rw [getDlqTasks_none]
  constructor
  · intro full row isRow
    have passes := full.passing _ (List.mem_map_of_mem isRow)
    simpa [passes_ofRow] using passes
  · intro all
    have listed := @getDlqTasks_listed platform none limit db
    rw [show (none : Option String).map some = none from rfl, getDlqTasks_none] at listed
    obtain ⟨members, distinct⟩ := listed
    refine ⟨members, distinct, ?_, ?_⟩
    · intro entry listed
      obtain ⟨row, isRow, rfl⟩ := List.mem_map.mp listed
      simpa [passes_ofRow] using all row isRow
    · rw [List.length_map, length_deadLetters_filter]
      rw [length_take_eq_of_all (fun row => row.queueName = "") limit _ (by simpa using all)]
      have perm := (List.perm_insertionSort
        (fun a b : DlqRow => b.deadLetteredAt ≤ a.deadLetteredAt) db.deadLetterQueue.rows).filter
          fun row => row.queueName = ""
      rw [Database.newestFirst, perm.length_eq]
      simp [Database.filtered]

/-- With a store the request must be bindable, and an empty name is no filter. -/
theorem completeListing_iff_persistent (persistent : m.broker.walStore.isSome = true) :
    CompleteListing platform env m queue limit ↔
      limit < 2 ^ 63 ∧ Bindable platform queue ∧
        (queue = some "" → ∀ row ∈ m.disk.newestFirst.take limit, row.queueName = "") := by
  unfold CompleteListing Machine.deadLetters
  rw [if_pos persistent]
  by_cases bound : limit < 2 ^ 63 ∧ Bindable platform queue
  · rw [dispatch_dlqList_persistent persistent bound.1 bound.2]
    have full : ListsFully (m.disk.deadLetterQueue.rows.map (DlqEntry.ofRow platform)) queue limit
        ((m.disk.getDlqTasks ((effective queue).map some) limit).map (DlqEntry.ofRow platform)) ↔
          (queue = some "" → ∀ row ∈ m.disk.newestFirst.take limit, row.queueName = "") := by
      by_cases empty : queue = some ""
      · subst empty
        have fully := @listsFully_empty_iff platform limit m.disk
        exact ⟨fun full _ => fully.mp full, fun all => fully.mpr (all rfl)⟩
      · have same : effective queue = queue := by
          cases queue with
          | none => rfl
          | some name => exact effective_of_ne fun isEmpty => empty (by rw [isEmpty])
        exact ⟨fun _ isEmpty => absurd isEmpty empty, fun _ => listsFully_of_effective same _⟩
    rw [answered_iff, full]
    exact ⟨fun only => ⟨bound.1, bound.2, only⟩, fun listable => listable.2.2⟩
  · obtain ⟨e, raised⟩ := @dispatch_dlqList_unbindable platform env m queue limit persistent bound
    rw [raised]
    constructor
    · rintro ⟨entries, m', answered, -⟩
      cases answered
    · rintro ⟨small, bindable, -⟩
      exact absurd ⟨small, bindable⟩ bound

end Persistent

/-! ## In memory -/

section InMemory

variable {platform : Platform} {env : Env} {m : Machine} {queue : Option String} {limit : Nat}

theorem passes_ofTask_iff {name : String} {task : Task} :
    (DlqEntry.ofTask task).passes (some name) = true ↔ task.queueName = .str name := by
  unfold DlqEntry.passes DlqEntry.ofTask
  cases task.queueName <;> simp [Scalar.toJson]

/-- What the in-memory path returns is distinct, and dead. -/
theorem peek_listed (tasks : TaskTable) (limit : Nat) (keep : DlqEntry → Bool) :
    (((tasks.rows.take limit).map DlqEntry.ofTask).filter keep) ⊆ tasks.rows.map DlqEntry.ofTask ∧
      ((((tasks.rows.take limit).map DlqEntry.ofTask).filter keep).map DlqEntry.taskId).Nodup := by
  have sub : (((tasks.rows.take limit).map DlqEntry.ofTask).filter keep).Sublist
      (tasks.rows.map DlqEntry.ofTask) :=
    List.filter_sublist.trans ((List.take_sublist _ _).map _)
  refine ⟨sub.subset, (sub.map DlqEntry.taskId).nodup ?_⟩
  rw [List.map_map]
  exact tasks.nodup

/-- In memory the limit comes first, so that other queues can use it up. -/
theorem listsFully_iff_inMemory (tasks : TaskTable) (name : String) :
    ListsFully (tasks.rows.map DlqEntry.ofTask) (some name) limit
        (((tasks.rows.take limit).map DlqEntry.ofTask).filter
          (DlqEntry.passes (effective (some name)))) ↔
      (∀ task ∈ tasks.rows.take limit, task.queueName = .str name) ∨
        name ≠ "" ∧ ∀ task ∈ tasks.rows.drop limit, task.queueName ≠ .str name := by
  obtain ⟨members, distinct⟩ := peek_listed tasks limit (DlqEntry.passes (effective (some name)))
  have all_iff : (∀ entry ∈ (tasks.rows.map DlqEntry.ofTask).take limit,
      entry.passes (some name) = true) ↔
        ∀ task ∈ tasks.rows.take limit, task.queueName = .str name := by
    rw [← List.map_take]
    simp only [List.forall_mem_map, passes_ofTask_iff]
  have none_iff : (∀ entry ∈ (tasks.rows.map DlqEntry.ofTask).drop limit,
      ¬entry.passes (some name) = true) ↔
        ∀ task ∈ tasks.rows.drop limit, task.queueName ≠ .str name := by
    rw [← List.map_drop]
    simp only [List.forall_mem_map, passes_ofTask_iff, ne_eq]
  rw [List.map_take] at members distinct ⊢
  by_cases empty : name = ""
  · subst empty
    have kept : ((tasks.rows.map DlqEntry.ofTask).take limit).filter
        (DlqEntry.passes (effective (some ""))) = (tasks.rows.map DlqEntry.ofTask).take limit :=
      List.filter_eq_self.mpr fun _ _ => rfl
    rw [kept] at members distinct ⊢
    constructor
    · intro full
      exact .inl (all_iff.mp full.passing)
    · rintro (all | ⟨named, -⟩)
      · exact ⟨members, distinct, all_iff.mpr all, length_take_eq_of_all _ _ _ (all_iff.mpr all)⟩
      · exact absurd rfl named
  · rw [effective_of_ne empty] at members distinct ⊢
    have counts := length_filter_take_eq_iff (DlqEntry.passes (some name)) limit
      (tasks.rows.map DlqEntry.ofTask)
    rw [all_iff, none_iff] at counts
    constructor
    · intro full
      exact (counts.mp full.length_eq).imp_right fun none => ⟨empty, none⟩
    · intro either
      refine ⟨members, distinct, fun entry listed => (List.mem_filter.mp listed).2, ?_⟩
      exact counts.mpr (either.imp_right And.right)

theorem completeListing_iff_inMemory (inMemory : m.broker.walStore.isSome = false) :
    CompleteListing platform env m queue limit ↔
      ∀ name, queue = some name →
        (∀ task ∈ m.broker.queueManager.deadLetterQueue.tasks.rows.take limit,
            task.queueName = .str name) ∨
          name ≠ "" ∧ ∀ task ∈ m.broker.queueManager.deadLetterQueue.tasks.rows.drop limit,
            task.queueName ≠ .str name := by
  have branch : ¬m.broker.walStore.isSome = true := by simp [inMemory]
  unfold CompleteListing Machine.deadLetters
  rw [dispatch_dlqList_inMemory inMemory, if_neg branch]
  generalize m.broker.queueManager.deadLetterQueue.tasks = tasks
  rw [answered_iff]
  cases queue with
  | none =>
    obtain ⟨members, distinct⟩ := peek_listed tasks limit (DlqEntry.passes (effective none))
    refine ⟨fun _ name isName => by simp at isName, fun _ => ⟨members, distinct, ?_, ?_⟩⟩
    · intro entry _
      rfl
    · have all : DlqEntry.passes (effective none) = fun _ => true := rfl
      have all' : DlqEntry.passes none = fun _ => true := rfl
      rw [all, all', List.filter_true, List.filter_true, List.length_map, List.length_take,
        List.length_map]
  | some name =>
    rw [listsFully_iff_inMemory]
    simp

end InMemory

/-! ## The snapshot -/

section Snapshot

variable {platform : Platform} {env : Env} {m : Machine}

/-- METRICS always answers, with the length of a limited listing. -/
theorem dispatch_metrics :
    ∃ report m', dispatch platform env metricsRequest m = .ok (.metrics report) m' ∧
      report.dlqTotalTasks =
        if m.broker.walStore.isSome then (m.disk.getDlqTasks none 100).length
        else (m.broker.queueManager.deadLetterQueue.peek 1000).length :=
  ⟨_, _, rfl, rfl⟩

/-- METRICS counts the dead letters of one listing, which has a fixed limit. -/
theorem completeSnapshot_iff : CompleteSnapshot platform env m ↔ Countable platform m := by
  obtain ⟨report, m', answered, counted⟩ := @dispatch_metrics platform env m
  have shown : CompleteSnapshot platform env m ↔
      report.dlqTotalTasks = (m.deadLetters platform).length := by
    unfold CompleteSnapshot
    rw [answered]
    constructor
    · rintro ⟨report', m'', same, exact_⟩
      injection same with same
      injection same with same
      rwa [same]
    · intro total
      exact ⟨report, m', rfl, total⟩
  rw [shown, counted]
  unfold Countable Machine.deadLetters
  by_cases persistent : m.broker.walStore.isSome = true
  · have length_eq : (m.disk.getDlqTasks none (100 : Nat)).length = _ :=
      length_getDlqTasks m.disk none 100
    have all : (m.disk.filtered none).length = m.disk.deadLetterQueue.rows.length := by
      simp [Database.filtered]
    simp only [if_pos persistent, List.length_map]
    rw [all] at length_eq
    change (m.disk.getDlqTasks none (100 : Nat)).length = _ ↔ _
    omega
  · simp only [if_neg persistent, List.length_map]
    change (sliceTo m.broker.queueManager.deadLetterQueue.tasks.rows (1000 : Nat)).length = _ ↔ _
    rw [sliceTo_natCast, List.length_take]
    omega

end Snapshot

/-- **When inspection is complete**, for a listing and for the snapshot, at any state. -/
theorem inspection_complete_iff (platform : Platform) (env : Env) (m : Machine)
    (queue : Option String) (limit : Nat) :
    (CompleteListing platform env m queue limit ↔ Listable platform m queue limit) ∧
      (CompleteSnapshot platform env m ↔ Countable platform m) := by
  refine ⟨?_, completeSnapshot_iff⟩
  unfold Listable
  by_cases persistent : m.broker.walStore.isSome = true
  · rw [if_pos persistent]
    exact completeListing_iff_persistent persistent
  · rw [if_neg persistent]
    exact completeListing_iff_inMemory (by simpa using persistent)

/-- An in-memory broker with a dead letter of the queue `x` and a later one of the queue
`y`. -/
def mixedDeadLetters : Machine where
  broker :=
    { queueManager :=
        { deadLetterQueue :=
            (DeadLetterQueue.add {} 1 ⟨"a", .str "x", .null, .inFlight, 0, .null, 3, none⟩).add 2
              ⟨"b", .str "y", .null, .inFlight, 0, .null, 3, none⟩ }
      workerRegistry := {}
      loadShedder := {}
      metrics := { startTime := 0 }
      walStore := none }
  disk := {}

/-- **The limit cuts before the filter looks.**  Asked for one dead letter of `y`, the
in-memory broker takes the oldest one, which is of `x`, and answers with none. -/
theorem limited_before_filtered :
    dispatch .plain (.at 3) (dlqListRequest (some "y") 1) mixedDeadLetters =
        .ok (.dlqList 0 []) mixedDeadLetters ∧
      ((mixedDeadLetters.deadLetters .plain).filter (DlqEntry.passes (some "y"))).length = 1 ∧
      ¬CompleteListing .plain (.at 3) mixedDeadLetters (some "y") 1 := by
  refine ⟨dispatch_dlqList_inMemory rfl, by decide +kernel, ?_⟩
  rw [completeListing_iff_inMemory rfl]
  intro either
  have listable := either "y" rfl
  revert listable
  decide +kernel

end DistroSync
