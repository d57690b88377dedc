import DistroSync.Memory
import DistroSync.RateLimit

/-!
# What one queue sees of the broker

Two brokers are alike to a queue `b` when they agree on the bucket, the pending deque and
the latency window of `b`, on the tasks of `b` that are in flight, and of every worker on
the heartbeat, the declared queues and the tracked tasks of `b`.

For every operation there are two facts: on a task or queue of `b` it takes alike states
to alike states, and elsewhere it leaves a state alike to itself.  The second has one
exception.  `complete_task` adds the latency of a task to the windows of *all* queues that
the worker declares, whichever queue the task came from; `WorkerRegistry.charges` says
when the window of `b` is among them.
-/

namespace DistroSync

open Keyed Py

/-! ## Queue managers -/

/-- The task is none of `b`, whose tasks have these ids. -/
def Task.Foreign (b : Key) (ids : List String) (task : Task) : Prop :=
  task.taskId ∉ ids ∧ task.queueName.key ≠ b

instance (b : Key) (ids : List String) (task : Task) : Decidable (task.Foreign b ids) :=
  inferInstanceAs (Decidable (_ ∧ _))

namespace QueueManager

variable {b : Key} {ids : List String} {qm qm' : QueueManager}

theorem deque_append (qm : QueueManager) (task : Task) (name : Key) :
    (qm.append task).deque name =
      if name = task.queueName.key then qm.deque name ++ [task] else qm.deque name := by
  split_ifs with same
  · subst same
    exact deque_append_self qm task
  · exact (deque_put_of_ne _ _ _ same).trans (deque_ensureQueue qm _ name)

theorem deque_appendLeft (qm : QueueManager) (task : Task) (name : Key) :
    (qm.appendLeft task).deque name =
      if name = task.queueName.key then task :: qm.deque name else qm.deque name := by
  split_ifs with same
  · subst same
    unfold appendLeft
    rw [deque_put_self, deque_ensureQueue]
  · exact (deque_put_of_ne _ _ _ same).trans (deque_ensureQueue qm _ name)

/-- The tasks of `b` are those with these ids, and every task is in its own queue. -/
structure Apart (b : Key) (ids : List String) (qm : QueueManager) : Prop where
  pending : ∀ name, ∀ task ∈ qm.deque name,
    task.queueName.key = name ∧ (task.taskId ∈ ids ↔ name = b)
  inFlight : ∀ task ∈ qm.inFlight, task.taskId ∈ ids ↔ task.queueName.key = b

/-- Two queue managers agree on the tasks of `b`. -/
structure Alike (b : Key) (ids : List String) (qm qm' : QueueManager) : Prop where
  deque : qm.deque b = qm'.deque b
  inFlight : ∀ id ∈ ids, qm.inFlight.find? id = qm'.inFlight.find? id
  maxRetries : qm.maxRetries = qm'.maxRetries

theorem Alike.refl (qm : QueueManager) : Alike b ids qm qm := ⟨rfl, fun _ _ => rfl, rfl⟩

theorem Alike.symm (alike : Alike b ids qm qm') : Alike b ids qm' qm :=
  ⟨alike.deque.symm, fun id own => (alike.inFlight id own).symm, alike.maxRetries.symm⟩

theorem Alike.trans {qm'' : QueueManager} (alike : Alike b ids qm qm')
    (further : Alike b ids qm' qm'') : Alike b ids qm qm'' :=
  ⟨alike.deque.trans further.deque,
    fun id own => (alike.inFlight id own).trans (further.inFlight id own),
    alike.maxRetries.trans further.maxRetries⟩

section Append

variable {task : Task}

/-- An appended task must belong to `b` in both ways or in neither. -/
theorem Apart.append (apart : Apart b ids qm) (own : task.taskId ∈ ids ↔ task.queueName.key = b) :
    Apart b ids (qm.append task) := by
  refine ⟨fun name other inside => ?_, fun other flying => ?_⟩
  · rw [deque_append] at inside
    split_ifs at inside with same
    · rcases List.mem_append.mp inside with old | new
      · exact apart.pending name other old
      · rw [List.mem_singleton.mp new, same]
        exact ⟨rfl, own⟩
    · exact apart.pending name other inside
  · rw [append_inFlight] at flying
    exact apart.inFlight other flying

theorem Apart.appendLeft (apart : Apart b ids qm)
    (own : task.taskId ∈ ids ↔ task.queueName.key = b) : Apart b ids (qm.appendLeft task) := by
  refine ⟨fun name other inside => ?_, fun other flying => ?_⟩
  · rw [deque_appendLeft] at inside
    split_ifs at inside with same
    · rcases List.mem_cons.mp inside with new | old
      · rw [new, same]
        exact ⟨rfl, own⟩
      · exact apart.pending name other old
    · exact apart.pending name other inside
  · rw [appendLeft_inFlight] at flying
    exact apart.inFlight other flying

/-- The deque of `b` decides, and it is the same on both sides. -/
theorem Alike.append (alike : Alike b ids qm qm') (task : Task) :
    Alike b ids (qm.append task) (qm'.append task) := by
  refine ⟨?_, fun id own => ?_, by simpa using alike.maxRetries⟩
  · simp only [deque_append, alike.deque]
  · simpa using alike.inFlight id own

theorem Alike.appendLeft (alike : Alike b ids qm qm') (task : Task) :
    Alike b ids (qm.appendLeft task) (qm'.appendLeft task) := by
  refine ⟨?_, fun id own => ?_, by simpa using alike.maxRetries⟩
  · simp only [deque_appendLeft, alike.deque]
  · simpa using alike.inFlight id own

/-- Other queues have deques of their own. -/
theorem append_alike (qm : QueueManager) (other : task.queueName.key ≠ b) :
    Alike b ids (qm.append task) qm :=
  ⟨by rw [deque_append, if_neg other.symm], by simp, by simp⟩

theorem appendLeft_alike (qm : QueueManager) (other : task.queueName.key ≠ b) :
    Alike b ids (qm.appendLeft task) qm :=
  ⟨by rw [deque_appendLeft, if_neg other.symm], by simp, by simp⟩

theorem Apart.enqueue {taskId : String} {queueName : Scalar} (apart : Apart b ids qm)
    (own : taskId ∈ ids ↔ queueName.key = b) (now : Rat) (payload : Json) :
    Apart b ids (qm.enqueue taskId now queueName payload) := by
  have appended := @Apart.append b ids qm { taskId, queueName, payload, createdAt := now } apart own
  exact ⟨appended.pending, appended.inFlight⟩

theorem Alike.enqueue (alike : Alike b ids qm qm') (taskId : String) (now : Rat)
    (queueName : Scalar) (payload : Json) :
    Alike b ids (qm.enqueue taskId now queueName payload)
      (qm'.enqueue taskId now queueName payload) := by
  have appended := alike.append { taskId, queueName, payload, createdAt := now }
  exact ⟨appended.deque, appended.inFlight, appended.maxRetries⟩

theorem enqueue_alike (qm : QueueManager) {queueName : Scalar} (other : queueName.key ≠ b)
    (taskId : String) (now : Rat) (payload : Json) :
    Alike b ids (qm.enqueue taskId now queueName payload) qm := by
  have appended := @append_alike b ids { taskId, queueName, payload, createdAt := now } qm other
  exact ⟨appended.deque, appended.inFlight, appended.maxRetries⟩

end Append

/-! ### Dead letters that are retried -/

section Retried

variable {id : String} {taskIds : List String}

theorem Apart.retry (apart : Apart b ids qm)
    (foreign : ∀ task, qm.deadLetterQueue.tasks.find? id = some task → task.Foreign b ids) :
    Apart b ids (qm.retry id).2 := by
  cases found : qm.deadLetterQueue.tasks.find? id with
  | none =>
    rw [retry_of_absent found]
    exact apart
  | some task =>
    obtain ⟨notOwn, away⟩ := foreign task found
    simp only [QueueManager.retry, retryBegin, found]
    have appended := @Apart.append b ids
      { qm with
        deadLetterQueue :=
          { qm.deadLetterQueue with tasks := qm.deadLetterQueue.tasks.erase id } }
      task.revive ⟨apart.pending, apart.inFlight⟩
      ⟨fun own => absurd own notOwn, fun same => absurd same away⟩
    exact ⟨appended.pending, appended.inFlight⟩

theorem retry_alike (qm : QueueManager)
    (foreign : ∀ task, qm.deadLetterQueue.tasks.find? id = some task → task.Foreign b ids) :
    Alike b ids (qm.retry id).2 qm := by
  cases found : qm.deadLetterQueue.tasks.find? id with
  | none =>
    rw [retry_of_absent found]
    exact .refl qm
  | some task =>
    simp only [QueueManager.retry, retryBegin, found]
    have appended := @append_alike b ids task.revive
      { qm with
        deadLetterQueue :=
          { qm.deadLetterQueue with tasks := qm.deadLetterQueue.tasks.erase id } }
      (foreign task found).2
    exact ⟨appended.deque, appended.inFlight, appended.maxRetries⟩

/-- Retrying dead letters of other queues is not seen by `b`. -/
theorem Apart.retryEach (apart : Apart b ids qm)
    (foreign : ∀ task ∈ qm.deadLetterQueue.tasks, task.taskId ∈ taskIds → task.Foreign b ids) :
    Alike b ids (DistroSync.retryEach taskIds qm).2 qm ∧
      Apart b ids (DistroSync.retryEach taskIds qm).2 := by
  induction taskIds generalizing qm with
  | nil => exact ⟨.refl qm, apart⟩
  | cons id rest ih =>
    have first : ∀ task, qm.deadLetterQueue.tasks.find? id = some task →
        task.Foreign b ids := fun task found =>
      foreign task (Table.mem_of_find? found) (Table.key_of_find? found ▸ List.mem_cons_self)
    obtain ⟨alike, apart⟩ := ih (apart.retry first) fun task inside listed => by
      refine foreign task ?_ (List.mem_cons_of_mem id listed)
      cases found : qm.deadLetterQueue.tasks.find? id with
      | none =>
        rw [retry_of_absent found] at inside
        exact inside
      | some taken =>
        rw [retry_deadLetterQueue found] at inside
        exact (Table.mem_erase.mp inside).1
    exact ⟨alike.trans (retry_alike qm first), apart⟩

end Retried

/-! ### Tasks taken out of flight -/

section Landed

variable {id : String}

theorem Apart.erase {total : Nat} (apart : Apart b ids qm) :
    Apart b ids { qm with inFlight := qm.inFlight.erase id, totalNacked := total } :=
  ⟨apart.pending, fun task flying => apart.inFlight task (Table.mem_erase.mp flying).1⟩

theorem Alike.erase {total total' : Nat} (alike : Alike b ids qm qm') :
    Alike b ids { qm with inFlight := qm.inFlight.erase id, totalNacked := total }
      { qm' with inFlight := qm'.inFlight.erase id, totalNacked := total' } := by
  refine ⟨alike.deque, fun other own => ?_, alike.maxRetries⟩
  by_cases same : other = id
  · subst same
    simp
  · simpa [Table.find?_erase_of_ne _ same] using alike.inFlight other own

theorem erase_alike {total : Nat} (qm : QueueManager) (other : id ∉ ids) :
    Alike b ids { qm with inFlight := qm.inFlight.erase id, totalNacked := total } qm :=
  ⟨rfl, fun _ inside => Table.find?_erase_of_ne _ fun same => other (same ▸ inside), rfl⟩

theorem Apart.requeueById (apart : Apart b ids qm) (id : String) :
    Apart b ids (qm.requeueById id).2 := by
  unfold QueueManager.requeueById
  cases found : qm.inFlight.find? id with
  | none => exact apart
  | some task => exact apart.erase.appendLeft (apart.inFlight task (Table.mem_of_find? found))

theorem Alike.requeueById (alike : Alike b ids qm qm') (own : id ∈ ids) :
    Alike b ids (qm.requeueById id).2 (qm'.requeueById id).2 := by
  unfold QueueManager.requeueById
  rw [alike.inFlight id own]
  cases qm'.inFlight.find? id with
  | none => exact alike
  | some task =>
    exact Alike.appendLeft (@Alike.erase b ids qm qm' id qm.totalNacked qm'.totalNacked alike) _

/-- A task in flight that is none of `b` goes back to another queue. -/
theorem Apart.requeueById_alike (apart : Apart b ids qm) (other : id ∉ ids) :
    Alike b ids (qm.requeueById id).2 qm := by
  unfold QueueManager.requeueById
  cases found : qm.inFlight.find? id with
  | none => exact .refl qm
  | some task =>
    have isId : task.taskId = id := Table.key_of_find? found
    have away : task.release.queueName.key ≠ b := fun same =>
      other (isId ▸ (apart.inFlight task (Table.mem_of_find? found)).mpr same)
    exact (appendLeft_alike _ away).trans (@erase_alike b ids id qm.totalNacked qm other)

theorem requeueAll_eq_after (taskIds : List String) (qm : QueueManager) :
    (requeueAll taskIds qm).2 = Trace.after QueueManager.requeueById qm taskIds := by
  induction taskIds generalizing qm with
  | nil => rfl
  | cons id rest ih => exact ih _

/-- Requeueing one by one is a run of which only the tasks of `b` are shared. -/
theorem requeueById_unwinds (b : Key) (ids : List String) :
    Trace.Unwinds QueueManager.requeueById
      (fun qm qm' => Alike b ids qm qm' ∧ Apart b ids qm ∧ Apart b ids qm') (fun _ _ => True)
      (fun id => decide (id ∈ ids)) where
  symm := fun ⟨alike, left, right⟩ => ⟨alike.symm, right, left⟩
  quiet := fun ⟨alike, left, right⟩ _ other =>
    ⟨(left.requeueById_alike (of_decide_eq_false other)).trans alike, left.requeueById _, right⟩
  both := fun ⟨alike, left, right⟩ _ _ own =>
    ⟨alike.requeueById (of_decide_eq_true own), left.requeueById _, right.requeueById _⟩

/-- Requeues of two lists that agree on the tasks of `b`, whatever else is in them. -/
theorem Alike.requeueAll {taskIds taskIds' : List String} (alike : Alike b ids qm qm')
    (left : Apart b ids qm) (right : Apart b ids qm')
    (same : taskIds.filter (fun id => decide (id ∈ ids)) =
      taskIds'.filter fun id => decide (id ∈ ids)) :
    Alike b ids (requeueAll taskIds qm).2 (requeueAll taskIds' qm').2 ∧
      Apart b ids (requeueAll taskIds qm).2 ∧ Apart b ids (requeueAll taskIds' qm').2 := by
  rw [requeueAll_eq_after, requeueAll_eq_after]
  exact (requeueById_unwinds b ids).after ⟨alike, left, right⟩ (fun _ _ _ _ => trivial)
    (fun _ _ _ _ => trivial) same

theorem Apart.acknowledge (apart : Apart b ids qm) (id : String) :
    Apart b ids (qm.acknowledge id).2 := by
  unfold QueueManager.acknowledge
  cases qm.inFlight.find? id with
  | none => exact apart
  | some task =>
    exact ⟨apart.pending, fun other flying => apart.inFlight other (Table.mem_erase.mp flying).1⟩

theorem Alike.acknowledge (alike : Alike b ids qm qm') (own : id ∈ ids) :
    Alike b ids (qm.acknowledge id).2 (qm'.acknowledge id).2 := by
  unfold QueueManager.acknowledge
  rw [alike.inFlight id own]
  cases qm'.inFlight.find? id with
  | none => exact alike
  | some task =>
    have erased := @Alike.erase b ids qm qm' id 0 0 alike
    exact ⟨erased.deque, erased.inFlight, erased.maxRetries⟩

theorem acknowledge_alike (qm : QueueManager) (other : id ∉ ids) :
    Alike b ids (qm.acknowledge id).2 qm := by
  unfold QueueManager.acknowledge
  cases qm.inFlight.find? id with
  | none => exact .refl qm
  | some task =>
    have erased := @erase_alike b ids id 0 qm other
    exact ⟨erased.deque, erased.inFlight, erased.maxRetries⟩

theorem Apart.negativeAcknowledge (apart : Apart b ids qm) (now : Rat) (id : String) :
    Apart b ids (qm.negativeAcknowledge now id).2 := by
  cases nacked : qm.negativeAcknowledge now id with
  | mk result after =>
    rcases negativeAcknowledge_cases nacked with ⟨-, -, rfl⟩ | ⟨task, _, _, found, -, spec⟩
    · exact apart
    · have own := apart.inFlight task (Table.mem_of_find? found)
      cases spec with
      | buried exhausted =>
        exact ⟨apart.pending,
          fun other flying => apart.inFlight other (Table.mem_erase.mp flying).1⟩
      | requeued left => exact apart.erase.appendLeft own

/-- What becomes of a task depends on its attempts and the limit. -/
theorem Alike.negativeAcknowledge (alike : Alike b ids qm qm') (own : id ∈ ids) (now : Rat) :
    (qm.negativeAcknowledge now id).1 = (qm'.negativeAcknowledge now id).1 ∧
      Alike b ids (qm.negativeAcknowledge now id).2 (qm'.negativeAcknowledge now id).2 := by
  unfold QueueManager.negativeAcknowledge nackBegin
  rw [alike.inFlight id own]
  cases qm'.inFlight.find? id with
  | none => exact ⟨rfl, alike⟩
  | some task =>
    have erased := @Alike.erase b ids qm qm' id (qm.totalNacked + 1) (qm'.totalNacked + 1) alike
    have limit : qm.maxRetries ≤ task.attempts ↔ qm'.maxRetries ≤ task.attempts := by
      rw [alike.maxRetries]
    by_cases exhausted : qm'.maxRetries ≤ task.attempts
    · simp only [limit.mpr exhausted, exhausted, if_true, nackFinish]
      exact ⟨trivial, erased.deque, erased.inFlight, alike.maxRetries⟩
    · simp only [limit.not.mpr exhausted, exhausted, if_false, nackFinish]
      by_cases dead : task.status = .deadLettered
      · simp only [dead, if_true]
        exact ⟨trivial, erased.deque, erased.inFlight, alike.maxRetries⟩
      · simp only [dead, if_false]
        exact ⟨trivial, erased.appendLeft _⟩

theorem Apart.negativeAcknowledge_alike (apart : Apart b ids qm) (other : id ∉ ids) (now : Rat) :
    Alike b ids (qm.negativeAcknowledge now id).2 qm := by
  cases nacked : qm.negativeAcknowledge now id with
  | mk result after =>
    rcases negativeAcknowledge_cases nacked with ⟨-, -, rfl⟩ | ⟨task, _, _, found, -, spec⟩
    · exact .refl _
    · have isId : task.taskId = id := Table.key_of_find? found
      have away : task.release.queueName.key ≠ b := fun same =>
        other (isId ▸ (apart.inFlight task (Table.mem_of_find? found)).mpr same)
      have erased := @erase_alike b ids task.taskId (qm.totalNacked + 1) qm (isId ▸ other)
      cases spec with
      | buried exhausted => exact ⟨erased.deque, erased.inFlight, erased.maxRetries⟩
      | requeued left => exact (appendLeft_alike _ away).trans erased

end Landed

/-! ### Deliveries -/

section Deliveries

variable {name : Key}

theorem Apart.ensureQueue (apart : Apart b ids qm) (name : Key) :
    Apart b ids (qm.ensureQueue name) :=
  ⟨fun other task inside => apart.pending other task (by simpa using inside),
    fun task flying => apart.inFlight task (by simpa using flying)⟩

theorem ensureQueue_alike (qm : QueueManager) (name : Key) : Alike b ids (qm.ensureQueue name) qm :=
  ⟨by simp, by simp, by simp⟩

/-- A delivery takes a task of its queue's own. -/
theorem Apart.popLeft (apart : Apart b ids qm) (name : Key) (workerId : Json) :
    Apart b ids (qm.popLeft name workerId).2 := by
  unfold QueueManager.popLeft
  cases tasks : qm.deque name with
  | nil => exact apart
  | cons head rest =>
    refine ⟨fun other task inside => ?_, fun task flying => ?_⟩
    · by_cases same : other = name
      · subst same
        have inRest : task ∈ rest := by
          have stored := deque_put_self qm other rest
          exact stored ▸ inside
        exact apart.pending other task (tasks ▸ List.mem_cons_of_mem head inRest)
      · have inOther : task ∈ qm.deque other := by
          have unchanged := deque_put_of_ne qm name rest same
          exact unchanged ▸ inside
        exact apart.pending other task inOther
    · rcases Table.mem_put.mp flying with rfl | ⟨old, -⟩
      · obtain ⟨inQueue, own⟩ := apart.pending name head (tasks ▸ List.mem_cons_self)
        exact inQueue ▸ own
      · exact apart.inFlight task old

/-- Both sides hand out the same head of `b`. -/
theorem Alike.popLeft (alike : Alike b ids qm qm') (workerId : Json) :
    (qm.popLeft b workerId).1 = (qm'.popLeft b workerId).1 ∧
      Alike b ids (qm.popLeft b workerId).2 (qm'.popLeft b workerId).2 := by
  unfold QueueManager.popLeft
  rw [alike.deque]
  cases qm'.deque b with
  | nil => exact ⟨rfl, alike⟩
  | cons head rest =>
    refine ⟨rfl, ?_, fun id own => ?_, alike.maxRetries⟩
    · exact (deque_put_self qm b rest).trans (deque_put_self qm' b rest).symm
    · by_cases same : id = (head.deliver workerId).taskId
      · subst same
        exact (Table.find?_put_self _ _).trans (Table.find?_put_self _ _).symm
      · exact (Table.find?_put_of_ne _ same).trans
          ((alike.inFlight id own).trans (Table.find?_put_of_ne _ same).symm)

/-- A delivery from another queue hands out none of the tasks of `b`. -/
theorem Apart.popLeft_alike (apart : Apart b ids qm) (other : name ≠ b) (workerId : Json) :
    Alike b ids (qm.popLeft name workerId).2 qm ∧
      ∀ task ∈ (qm.popLeft name workerId).1, task.taskId ∉ ids := by
  unfold QueueManager.popLeft
  cases tasks : qm.deque name with
  | nil => exact ⟨.refl qm, nofun⟩
  | cons head rest =>
    have foreign : head.taskId ∉ ids := fun own =>
      other ((apart.pending name head (tasks ▸ List.mem_cons_self)).2.mp own)
    refine ⟨⟨deque_put_of_ne qm name rest other.symm, fun id own => ?_, rfl⟩, ?_⟩
    · exact Table.find?_put_of_ne _ fun same => foreign (same ▸ own)
    · rintro _ ⟨⟩
      exact foreign

end Deliveries

end QueueManager

/-! ## Load shedders -/

namespace LoadShedder

variable {b : Key} {shedder other : LoadShedder}

/-- Two load shedders agree on the bucket of `b`. -/
structure Alike (b : Key) (shedder other : LoadShedder) : Prop where
  tuning : shedder.SameTuning other
  bucket : shedder.bucket? b = other.bucket? b

theorem checkAndConsume_sameTuning (shedder : LoadShedder) (queue : Key) (depth : Nat)
    (avgLatencyMs now : Rat) :
    (shedder.checkAndConsume queue depth avgLatencyMs now).2.SameTuning shedder :=
  shedder.serve_sameTuning ⟨.checkAndConsume queue depth avgLatencyMs, fun _ => now⟩

theorem Alike.refl (shedder : LoadShedder) : Alike b shedder shedder :=
  ⟨⟨rfl, rfl, rfl, rfl, rfl⟩, rfl⟩

theorem Alike.symm (alike : Alike b shedder other) : Alike b other shedder :=
  ⟨alike.tuning.symm, alike.bucket.symm⟩

theorem Alike.trans {third : LoadShedder} (alike : Alike b shedder other)
    (further : Alike b other third) : Alike b shedder third :=
  ⟨alike.tuning.trans further.tuning, alike.bucket.trans further.bucket⟩

/-- The verdict, and what becomes of the bucket, depend on the bucket of the queue only. -/
theorem Alike.checkAndConsume (alike : Alike b shedder other) (depth : Nat)
    (avgLatencyMs now : Rat) :
    (shedder.checkAndConsume b depth avgLatencyMs now).1 =
        (other.checkAndConsume b depth avgLatencyMs now).1 ∧
      Alike b (shedder.checkAndConsume b depth avgLatencyMs now).2
        (other.checkAndConsume b depth avgLatencyMs now).2 := by
  have tuning := (checkAndConsume_sameTuning shedder b depth avgLatencyMs now).trans
    (alike.tuning.trans (checkAndConsume_sameTuning other b depth avgLatencyMs now).symm)
  have bucket : shedder.getOrCreateBucket b now = other.getOrCreateBucket b now := by
    rw [getOrCreateBucket_eq, getOrCreateBucket_eq, alike.bucket, alike.tuning.bucketCapacity,
      alike.tuning.baseFillRate]
  suffices same : (shedder.checkAndConsume b depth avgLatencyMs now).1 =
        (other.checkAndConsume b depth avgLatencyMs now).1 ∧
      (shedder.checkAndConsume b depth avgLatencyMs now).2.bucket? b =
        (other.checkAndConsume b depth avgLatencyMs now).2.bucket? b from
    ⟨same.1, tuning, same.2⟩
  unfold LoadShedder.checkAndConsume
  simp only [bucket, alike.tuning.computeAdjustedRate]
  cases ((other.getOrCreateBucket b now).refill (other.computeAdjustedRate depth avgLatencyMs)
      now).consume with
  | mk allowed charged =>
    have stored :=
      (bucket?_put_self shedder b charged).trans (bucket?_put_self other b charged).symm
    cases allowed <;> exact ⟨rfl, stored⟩

/-- Every queue has a bucket of its own. -/
theorem checkAndConsume_alike (shedder : LoadShedder) {queue : Key} (away : queue ≠ b)
    (depth : Nat) (avgLatencyMs now : Rat) :
    Alike b (shedder.checkAndConsume queue depth avgLatencyMs now).2 shedder := by
  refine ⟨checkAndConsume_sameTuning shedder queue depth avgLatencyMs now, ?_⟩
  unfold LoadShedder.checkAndConsume
  simp only
  cases ((shedder.getOrCreateBucket queue now).refill
      (shedder.computeAdjustedRate depth avgLatencyMs) now).consume with
  | mk allowed charged =>
    have kept := bucket?_put_of_ne shedder charged away.symm
    cases allowed <;> exact kept

/-- A refill of all buckets reads the depth and latency of each queue. -/
theorem Alike.refillAll {depth depth' : Key → Nat} {avgLatencyMs avgLatencyMs' clock : Key → Rat}
    (alike : Alike b shedder other) (deep : depth b = depth' b)
    (slow : avgLatencyMs b = avgLatencyMs' b) :
    Alike b (shedder.refillAll depth avgLatencyMs clock)
      (other.refillAll depth' avgLatencyMs' clock) := by
  refine ⟨⟨alike.tuning.baseFillRate, alike.tuning.minFillRate, alike.tuning.queueDepthThreshold,
    alike.tuning.latencyThresholdMs, alike.tuning.bucketCapacity⟩, ?_⟩
  rw [bucket?_refillAll, bucket?_refillAll, alike.bucket, deep, slow,
    alike.tuning.computeAdjustedRate]

end LoadShedder

/-! ## Worker registries -/

/-- An iteration order of sets in which the members with these ids follow each other as they
would if the set had no others. -/
def SetOrder.Consistent (order : SetOrder) (ids : List String) : Prop :=
  ∀ members : List String, (order.iter members).filter (fun id => decide (id ∈ ids)) =
    order.iter (members.filter fun id => decide (id ∈ ids))

/-- `complete_task` of the worker for the task adds a latency to the window of `b`. -/
def WorkerRegistry.charges (registry : WorkerRegistry) (b worker : Key) (taskId : String) : Bool :=
  match registry.workers.find? worker with
  | none => false
  | some info =>
    (info.taskStartTimes.find? taskId).isSome &&
      (match info.queues.items? with
        | none => false
        | some names =>
          (names.takeWhile fun name => name.key?.isSome).any fun name => name.key? = some b)

namespace WorkerInfo

variable {ids : List String} {worker worker' : WorkerInfo} {id : String}

/-- Two entries for a worker agree, up to the tasks of other queues. -/
structure Alike (ids : List String) (worker worker' : WorkerInfo) : Prop where
  workerId : worker.workerId = worker'.workerId
  queues : worker.queues = worker'.queues
  lastHeartbeat : worker.lastHeartbeat = worker'.lastHeartbeat
  status : worker.status = worker'.status
  startTimes : ∀ id ∈ ids, worker.taskStartTimes.find? id = worker'.taskStartTimes.find? id
  tracked : worker.inFlightTasks.filter (fun id => decide (id ∈ ids)) =
    worker'.inFlightTasks.filter fun id => decide (id ∈ ids)

theorem Alike.refl (worker : WorkerInfo) : Alike ids worker worker :=
  ⟨rfl, rfl, rfl, rfl, fun _ _ => rfl, rfl⟩

theorem Alike.symm (alike : Alike ids worker worker') : Alike ids worker' worker :=
  ⟨alike.workerId.symm, alike.queues.symm, alike.lastHeartbeat.symm, alike.status.symm,
    fun id own => (alike.startTimes id own).symm, alike.tracked.symm⟩

theorem Alike.trans {worker'' : WorkerInfo} (alike : Alike ids worker worker')
    (further : Alike ids worker' worker'') : Alike ids worker worker'' :=
  ⟨alike.workerId.trans further.workerId, alike.queues.trans further.queues,
    alike.lastHeartbeat.trans further.lastHeartbeat, alike.status.trans further.status,
    fun id own => (alike.startTimes id own).trans (further.startTimes id own),
    alike.tracked.trans further.tracked⟩

theorem Alike.key (alike : Alike ids worker worker') : worker.key = worker'.key :=
  congrArg Scalar.key alike.workerId

/-- The tracked tasks of `b` after an insertion. -/
theorem filter_insert (p : String → Bool) (id : String) (tasks : List String) :
    (tasks.insert id).filter p =
      if p id = true then (tasks.filter p).insert id else tasks.filter p := by
  by_cases inside : id ∈ tasks
  · rw [List.insert_of_mem inside]
    split_ifs with kept
    · rw [List.insert_of_mem (List.mem_filter.mpr ⟨inside, kept⟩)]
    · rfl
  · rw [List.insert_of_not_mem inside]
    split_ifs with kept
    · rw [List.filter_cons_of_pos kept,
        List.insert_of_not_mem fun found => inside (List.mem_filter.mp found).1]
    · rw [List.filter_cons_of_neg kept]

theorem Alike.track (alike : Alike ids worker worker') (id : String) (now : Rat) :
    Alike ids (worker.track id now) (worker'.track id now) := by
  refine ⟨alike.workerId, alike.queues, alike.lastHeartbeat, alike.status, fun other own => ?_, ?_⟩
  · by_cases same : other = id
    · subst same
      exact (Table.find?_put_self worker.taskStartTimes (other, now)).trans
        (Table.find?_put_self worker'.taskStartTimes (other, now)).symm
    · exact (Table.find?_put_of_ne _ same).trans
        ((alike.startTimes other own).trans (Table.find?_put_of_ne _ same).symm)
  · simp only [WorkerInfo.track, filter_insert, alike.tracked]

theorem track_alike (worker : WorkerInfo) (other : id ∉ ids) (now : Rat) :
    Alike ids (worker.track id now) worker := by
  refine ⟨rfl, rfl, rfl, rfl, fun own inside => ?_, ?_⟩
  · exact Table.find?_put_of_ne _ fun same : own = id => other (same ▸ inside)
  · simp only [track, filter_insert, other, decide_false, Bool.false_eq_true, if_false]

theorem filter_untrack (worker : WorkerInfo) (p : String → Bool) (id : String) :
    (worker.untrack id).inFlightTasks.filter p =
      (worker.inFlightTasks.filter p).filter fun other => other ≠ id := by
  simp only [untrack, List.filter_filter]
  exact List.filter_congr fun other _ => Bool.and_comm _ _

theorem Alike.untrack (alike : Alike ids worker worker') (id : String) :
    Alike ids (worker.untrack id) (worker'.untrack id) := by
  refine ⟨alike.workerId, alike.queues, alike.lastHeartbeat, alike.status, fun other own => ?_, ?_⟩
  · by_cases same : other = id
    · subst same
      exact (Table.find?_erase_self _ _).trans (Table.find?_erase_self _ _).symm
    · exact (Table.find?_erase_of_ne _ same).trans
        ((alike.startTimes other own).trans (Table.find?_erase_of_ne _ same).symm)
  · rw [filter_untrack, filter_untrack, alike.tracked]

theorem untrack_alike (worker : WorkerInfo) (other : id ∉ ids) :
    Alike ids (worker.untrack id) worker := by
  refine ⟨rfl, rfl, rfl, rfl, fun own inside => ?_, ?_⟩
  · exact Table.find?_erase_of_ne _ fun same => other (same ▸ inside)
  · rw [filter_untrack, List.filter_eq_self]
    intro own inside
    have isOwn : own ∈ ids := of_decide_eq_true (List.mem_filter.mp inside).2
    exact decide_eq_true fun same => other (same ▸ isOwn)

theorem Alike.beat (alike : Alike ids worker worker') (now : Rat) :
    Alike ids (worker.beat now) (worker'.beat now) :=
  ⟨alike.workerId, alike.queues, rfl, rfl, alike.startTimes, alike.tracked⟩

end WorkerInfo

namespace WorkerRegistry

variable {b worker : Key} {ids : List String} {registry other : WorkerRegistry} {id : String}
  {now : Rat}

/-- Two registries agree on the latencies of `b` and on the workers, up to the tasks of other
queues. -/
structure Alike (b : Key) (ids : List String) (registry other : WorkerRegistry) : Prop where
  workers : Table.Related (WorkerInfo.Alike ids) registry.workers other.workers
  latencies : registry.queueLatencies.find? b = other.queueLatencies.find? b

theorem Alike.refl (registry : WorkerRegistry) : Alike b ids registry registry :=
  ⟨Table.Related.refl WorkerInfo.Alike.refl _, rfl⟩

theorem Alike.symm (alike : Alike b ids registry other) : Alike b ids other registry :=
  ⟨alike.workers.symm fun _ _ same => same.symm, alike.latencies.symm⟩

theorem Alike.trans {third : WorkerRegistry} (alike : Alike b ids registry other)
    (further : Alike b ids other third) : Alike b ids registry third :=
  ⟨alike.workers.trans (fun _ _ _ same further => same.trans further) further.workers,
    alike.latencies.trans further.latencies⟩

theorem Alike.averageLatencyMs (alike : Alike b ids registry other) :
    registry.averageLatencyMs b = other.averageLatencyMs b := by
  unfold WorkerRegistry.averageLatencyMs
  rw [alike.latencies]

/-- Both registries know a worker, or neither does. -/
theorem Alike.find? (alike : Alike b ids registry other) (worker : Key) :
    Option.Rel (WorkerInfo.Alike ids) (registry.workers.find? worker)
      (other.workers.find? worker) :=
  Table.Related.find? (fun _ _ same => same.key) alike.workers worker

theorem Alike.put {info info' : WorkerInfo} (alike : Alike b ids registry other)
    (same : info.Alike ids info') :
    Alike b ids { registry with workers := registry.workers.put info }
      { other with workers := other.workers.put info' } :=
  ⟨alike.workers.put (fun _ _ same => same.key) same, alike.latencies⟩

/-- Overwriting the entry of a worker by one that agrees with it. -/
theorem put_alike {info info' : WorkerInfo} (found : registry.workers.find? worker = some info)
    (same : info'.Alike ids info) :
    Alike b ids { registry with workers := registry.workers.put info' } registry := by
  refine ⟨?_, rfl⟩
  have isWorker : info.key = worker := Table.key_of_find? found
  have stored : registry.workers.find? info'.key = some info := by rw [same.key, isWorker, found]
  exact (Table.Related.overwrite WorkerInfo.Alike.refl stored same.symm).symm
    fun _ _ same => same.symm

theorem Alike.register (alike : Alike b ids registry other) (workerId : Scalar) (queues : Json)
    (now : Rat) :
    Alike b ids (registry.register workerId queues now).2
      (other.register workerId queues now).2 :=
  alike.put (.refl _)

theorem Alike.recordHeartbeat (alike : Alike b ids registry other) (worker : Key) (now : Rat) :
    Alike b ids (registry.recordHeartbeat worker now).2 (other.recordHeartbeat worker now).2 := by
  unfold WorkerRegistry.recordHeartbeat
  have found := alike.find? worker
  generalize registry.workers.find? worker = left, other.workers.find? worker = right at found
  cases found with
  | none => exact alike
  | some same => exact alike.put (same.beat now)

/-- A task of either kind is tracked by the same worker. -/
theorem Alike.assignTask (alike : Alike b ids registry other) (worker : Key) (id : String)
    (now : Rat) :
    Alike b ids (registry.assignTask worker id now) (other.assignTask worker id now) := by
  unfold WorkerRegistry.assignTask
  have found := alike.find? worker
  generalize registry.workers.find? worker = left, other.workers.find? worker = right at found
  cases found with
  | none => exact alike
  | some same => exact alike.put (same.track id now)

theorem assignTask_alike (registry : WorkerRegistry) (worker : Key) (foreign : id ∉ ids)
    (now : Rat) : Alike b ids (registry.assignTask worker id now) registry := by
  unfold WorkerRegistry.assignTask
  cases found : registry.workers.find? worker with
  | none => exact .refl registry
  | some info => exact put_alike found (info.track_alike foreign now)

theorem Alike.recordLatency (alike : Alike b ids registry other) (queue : Key) (latencyMs : Rat) :
    Alike b ids (registry.recordLatency queue latencyMs) (other.recordLatency queue latencyMs) := by
  refine ⟨alike.workers, ?_⟩
  unfold WorkerRegistry.recordLatency
  by_cases same : b = queue
  · subst same
    simp only [alike.latencies]
    exact (Table.find?_put_self _ _).trans (Table.find?_put_self _ _).symm
  · exact (Table.find?_put_of_ne _ same).trans
      (alike.latencies.trans (Table.find?_put_of_ne _ same).symm)

theorem Alike.recordLatencies (latencyMs : Rat) (names : List Json)
    (alike : Alike b ids registry other) :
    Alike b ids (recordLatencies latencyMs names registry).2
      (recordLatencies latencyMs names other).2 := by
  induction names generalizing registry other with
  | nil => exact alike
  | cons name rest ih =>
    unfold WorkerRegistry.recordLatencies
    cases name.key? with
    | none => exact alike
    | some queue => exact ih (alike.recordLatency queue latencyMs)

/-- The loop stops at the first unhashable name. -/
theorem recordLatencies_alike (latencyMs : Rat) {names : List Json}
    (away : (names.takeWhile fun name => name.key?.isSome).any
      (fun name => name.key? = some b) = false) (registry : WorkerRegistry) :
    Alike b ids (recordLatencies latencyMs names registry).2 registry := by
  induction names generalizing registry with
  | nil => exact .refl registry
  | cons name rest ih =>
    unfold recordLatencies
    cases isKey : name.key? with
    | none => exact .refl registry
    | some queue =>
      simp only [List.takeWhile_cons, isKey, Option.isSome_some, if_true, List.any_cons,
        Option.some.injEq, Bool.or_eq_false_iff, decide_eq_false_iff_not] at away
      have kept : Alike b ids (registry.recordLatency queue latencyMs) registry :=
        ⟨Table.Related.refl WorkerInfo.Alike.refl _,
          Table.find?_put_of_ne _ (Ne.symm away.1)⟩
      exact (ih away.2 _).trans kept

/-- The latency of an own task goes to the same windows on both sides. -/
theorem Alike.completeTask (alike : Alike b ids registry other) (worker : Key) (own : id ∈ ids)
    (now : Rat) :
    Alike b ids (registry.completeTask worker id now).2 (other.completeTask worker id now).2 := by
  unfold WorkerRegistry.completeTask
  have found := alike.find? worker
  generalize registry.workers.find? worker = left, other.workers.find? worker = right at found
  cases found with
  | none => exact alike
  | @some info info' same =>
    have put := alike.put (same.untrack id)
    simp only [same.startTimes id own, same.queues]
    cases info'.taskStartTimes.find? id with
    | none => exact put
    | some entry =>
      cases info'.queues.items? with
      | none => exact put
      | some names => exact put.recordLatencies _ names

/-- The completion of a task of another queue, by a worker that does not declare `b`. -/
theorem completeTask_alike (registry : WorkerRegistry) (foreign : id ∉ ids)
    (away : registry.charges b worker id = false) :
    Alike b ids (registry.completeTask worker id now).2 registry := by
  unfold charges at away
  unfold completeTask
  cases found : registry.workers.find? worker with
  | none => exact .refl registry
  | some info =>
    have put := @put_alike b worker ids registry _ _ found (info.untrack_alike foreign)
    simp only [found] at away
    simp only
    cases started : info.taskStartTimes.find? id with
    | none => exact put
    | some entry =>
      cases declared : info.queues.items? with
      | none => exact put
      | some names =>
        simp only [started, declared, Option.isSome_some, Bool.true_and] at away
        exact (recordLatencies_alike _ away _).trans put

theorem expired_eq (now : Rat) {info info' : WorkerInfo} (same : info.Alike ids info') :
    expired now info = expired now info' := by
  unfold expired
  rw [same.lastHeartbeat]

theorem Alike.dropDead (alike : Alike b ids registry other) (now : Rat) :
    Alike b ids (registry.dropDead now) (other.dropDead now) :=
  ⟨alike.workers.filter fun _ _ same => by rw [expired_eq now same], alike.latencies⟩

/-- Heartbeats agree, so the same workers are dead. -/
theorem Alike.deadWorkers (alike : Alike b ids registry other) (now : Rat) :
    List.Forall₂ (WorkerInfo.Alike ids) (registry.deadWorkers now) (other.deadWorkers now) :=
  List.rel_filter (fun _ _ same => by simp [expired_eq now same]) alike.workers

theorem Alike.getActiveWorkers (alike : Alike b ids registry other) (pick : Nat) :
    Option.Rel (WorkerInfo.Alike ids) registry.getActiveWorkers[pick]?
      other.getActiveWorkers[pick]? := by
  have active : List.Forall₂ (WorkerInfo.Alike ids) registry.getActiveWorkers
      other.getActiveWorkers :=
    List.rel_filter (fun _ _ same => by simp [same.status]) alike.workers
  generalize registry.getActiveWorkers = left, other.getActiveWorkers = right at active
  induction active generalizing pick with
  | nil => exact .none
  | cons same _ ih =>
    cases pick with
    | zero => exact .some same
    | succ pick => exact ih pick

end WorkerRegistry

/-- An eviction pass, worker by worker. -/
theorem evictEach_alike {order : SetOrder} {b : Key} {ids : List String}
    (consistent : order.Consistent ids) {dead dead' : List WorkerInfo}
    (alike : List.Forall₂ (WorkerInfo.Alike ids) dead dead')
    {registry registry' : WorkerRegistry} {qm qm' : QueueManager}
    (registries : registry.Alike b ids registry') (tasks : qm.Alike b ids qm')
    (left : qm.Apart b ids) (right : qm'.Apart b ids) :
    (evictEach order dead (registry, qm)).2.1.Alike b ids
        (evictEach order dead' (registry', qm')).2.1 ∧
      (evictEach order dead (registry, qm)).2.2.Alike b ids
        (evictEach order dead' (registry', qm')).2.2 ∧
      (evictEach order dead (registry, qm)).2.2.Apart b ids ∧
      (evictEach order dead' (registry', qm')).2.2.Apart b ids := by
  induction alike generalizing registry registry' qm qm' with
  | nil => exact ⟨registries, tasks, left, right⟩
  | @cons worker worker' rest rest' same _ ih =>
    unfold evictEach
    rw [same.workerId]
    split_ifs
    · have ordered : (order.iter worker.inFlightTasks).filter (fun id => decide (id ∈ ids)) =
          (order.iter worker'.inFlightTasks).filter fun id => decide (id ∈ ids) := by
        rw [consistent, consistent, same.tracked]
      obtain ⟨alike, left, right⟩ := tasks.requeueAll left right ordered
      exact ih ⟨registries.workers, registries.latencies⟩ alike left right
    · exact ⟨registries, tasks, left, right⟩

end DistroSync
