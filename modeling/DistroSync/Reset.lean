import DistroSync.Lib.Coupling
import DistroSync.Memory
import DistroSync.RateLimit
import DistroSync.Scenario

/-!
# Starting over without a restart

POST /admin/reset clears the queue manager, the tables of the database and the metrics
in place.  It is meant to leave what a new broker would start with.  The queue manager
keeps the totals of its dead letter queue, the collector keeps the deliveries it tracks,
and the worker registry and the load shedder are not told at all.

What is left in the first two places, and with the workers, shows at once
(`scratch_reset_iff`).  What is left in the load shedder and in the latencies that it is
told shows only later, when a PRODUCE is rejected that a new broker would allow, or the
other way round.  Nothing of it is left if no latency was recorded and every bucket is full
again (`Broker.Rested`); then a bucket that is there and one that is not are the same to
every request to come, as long as the clock does not run backwards.

The proof compares two processes (`Machine.Similar`): every program of the broker, run on
both, ends alike.  The second part compares a broker after a reset with a new one on which
the same workers are registered.
-/

namespace DistroSync

open Keyed Py Exec

/-! ## Buckets that are full again -/

namespace LoadShedder

variable {shedder other : LoadShedder} {bucket : TokenBucket} {clock later : Rat} {queue : Key}

/-- The bucket was made by the load shedder. -/
structure Makes (shedder : LoadShedder) (bucket : TokenBucket) : Prop where
  capacity : bucket.capacity = shedder.bucketCapacity
  nominalFillRate : bucket.nominalFillRate = shedder.baseFillRate

/-- From `clock` on, every refill finds the bucket full: even the lowest rate has brought in
what was missing. -/
structure Rested (shedder : LoadShedder) (clock : Rat) (bucket : TokenBucket) : Prop where
  makes : shedder.Makes bucket
  past : bucket.lastRefill ≤ clock
  full : bucket.capacity ≤ bucket.tokens + (clock - bucket.lastRefill) * shedder.minFillRate

/-- A bucket that is full stays full while time passes. -/
theorem Rested.mono (rested : shedder.Rested clock bucket) (rate : 0 ≤ shedder.minFillRate)
    (forward : clock ≤ later) : shedder.Rested later bucket where
  makes := rested.makes
  past := rested.past.trans forward
  full := by
    have more : (clock - bucket.lastRefill) * shedder.minFillRate ≤
        (later - bucket.lastRefill) * shedder.minFillRate :=
      mul_le_mul_of_nonneg_right (by linarith) rate
    linarith [rested.full]

/-- A bucket that was made at this moment. -/
theorem refill_new (capacity nominalFillRate now rate : Rat) :
    (TokenBucket.new capacity nominalFillRate now).refill rate now =
      TokenBucket.new capacity nominalFillRate now := by
  simp [TokenBucket.refill, TokenBucket.new]

/-- **The refill of a rested bucket** makes a new one of it. -/
theorem Rested.refill {rate : Rat} (rested : shedder.Rested clock bucket)
    (atLeast : shedder.minFillRate ≤ rate) :
    bucket.refill rate clock =
      TokenBucket.new shedder.bucketCapacity shedder.baseFillRate clock := by
  have more : (clock - bucket.lastRefill) * shedder.minFillRate ≤
      (clock - bucket.lastRefill) * rate :=
    mul_le_mul_of_nonneg_left atLeast (sub_nonneg.mpr rested.past)
  have full : min bucket.capacity (bucket.tokens + (clock - bucket.lastRefill) * rate) =
      bucket.capacity := min_eq_left (by linarith [rested.full])
  obtain ⟨capacity, nominal, tokens, last⟩ := bucket
  simp only [TokenBucket.refill, TokenBucket.new, TokenBucket.mk.injEq, and_true] at full ⊢
  exact ⟨rested.makes.capacity, rested.makes.nominalFillRate, full.trans rested.makes.capacity⟩

/-- A new bucket is full. -/
theorem rested_new (shedder : LoadShedder) (clock : Rat) :
    shedder.Rested clock (TokenBucket.new shedder.bucketCapacity shedder.baseFillRate clock) where
  makes := ⟨rfl, rfl⟩
  past := le_rfl
  full := by simp [TokenBucket.new]

/-- To requests from `clock` on, the two load shedders are the same: a bucket that only the
first one has is rested. -/
structure Kin (clock : Rat) (shedder other : LoadShedder) : Prop where
  tuning : shedder.SameTuning other
  rate : 0 ≤ shedder.minFillRate
  buckets : ∀ queue, shedder.bucket? queue = other.bucket? queue ∨
    other.bucket? queue = none ∧ ∃ bucket, shedder.bucket? queue = some bucket ∧
      shedder.Rested clock bucket

/-- Time brings two load shedders no further apart. -/
theorem Kin.mono (kin : Kin clock shedder other) (forward : clock ≤ later) :
    Kin later shedder other where
  tuning := kin.tuning
  rate := kin.rate
  buckets queue := (kin.buckets queue).imp_right fun ⟨absent, bucket, present, rested⟩ =>
    ⟨absent, bucket, present, rested.mono kin.rate forward⟩

/-- A request finds the same bucket in both. -/
theorem Kin.refilled (kin : Kin clock shedder other) {rate : Rat}
    (atLeast : shedder.minFillRate ≤ rate) (queue : Key) :
    (shedder.getOrCreateBucket queue clock).refill rate clock =
      (other.getOrCreateBucket queue clock).refill rate clock := by
  rw [getOrCreateBucket_eq, getOrCreateBucket_eq]
  rcases kin.buckets queue with same | ⟨absent, bucket, present, rested⟩
  · rw [same, kin.tuning.bucketCapacity, kin.tuning.baseFillRate]
  · rw [absent, present, Option.getD_some, Option.getD_none, rested.refill atLeast,
      refill_new, kin.tuning.bucketCapacity, kin.tuning.baseFillRate]

theorem Rested.sameTuning {shedder' : LoadShedder} (rested : shedder.Rested clock bucket)
    (same : shedder'.SameTuning shedder) : shedder'.Rested clock bucket where
  makes := ⟨rested.makes.capacity.trans same.bucketCapacity.symm,
    rested.makes.nominalFillRate.trans same.baseFillRate.symm⟩
  past := rested.past
  full := same.minFillRate ▸ rested.full

/-- **A request is treated alike**, and leaves the two alike. -/
theorem Kin.checkAndConsume (kin : Kin clock shedder other) (name : Key) (depth : Nat)
    (avgLatencyMs : Rat) :
    (shedder.checkAndConsume name depth avgLatencyMs clock).1 =
        (other.checkAndConsume name depth avgLatencyMs clock).1 ∧
      Kin clock (shedder.checkAndConsume name depth avgLatencyMs clock).2
        (other.checkAndConsume name depth avgLatencyMs clock).2 := by
  have tuned (shedder : LoadShedder) :
      (shedder.checkAndConsume name depth avgLatencyMs clock).2.SameTuning shedder :=
    shedder.serve_sameTuning ⟨.checkAndConsume name depth avgLatencyMs, fun _ => clock⟩
  have rates := kin.tuning.computeAdjustedRate depth avgLatencyMs
  have low := @minFillRate_le_computeAdjustedRate shedder depth avgLatencyMs
  have refilled := kin.refilled low name
  -- the verdict, and the bucket of the queue
  have own : (shedder.checkAndConsume name depth avgLatencyMs clock).1 =
        (other.checkAndConsume name depth avgLatencyMs clock).1 ∧
      (shedder.checkAndConsume name depth avgLatencyMs clock).2.bucket? name =
        (other.checkAndConsume name depth avgLatencyMs clock).2.bucket? name := by
    rcases shedder.checkAndConsume_cases name depth avgLatencyMs clock refilled with
      ⟨funded, verdict, bucket⟩ | ⟨poor, verdict, bucket⟩ <;>
    rcases other.checkAndConsume_cases name depth avgLatencyMs clock
        (congrArg (fun rate => (other.getOrCreateBucket name clock).refill rate clock)
          rates.symm) with
      ⟨funded', verdict', bucket'⟩ | ⟨poor', verdict', bucket'⟩
    · exact ⟨verdict.trans verdict'.symm, bucket.trans bucket'.symm⟩
    · exact absurd funded poor'
    · exact absurd funded' poor
    · rw [verdict, verdict', bucket, bucket', rates]
      exact ⟨rfl, rfl⟩
  refine ⟨own.1, (tuned shedder).trans (kin.tuning.trans (tuned other).symm), ?_, fun queue => ?_⟩
  · rw [(tuned shedder).minFillRate]
    exact kin.rate
  · by_cases same : queue = name
    · subst same
      exact Or.inl own.2
    · rw [checkAndConsume_elsewhere shedder depth avgLatencyMs clock same,
        checkAndConsume_elsewhere other depth avgLatencyMs clock same]
      refine (kin.buckets queue).imp_right fun ⟨absent, bucket, present, rested⟩ => ?_
      exact ⟨absent, bucket, present, rested.sameTuning (tuned shedder)⟩

/-- The refill of all buckets, in STATS and METRICS. -/
theorem Kin.refillAll (kin : Kin clock shedder other) (depth : Key → Nat)
    (avgLatencyMs : Key → Rat) :
    Kin clock (shedder.refillAll depth avgLatencyMs fun _ => clock)
      (other.refillAll depth avgLatencyMs fun _ => clock) where
  tuning := ⟨kin.tuning.baseFillRate, kin.tuning.minFillRate, kin.tuning.queueDepthThreshold,
    kin.tuning.latencyThresholdMs, kin.tuning.bucketCapacity⟩
  rate := kin.rate
  buckets queue := by
    rw [bucket?_refillAll, bucket?_refillAll]
    rcases kin.buckets queue with same | ⟨absent, bucket, present, rested⟩
    · rw [same, kin.tuning.computeAdjustedRate]
      exact Or.inl rfl
    · rw [absent, present]
      refine Or.inr ⟨rfl, _, rfl, ?_⟩
      have full := rested.refill (minFillRate_le_computeAdjustedRate
        (depth queue) (avgLatencyMs queue))
      show Rested _ clock (bucket.refill _ clock)
      rw [full]
      exact rested_new (shedder.refillAll depth avgLatencyMs fun _ => clock) clock

end LoadShedder

/-! ## Two machines that differ in what the books do not show -/

/-- The same workers, and the same latencies. -/
structure WorkerRegistry.Akin (registry registry' : WorkerRegistry) : Prop where
  workers : registry.workers = registry'.workers
  queueLatencies : registry.queueLatencies = registry'.queueLatencies

/-- The same tasks, figures, workers, latencies and tables, and load shedders that are the same
to requests from `clock` on.  The totals of the load shedder and the eviction counts may
differ. -/
structure Machine.Similar (clock : Rat) (m m' : Machine) : Prop where
  queueManager : m.broker.queueManager = m'.broker.queueManager
  workerRegistry : m.broker.workerRegistry.Akin m'.broker.workerRegistry
  loadShedder : m.broker.loadShedder.Kin clock m'.broker.loadShedder
  metrics : m.broker.metrics = m'.broker.metrics
  walStore : m.broker.walStore = m'.broker.walStore
  disk : m.disk = m'.disk
  crashIn : m.crashIn = m'.crashIn

/-- The program is coupled with itself on similar machines. -/
abbrev Steers {α : Type} (clock : Rat) (program : BrokerM α) : Prop :=
  Coupled (Machine.Similar clock) Eq program program

/-- The same, for programs whose results may differ. -/
abbrev Follows {α : Type} (clock : Rat) (program : BrokerM α) : Prop :=
  Coupled (Machine.Similar clock) (fun _ _ => True) program program

section Primitives

variable {α : Type} {clock : Rat}

theorem steers_raise (error : Error) : Steers clock (raise error : BrokerM α) := Coupled.throw _

theorem steers_pure (a : α) : Steers clock (pure a : BrokerM α) := Coupled.pure rfl

theorem steers_hashable (value : Json) : Steers clock (hashable value) := by
  unfold hashable
  cases value.scalar? with
  | none => exact steers_raise _
  | some scalar => exact steers_pure _

/-- The queue managers are the same, so any operation may run. -/
theorem steers_onQueueManager (operation : QueueManager → α × QueueManager) :
    Steers clock (onQueueManager operation) := by
  refine Coupled.modifyGet fun m m' same => ?_
  rw [same.queueManager]
  exact ⟨rfl, { same with queueManager := rfl }⟩

/-- The operation must not look at what differs in the registries. -/
theorem steers_onRegistry {operation : WorkerRegistry → α × WorkerRegistry}
    (respects : ∀ registry registry' : WorkerRegistry, registry.Akin registry' →
      (operation registry).1 = (operation registry').1 ∧
        (operation registry).2.Akin (operation registry').2) :
    Steers clock (onRegistry operation) := by
  refine Coupled.modifyGet fun m m' same => ?_
  obtain ⟨value, akin⟩ := respects _ _ same.workerRegistry
  exact ⟨value, { same with workerRegistry := akin }⟩

theorem steers_onMetrics (operation : MetricsCollector → MetricsCollector) :
    Steers clock (onMetrics operation) := by
  refine Coupled.modify fun m m' same => ?_
  rw [same.metrics]
  exact { same with metrics := rfl }

theorem steers_setInTransaction (inTransaction : Bool) :
    Steers clock (setInTransaction inTransaction) :=
  Coupled.modify fun _ _ same => { same with walStore := rfl }

/-- Both machines die at the same commit. -/
theorem steers_crashPoint : Steers clock crashPoint := by
  refine Coupled.get.bind fun m m' same => ?_
  rw [same.crashIn]
  cases m'.crashIn with
  | none => exact steers_pure _
  | some left =>
    cases left with
    | zero => exact Coupled.throw _
    | succ n =>
      exact fun _ _ _ => ⟨rfl, { same with crashIn := rfl }⟩

theorem steers_walCommit (statements : Database → Database) :
    Steers clock (walCommit statements) := by
  refine steers_crashPoint.bind_eq fun _ => Coupled.bind_eq ?_ fun _ => steers_setInTransaction _
  refine Coupled.modify fun m m' same => ?_
  rw [same.disk]
  exact { same with disk := rfl }

theorem steers_walWrite (bound : Except Error (Database → Database)) :
    Steers clock (walWrite bound) := by
  cases bound with
  | ok statements => exact steers_walCommit statements
  | error e => exact (steers_setInTransaction _).bind_eq fun _ => steers_raise _

theorem steers_whenPersistent {body : BrokerM Unit} (steers : Steers clock body) :
    Steers clock (whenPersistent body) := by
  refine Coupled.get.bind fun m m' same => ?_
  rw [same.walStore]
  exact steers.ite (steers_pure _)

theorem steers_saveTask (platform : Platform) (env : Env) (task : Task) :
    Steers clock (saveTask platform env task) := by
  unfold saveTask
  cases platform.dumps platform.storeDepth task.payload with
  | error e => exact steers_raise _
  | ok text => exact steers_walWrite _

theorem steers_saveNewest (platform : Platform) (env : Env) (queue : Key) (taskId : String) :
    Steers clock (saveNewest platform env queue taskId) := by
  refine Coupled.get.bind fun m m' same => ?_
  rw [same.queueManager]
  split
  · exact steers_pure _
  · exact steers_saveTask _ _ _

theorem steers_addToDlq (platform : Platform) (env : Env) (task : Task) (error : String) :
    Steers clock (addToDlq platform env task error) := by
  refine Coupled.get.bind fun m m' same => ?_
  rw [same.walStore]
  refine (steers_raise _).ite ?_
  cases platform.dlqRow task error env.time with
  | error e => exact steers_raise _
  | ok row => exact steers_walCommit _

/-- What a lookup does with an id that it does not find. -/
theorem steers_unknown (taskId : Json) :
    Steers clock (if taskId.sliceable then pure none else raise .typeError : BrokerM (Option α)) :=
  (steers_pure _).ite (steers_raise _)

/-- The lookup reads the tasks in flight, which are the same. -/
theorem steers_inFlightKey (platform : Platform) (taskId : Json) :
    Steers clock (inFlightKey platform taskId) := by
  have unknown : Steers clock (if !taskId.sliceable then raise .typeError
      else if platform.strDepth < taskId.depth then raise .recursionError
      else pure none : BrokerM (Option String)) :=
    (steers_raise _).ite ((steers_raise _).ite (steers_pure _))
  refine Coupled.get.bind fun m m' same => ?_
  simp only [same.queueManager]
  refine unknown.ite ((steers_hashable taskId).bind_eq fun scalar => ?_)
  cases scalar with
  | str id => exact (steers_pure _).ite unknown
  | _ => exact unknown

theorem steers_deadLetterKey (taskId : Json) : Steers clock (deadLetterKey taskId) := by
  refine Coupled.get.bind fun m m' same => ?_
  simp only [same.queueManager]
  refine (steers_hashable taskId).bind_eq fun scalar => ?_
  cases scalar with
  | str id => exact (steers_pure _).ite (steers_unknown taskId)
  | _ => exact steers_unknown taskId

theorem steers_replayDlqTask (platform : Platform) (taskId : Json) :
    Steers clock (replayDlqTask platform taskId) := by
  unfold replayDlqTask
  cases platform.textOf taskId with
  | error e => exact steers_raise _
  | ok text =>
    refine Coupled.get.bind fun m m' same => ?_
    simp only [same.disk]
    cases text.bind m'.disk.deadLetterQueue.find? with
    | none => exact steers_unknown taskId
    | some row =>
      exact (steers_walCommit _).bind_eq fun _ => (steers_pure _).ite (steers_raise _)

end Primitives

/-! ## The handlers -/

section Handlers

variable {platform : Platform} {env : Env} {message : Message} {clock : Rat}

/-- The latencies that `complete_task` records depend on those that were recorded before. -/
theorem WorkerRegistry.Akin.recordLatencies {registry registry' : WorkerRegistry}
    (akin : registry.Akin registry') (latencyMs : Rat) (names : List Json) :
    (WorkerRegistry.recordLatencies latencyMs names registry).1 =
        (WorkerRegistry.recordLatencies latencyMs names registry').1 ∧
      (WorkerRegistry.recordLatencies latencyMs names registry).2.Akin
        (WorkerRegistry.recordLatencies latencyMs names registry').2 := by
  induction names generalizing registry registry' with
  | nil => exact ⟨rfl, akin⟩
  | cons name rest ih =>
    unfold WorkerRegistry.recordLatencies
    cases name.key? with
    | none => exact ⟨rfl, akin⟩
    | some queue =>
      refine ih ⟨akin.workers, ?_⟩
      simp only [WorkerRegistry.recordLatency, akin.queueLatencies]

/-- The entry of the worker is the same, and so is the latency it adds. -/
theorem WorkerRegistry.Akin.completeTask {registry registry' : WorkerRegistry}
    (akin : registry.Akin registry') (worker : Key) (taskId : String) (now : Rat) :
    (registry.completeTask worker taskId now).1 = (registry'.completeTask worker taskId now).1 ∧
      (registry.completeTask worker taskId now).2.Akin
        (registry'.completeTask worker taskId now).2 := by
  unfold WorkerRegistry.completeTask
  rw [akin.workers]
  cases registry'.workers.find? worker with
  | none => exact ⟨rfl, akin⟩
  | some info =>
    have untracked (workers : Table WorkerInfo.key) :
        WorkerRegistry.Akin { registry with workers } { registry' with workers } :=
      ⟨rfl, akin.queueLatencies⟩
    simp only
    cases info.taskStartTimes.find? taskId with
    | none => exact ⟨rfl, untracked _⟩
    | some entry =>
      cases info.queues.items? with
      | none => exact ⟨rfl, untracked _⟩
      | some names => exact (untracked _).recordLatencies _ names

theorem WorkerRegistry.Akin.averageLatencyMs {registry registry' : WorkerRegistry}
    (akin : registry.Akin registry') :
    registry.averageLatencyMs = registry'.averageLatencyMs := by
  funext queue
  unfold WorkerRegistry.averageLatencyMs
  rw [akin.queueLatencies]

theorem steers_completeTask (taskId : String) :
    Steers clock (completeTask env message taskId) := by
  refine (steers_hashable _).bind_eq fun worker => Coupled.bind_eq ?_ fun result => ?_
  · exact steers_onRegistry fun registry registry' akin => akin.completeTask _ _ _
  · cases result with
    | ok value => exact steers_pure _
    | error e => exact steers_raise _

theorem steers_handleConsume : Steers clock (handleConsume platform env message) := by
  refine (steers_pure _).ite ((steers_pure _).ite ?_)
  refine (steers_hashable _).bind_eq fun queue => (steers_onQueueManager _).bind_eq fun taken => ?_
  cases taken with
  | none => exact steers_pure _
  | some task =>
    refine (steers_hashable _).bind_eq fun worker => ?_
    refine Coupled.bind_eq ?_ fun _ => (steers_onMetrics _).bind_eq fun _ => ?_
    · refine steers_onRegistry fun registry registry' akin => ⟨rfl, ?_⟩
      unfold WorkerRegistry.assignTask
      rw [akin.workers]
      cases registry'.workers.find? worker.key with
      | none => exact akin
      | some info => exact ⟨rfl, akin.queueLatencies⟩
    · exact (steers_whenPersistent (steers_walWrite _)).bind_eq fun _ => steers_pure _

theorem steers_handleRegister : Steers clock (handleRegister platform env message) := by
  refine (steers_pure _).ite ((steers_hashable _).bind_eq fun worker => ?_)
  refine Coupled.bind_eq ?_ fun _ => steers_pure _
  refine steers_onRegistry fun registry registry' akin => ?_
  unfold WorkerRegistry.register
  rw [akin.workers]
  exact ⟨rfl, rfl, akin.queueLatencies⟩

theorem steers_handleHeartbeat : Steers clock (handleHeartbeat platform env message) := by
  refine (steers_pure _).ite ((steers_hashable _).bind_eq fun worker => ?_)
  refine Coupled.bind_eq ?_ fun found => (steers_pure _).ite (steers_pure _)
  refine steers_onRegistry fun registry registry' akin => ?_
  unfold WorkerRegistry.recordHeartbeat
  rw [akin.workers]
  cases registry'.workers.find? worker.key with
  | none => exact ⟨rfl, akin⟩
  | some info => exact ⟨rfl, rfl, akin.queueLatencies⟩

theorem steers_handleAck : Steers clock (handleAck platform env message) := by
  refine (steers_pure _).ite ((steers_inFlightKey _ _).bind_eq fun key => ?_)
  cases key with
  | none => exact steers_pure _
  | some id =>
    refine (steers_onQueueManager _).bind_eq fun _ => (steers_completeTask id).bind_eq fun _ => ?_
    refine (steers_hashable _).bind_eq fun queue => (steers_onMetrics _).bind_eq fun _ => ?_
    exact (steers_whenPersistent (steers_walWrite _)).bind_eq fun _ => steers_pure _

theorem steers_persistNack (action : NackAction) (task : Task) :
    Steers clock (persistNack platform env action task) := by
  unfold persistNack
  cases action with
  | requeued =>
    unfold updateTaskStatus
    exact steers_walWrite _
  | deadLettered =>
    refine Coupled.get.bind fun m m' same => ?_
    rw [same.queueManager]
    exact steers_addToDlq _ _ _ _

theorem steers_handleNack : Steers clock (handleNack platform env message) := by
  refine (steers_pure _).ite ((steers_inFlightKey _ _).bind_eq fun key => ?_)
  cases key with
  | none => exact steers_pure _
  | some id =>
    refine (steers_onQueueManager _).bind_eq fun nacked => ?_
    cases nacked with
    | none => exact steers_pure _
    | some pair =>
      refine (steers_completeTask id).bind_eq fun _ => (steers_onMetrics _).bind_eq fun _ => ?_
      exact (steers_whenPersistent (steers_persistNack _ _)).bind_eq fun _ => steers_pure _

theorem steers_handleDlqList : Steers clock (handleDlqList platform message) := by
  refine Coupled.get.bind fun m m' same => ?_
  rw [same.walStore, same.disk, same.queueManager]
  refine Coupled.ite ?_ ?_
  · cases platform.queueFilter (message.get "queue" .null) with
    | error e => exact steers_raise _
    | ok name =>
      cases platform.limitOf (message.get "limit" (.int 50)) with
      | error e => exact steers_raise _
      | ok n => exact steers_pure _
  · cases peekLimit m'.broker.queueManager.deadLetterQueue (message.get "limit" (.int 50)) with
    | error e => exact steers_raise _
    | ok tasks => exact steers_pure _

theorem steers_handleDlqReplay : Steers clock (handleDlqReplay platform env message) := by
  refine (steers_pure _).ite (Coupled.get.bind fun m m' same => ?_)
  rw [same.walStore]
  refine Coupled.ite ?_ ?_
  · refine (steers_replayDlqTask platform _).bind_eq fun found => ?_
    cases found with
    | none => exact steers_pure _
    | some row =>
      cases decodes : platform.loads row.payload with
      | none =>
        simp only [decodes]
        exact steers_raise _
      | some payload =>
        simp only [decodes]
        refine (steers_onQueueManager _).bind_eq fun _ => ?_
        exact (steers_saveNewest _ _ _ _).bind_eq fun _ => steers_pure _
  · refine (steers_deadLetterKey _).bind_eq fun found => ?_
    cases found with
    | none => exact steers_pure _
    | some id => exact (steers_onQueueManager _).bind_eq fun _ => steers_pure _

theorem steers_handleDlqPurge : Steers clock (handleDlqPurge platform message) := by
  refine Coupled.get.bind fun m m' same => ?_
  rw [same.walStore, same.disk]
  refine Coupled.ite ?_ ?_
  · cases platform.queueFilter (message.get "queue" .null) with
    | error e => exact (steers_setInTransaction _).bind_eq fun _ => steers_raise _
    | ok name => exact (steers_walCommit _).bind_eq fun _ => steers_pure _
  · exact (steers_onQueueManager _).bind_eq fun _ => steers_pure _

/-- STATS and METRICS refill the buckets; what they report of them may differ. -/
theorem follows_shedderStats : Follows env.monotonic (shedderStats env) := by
  refine Coupled.get.bind fun m m' same => Coupled.modifyGet fun s s' similar => ?_
  rw [same.queueManager, same.workerRegistry.averageLatencyMs]
  exact ⟨trivial, { similar with loadShedder := similar.loadShedder.refillAll _ _ }⟩

theorem follows_handleStats : Follows env.monotonic (handleStats env) :=
  follows_shedderStats.bind fun _ _ _ => Coupled.get.bind fun _ _ _ => Coupled.pure trivial

/-- METRICS shows the buckets, which may differ. -/
theorem follows_handleMetrics : Follows env.monotonic (handleMetrics env) := by
  refine Coupled.get.bind fun m m' same => ?_
  simp only [same.queueManager, same.metrics]
  refine (steers_onMetrics _).bind_eq fun _ => ?_
  exact follows_shedderStats.bind fun _ _ _ => Coupled.pure trivial

/-- The load shedders give a PRODUCE the same verdict. -/
theorem steers_handleProduce : Steers env.monotonic (handleProduce platform env message) := by
  refine (steers_pure _).ite ((steers_pure _).ite ((steers_hashable _).bind_eq fun queue => ?_))
  refine Coupled.get.bind fun m m' same => ?_
  rw [same.queueManager, same.workerRegistry.averageLatencyMs]
  refine Coupled.bind_eq (Coupled.modifyGet fun s s' similar => ?_) fun verdict => ?_
  · obtain ⟨verdicts, kin⟩ := similar.loadShedder.checkAndConsume queue.key
      (m'.broker.queueManager.queueDepth queue.key)
      (m'.broker.workerRegistry.averageLatencyMs queue.key)
    exact ⟨verdicts, { similar with loadShedder := kin }⟩
  · obtain ⟨allowed, retryAfter⟩ := verdict
    refine (steers_pure _).ite ((steers_onQueueManager _).bind_eq fun _ => ?_)
    refine (steers_onMetrics _).bind_eq fun _ => ?_
    exact (steers_whenPersistent (steers_saveNewest _ _ _ _)).bind_eq fun _ => steers_pure _

/-- **A command keeps similar machines similar.** -/
theorem follows_dispatch : Follows env.monotonic (dispatch platform env message) := by
  have loose {program : BrokerM Response} (steers : Steers env.monotonic program) :
      Follows env.monotonic program := steers.mono fun _ _ _ => trivial
  cases named : commandOf message with
  | none =>
    unfold dispatch
    simp only [named]
    refine Coupled.ite (Coupled.pure trivial) ?_
    exact (steers_hashable _).bind_eq fun _ => Coupled.pure trivial
  | some command =>
    rw [dispatch_eq_handle named]
    cases command with
    | produce => exact loose steers_handleProduce
    | consume => exact loose steers_handleConsume
    | register => exact loose steers_handleRegister
    | heartbeat => exact loose steers_handleHeartbeat
    | ack => exact loose steers_handleAck
    | nack => exact loose steers_handleNack
    | dlqList => exact loose steers_handleDlqList
    | dlqReplay => exact loose steers_handleDlqReplay
    | dlqPurge => exact loose steers_handleDlqPurge
    | stats => exact follows_handleStats
    | metrics => exact follows_handleMetrics

/-- The eviction pass looks at the workers and the queues only. -/
theorem evictEach_respects (order : SetOrder) (dead : List WorkerInfo)
    {registry registry' : WorkerRegistry} (akin : registry.Akin registry')
    (qm : QueueManager) :
    (evictEach order dead (registry, qm)).1 = (evictEach order dead (registry', qm)).1 ∧
      (evictEach order dead (registry, qm)).2.1.Akin
        (evictEach order dead (registry', qm)).2.1 ∧
      (evictEach order dead (registry, qm)).2.2 = (evictEach order dead (registry', qm)).2.2 := by
  induction dead generalizing registry registry' qm with
  | nil => exact ⟨rfl, akin, rfl⟩
  | cons worker rest ih =>
    unfold evictEach
    split_ifs
    · cases requeueAll (order.iter worker.inFlightTasks) qm with
      | mk count qm' =>
        refine ih ?_ qm'
        exact ⟨akin.workers, akin.queueLatencies⟩
    · exact ⟨rfl, akin, rfl⟩

/-- The same workers are dead, and they track the same tasks. -/
theorem steers_evictionPass (order : SetOrder) : Steers clock (evictionPass env order) := by
  refine Coupled.get.bind fun m m' same => ?_
  have workers := same.workerRegistry.workers
  have dead : m.broker.workerRegistry.deadWorkers env.time =
      m'.broker.workerRegistry.deadWorkers env.time := by
    unfold WorkerRegistry.deadWorkers
    rw [workers]
  have left : (m.broker.workerRegistry.dropDead env.time).Akin
      (m'.broker.workerRegistry.dropDead env.time) := by
    unfold WorkerRegistry.dropDead
    rw [workers]
    exact ⟨rfl, same.workerRegistry.queueLatencies⟩
  obtain ⟨result, akin, queues⟩ := evictEach_respects order
    (m'.broker.workerRegistry.deadWorkers env.time) left m'.broker.queueManager
  simp only [evictDeadWorkers, dead, same.queueManager, result]
  refine Coupled.bind_eq (fun _ _ _ => ⟨rfl, ⟨queues, akin, same.loadShedder, same.metrics,
    same.walStore, same.disk, same.crashIn⟩⟩) fun _ => ?_
  split
  · exact steers_pure _
  · exact steers_raise _

theorem steers_resetHandler : Steers clock (resetHandler env) := by
  refine (steers_onQueueManager _).bind_eq fun _ => ?_
  exact (steers_whenPersistent (steers_walCommit _)).bind_eq fun _ => steers_onMetrics _

theorem steers_crashWorkerHandler (pick : Nat) : Steers clock (crashWorkerHandler env pick) := by
  refine steers_onRegistry fun registry registry' akin => ?_
  simp only [WorkerRegistry.getActiveWorkers, akin.workers]
  split
  · exact ⟨trivial, akin⟩
  · exact ⟨trivial, rfl, akin.queueLatencies⟩

/-- **An event keeps similar machines similar.** -/
theorem follows_perform (action : Action) :
    Follows env.monotonic (perform platform env action) := by
  cases action with
  | command message => exact follows_dispatch.bind fun _ _ _ => Coupled.pure trivial
  | evict order => exact (steers_evictionPass order).bind fun _ _ _ => Coupled.pure trivial
  | reset => exact steers_resetHandler.bind fun _ _ _ => Coupled.pure trivial
  | replayAll => exact (steers_onQueueManager _).bind fun _ _ _ => Coupled.pure trivial
  | crashWorker pick =>
    exact (steers_crashWorkerHandler pick).bind fun _ _ _ => Coupled.pure trivial
  | crash => exact Coupled.throw _
  | start => exact Coupled.pure trivial

end Handlers

/-! ## Similar systems -/

/-- The process does not end with the event. -/
def Event.Spares (event : Event) : Prop := event.crashIn = none ∧ event.action ≠ .crash

section Systems

variable {config : Config} {platform : Platform}

/-- Both brokers are up, with similar machines. -/
def System.Similar (clock : Rat) : System → System → Prop
  | .running broker disk, .running broker' disk' =>
    Machine.Similar clock { broker, disk } { broker := broker', disk := disk' }
  | _, _ => False

/-- **A step keeps similar systems similar**, if the clock does not run backwards. -/
theorem similar_step {clock : Rat} {system system' : System} {event : Event}
    (similar : system.Similar clock system') (spares : event.Spares)
    (forward : clock ≤ event.env.monotonic) :
    (step config platform system event).2.Similar event.env.monotonic
      (step config platform system' event).2 := by
  cases system with
  | stopped disk => exact similar.elim
  | running broker disk =>
    cases system' with
    | stopped disk' => exact similar.elim
    | running broker' disk' =>
      have same : Machine.Similar event.env.monotonic
          { broker, disk, crashIn := event.crashIn }
          { broker := broker', disk := disk', crashIn := event.crashIn } :=
        { similar with loadShedder := similar.loadShedder.mono forward, crashIn := rfl }
      have ends := @follows_perform platform event.env event.action _ _ same
      obtain ⟨after, stored, up⟩ := @step_running config platform broker disk event
        spares.1 spares.2
      obtain ⟨after', stored', up'⟩ := @step_running config platform broker' disk' event
        spares.1 spares.2
      rw [up, up']
      unfold CoupledAt at ends
      unfold step at up up'
      simp only at up up'
      -- both runs return, or both raise the same
      cases left : perform platform event.env event.action
          { broker, disk, crashIn := event.crashIn } with
      | ok outcome m =>
        cases right : perform platform event.env event.action
            { broker := broker', disk := disk', crashIn := event.crashIn } with
        | ok outcome' m' =>
          simp only [left, right] at ends up up'
          simp only [conclude] at up up'
          split_ifs at up up'
          cases up
          cases up'
          exact { ends.2 with crashIn := rfl }
        | error stop m' => simp [left, right] at ends
      | error stop m =>
        cases right : perform platform event.env event.action
            { broker := broker', disk := disk', crashIn := event.crashIn } with
        | ok outcome' m' => simp [left, right] at ends
        | error stop' m' =>
          simp only [left, right] at ends up up'
          obtain ⟨rfl, same⟩ := ends
          cases stop with
          | crashed => cases up
          | raised e =>
            simp only [conclude] at up up'
            split_ifs at up up'
            cases up
            cases up'
            exact { same with crashIn := rfl }

/-- The process goes on, and its clock does not run backwards. -/
structure Continues (clock : Rat) (later : List Event) : Prop where
  spares : ∀ event ∈ later, event.Spares
  forward : (clock :: later.map fun event => event.env.monotonic).Pairwise (· ≤ ·)

/-- **Whole runs** keep similar systems similar. -/
theorem similar_after {clock : Rat} {system system' : System} {later : List Event}
    (similar : system.Similar clock system') (continues : Continues clock later) :
    ∃ now, (Trace.after (step config platform) system later).Similar now
      (Trace.after (step config platform) system' later) := by
  induction later generalizing clock system system' with
  | nil => exact ⟨clock, similar⟩
  | cons event rest ih =>
    obtain ⟨first, onward⟩ := List.pairwise_cons.mp continues.forward
    rw [Trace.after_cons, Trace.after_cons]
    refine ih (similar_step similar (continues.spares event List.mem_cons_self) ?_)
      ⟨fun later inside => continues.spares later (List.mem_cons_of_mem _ inside), onward⟩
    exact first _ List.mem_cons_self

end Systems

/-! ## The load shedder of a process -/

/-- What an action makes of the load shedder: at most one call, at its clock reading. -/
inductive LoadShedder.Serves (env : Env) (shedder : LoadShedder) : LoadShedder → Prop where
  | idle : Serves env shedder shedder
  | called (call : LoadShedder.Call) :
      Serves env shedder (shedder.serve ⟨call, fun _ => env.monotonic⟩).2

section Served

variable {config : Config} {platform : Platform} {env : Env} {m : Machine} {message : Message}

/-- A PRODUCE asks the load shedder once, if it gets that far. -/
theorem Memory.produce_serves (memory : Memory) :
    memory.loadShedder.Serves env (memory.produce env message).loadShedder := by
  have asked (queue : Key) : memory.loadShedder.Serves env (memory.verdict env queue).2 :=
    .called (.checkAndConsume queue (memory.queueManager.queueDepth queue)
      (memory.workerRegistry.averageLatencyMs queue))
  unfold Memory.produce
  split_ifs
  · cases (message.get "queue" .null).scalar? with
    | none => exact .idle
    | some queue =>
      simp only
      split_ifs <;> exact asked queue.key
  · exact .idle

/-- **An action calls the load shedder at most once.** -/
theorem perform_serves (action : Action) :
    Leaves (perform platform env action) m
      (fun memory => m.broker.loadShedder.Serves env memory.loadShedder) := by
  have exactly {α : Type} {program : BrokerM α} {memory : Memory}
      (leaves : Leaves program m (· = memory))
      (serves : m.broker.loadShedder.Serves env memory.loadShedder) :
      Leaves program m (fun memory => m.broker.loadShedder.Serves env memory.loadShedder) :=
    leaves.mono fun _ same => same ▸ serves
  have idle {shedder : LoadShedder} (same : shedder = m.broker.loadShedder) :
      m.broker.loadShedder.Serves env shedder := same ▸ .idle
  cases action with
  | command message =>
    unfold Leaves perform
    simp only [wp_bind, wp_pure]
    refine wp_dispatch (fun _ => ⟨fun _ => .idle, fun _ => .idle⟩) fun command named => ?_
    cases command with
    | produce => exact exactly handleProduce_leaves (Memory.produce_serves m.broker.memory)
    | consume =>
      refine exactly handleConsume_leaves (idle ?_)
      unfold Memory.consume
      repeat' split
      all_goals rfl
    | register =>
      refine exactly handleRegister_leaves (idle ?_)
      unfold Memory.register
      repeat' split
      all_goals rfl
    | heartbeat =>
      refine exactly handleHeartbeat_leaves (idle ?_)
      unfold Memory.heartbeat
      repeat' split
      all_goals rfl
    | ack =>
      refine exactly handleAck_leaves (idle ?_)
      unfold Memory.ack
      split <;> rfl
    | nack =>
      refine exactly handleNack_leaves (idle ?_)
      unfold Memory.nack
      repeat' split
      all_goals rfl
    | dlqList => exact exactly handleDlqList_keeps .idle
    | dlqReplay =>
      have keeps {memory : Memory} (replays : Replaying platform env m message memory) :
          m.broker.loadShedder.Serves env memory.loadShedder := by
        cases replays <;> exact .idle
      exact Leaves.mono handleDlqReplay_replays fun memory => keeps
    | dlqPurge =>
      have purged : Leaves (handleDlqPurge platform message) m
          (fun memory => m.broker.loadShedder.Serves env memory.loadShedder) := by
        refine handleDlqPurge_keeps.mono ?_
        rintro _ ⟨deadLetterQueue, rfl⟩
        exact .idle
      exact purged
    | stats =>
      exact .called (.getStats m.broker.queueManager.queueDepth
        m.broker.workerRegistry.averageLatencyMs)
    | metrics =>
      unfold handle handleMetrics shedderStats
      simp only [wp_bind, wp_get, wp_onMetrics, wp_onLoadShedder, wp_pure]
      exact .called (.getStats m.broker.queueManager.queueDepth
        m.broker.workerRegistry.averageLatencyMs)
  | evict order =>
    unfold Leaves perform evictionPass
    simp only [wp_bind, wp_get, wp_set, wp_pure]
    cases evictDeadWorkers order env.time m.broker.workerRegistry m.broker.queueManager with
    | mk result rest => cases result <;> exact .idle
  | reset =>
    unfold Leaves perform resetHandler
    simp only [wp_bind, wp_onQueueManager, wp_onMetrics, wp_pure, wp_whenPersistent,
      wp_walCommit]
    exact ⟨fun opened => ⟨fun spent => .idle, fun alive => .idle⟩, fun closed => .idle⟩
  | replayAll => exact .idle
  | crashWorker pick => exact .idle
  | crash => exact .idle
  | start => exact .idle

/-- A start does not call it. -/
theorem recover_keeps :
    Leaves (recover platform env) m (fun memory => memory.loadShedder = m.broker.loadShedder) := by
  have loop (rows : List TaskRow) (m : Machine) :
      Leaves (recoverEach platform env rows) m
        (fun memory => memory.loadShedder = m.broker.loadShedder) := by
    induction rows generalizing m with
    | nil => exact rfl
    | cons row rest ih =>
      unfold Leaves recoverEach
      cases platform.loads row.payload with
      | none => exact rfl
      | some payload =>
        simp only [wp_bind, wp_onQueueManager, updateTaskStatus, Platform.optionalTextOf_null,
          Except.map, walWrite, wp_walCommit]
        exact ⟨fun _ => rfl, fun _ => ih _⟩
  unfold Leaves recover
  simp only [wp_bind, wp_get, wp_whenPersistent]
  exact ⟨fun _ => loop _ m, fun _ => rfl⟩

/-- **The load shedder of every reached process has served a sequence of calls.** -/
theorem reach_serves (config : Config) (platform : Platform) (events : List Event) :
    (reach config platform events).Remembers fun memory =>
      ∃ calls, memory.loadShedder = Trace.after LoadShedder.serve {} calls := by
  refine Trace.run_invariant (P := fun _ _ _ => True)
    (I := fun _ (system : System) => system.Remembers fun memory =>
      ∃ calls, memory.loadShedder = Trace.after LoadShedder.serve {} calls) trivial ?_
    fun _ _ _ _ => trivial
  intro front event holds _
  refine step_remembers (fun broker disk position => ?_) fun disk position isStart => ?_
  · rw [position] at holds
    obtain ⟨calls, served⟩ := holds
    refine (perform_serves event.action).mono fun memory serves => ?_
    change broker.loadShedder.Serves event.env memory.loadShedder at serves
    change broker.loadShedder = _ at served
    generalize memory.loadShedder = shedder at serves ⊢
    cases serves with
    | idle => exact ⟨calls, served⟩
    | called call => exact ⟨calls ++ [_], by rw [Trace.after_concat, served]⟩
  · exact recover_keeps.mono fun memory same => ⟨[], same⟩

/-- Whatever it has served, its buckets are of its make. -/
theorem LoadShedder.makes_after (calls : List LoadShedder.TimedCall) (queue : Key) :
    (Trace.after LoadShedder.serve {} calls).SameTuning {} ∧
      ∀ bucket ∈ (Trace.after LoadShedder.serve {} calls).bucket? queue,
        LoadShedder.Makes {} bucket := by
  induction calls using List.reverseRecOn with
  | nil => exact ⟨⟨rfl, rfl, rfl, rfl, rfl⟩, nofun⟩
  | append_singleton calls timed ih =>
    rw [Trace.after_concat]
    generalize Trace.after LoadShedder.serve {} calls = shedder at ih ⊢
    obtain ⟨tuning, makes⟩ := ih
    have new (now : Rat) : LoadShedder.Makes {}
        (TokenBucket.new shedder.bucketCapacity shedder.baseFillRate now) :=
      ⟨tuning.bucketCapacity, tuning.baseFillRate⟩
    refine ⟨(shedder.serve_sameTuning timed).trans tuning, fun bucket present => ?_⟩
    have found {bucket : TokenBucket} (origin : shedder.bucket? queue = some bucket ∨
        shedder.bucket? queue = none ∧ bucket = TokenBucket.new shedder.bucketCapacity
          shedder.baseFillRate (timed.clock queue)) : LoadShedder.Makes {} bucket := by
      rcases origin with old | ⟨-, rfl⟩
      · exact makes bucket old
      · exact new _
    have visits := shedder.serve_visits timed queue
    cases looks : timed.call.rate? shedder queue with
    | none =>
      rw [looks] at visits
      exact makes bucket (visits.2 ▸ present)
    | some rate =>
      rw [looks, Option.mem_def.mp present] at visits
      generalize LoadShedder.grants queue (timed, (shedder.serve timed).1) = granted at visits
      generalize origin : shedder.bucket? queue = before at visits found
      cases visits with
      | elsewhere => exact makes bucket origin
      | refilled earlier =>
        obtain ⟨capacity, nominal⟩ := found earlier
        exact ⟨capacity, nominal⟩
      | charged earlier funded =>
        obtain ⟨capacity, nominal⟩ := found earlier
        exact ⟨capacity, nominal⟩

end Served

/-! ## After a reset -/

/-- The worker is not thought to be working on anything. -/
structure WorkerInfo.Idle (worker : WorkerInfo) : Prop where
  inFlightTasks : worker.inFlightTasks = []
  taskStartTimes : worker.taskStartTimes = Table.empty

/-- The worker as it was when it registered, as far as tasks go. -/
def WorkerInfo.relieved (worker : WorkerInfo) : WorkerInfo :=
  { worker with inFlightTasks := [], taskStartTimes := Table.empty }

/-- A new broker, with the workers of `registry`. -/
def Broker.newWith (config : Config) (env : Env) (registry : WorkerRegistry) : Broker :=
  { Broker.new config env with
    workerRegistry := { workers := registry.workers.map WorkerInfo.relieved fun _ => rfl } }

/-- The stores are those of a new broker, and no worker tracks a task. -/
structure Broker.Scratch (config : Config) (env : Env) (broker : Broker) (disk : Database) :
    Prop where
  queueManager : broker.queueManager = (Broker.new config env).queueManager
  metrics : broker.metrics = (Broker.new config env).metrics
  disk : disk = {}
  idle : ∀ worker ∈ broker.workerRegistry.workers, worker.Idle

/-- Nothing is in the places that a reset does not reach. -/
structure Broker.Unmarked (broker : Broker) : Prop where
  totalReceived : broker.queueManager.deadLetterQueue.totalReceived = 0
  totalRetried : broker.queueManager.deadLetterQueue.totalRetried = 0
  totalPurged : broker.queueManager.deadLetterQueue.totalPurged = 0
  dequeueTimestamps : broker.metrics.dequeueTimestamps = Table.empty
  taskQueues : broker.metrics.taskQueues = Table.empty
  idle : ∀ worker ∈ broker.workerRegistry.workers, worker.Idle

/-- The broker after a reset. -/
def Broker.reset (broker : Broker) (env : Env) : Broker :=
  { broker with
    queueManager := broker.queueManager.reset
    metrics := broker.metrics.reset env.monotonic
    walStore := broker.walStore.map fun _ => {} }

/-- POST /admin/reset. -/
def Event.reset (env : Env) : Event where
  action := .reset
  env := env

/-- A STATS command. -/
def Event.stats (env : Env) : Event where
  action := .command [("command", .str "STATS")]
  env := env

/-- The `queue_manager` part of a STATS response, which has the `dlq` part in it, and the
`metrics` part. -/
def Outcome.books : Outcome → Option (QueueManagerStats × MetricsCollector.Stats)
  | .answered (.stats report) => some (report.queueManager, report.metrics)
  | _ => none

section Reset

variable {config : Config} {platform : Platform} {env : Env} {broker : Broker} {disk : Database}

theorem step_reset :
    step config platform (.running broker disk) (.reset env) =
      (.completed, .running (broker.reset env) (if broker.walStore.isSome then {} else disk)) := by
  obtain ⟨queueManager, workerRegistry, loadShedder, metrics, walStore⟩ := broker
  cases walStore <;> rfl

theorem books_stats :
    (step config platform (.running broker disk) (.stats env)).1.books =
      some (broker.queueManager.getStats, broker.metrics.getStats env.monotonic) := rfl

/-- Similar systems give the same figures. -/
theorem books_eq_of_similar {clock : Rat} {system system' : System}
    (similar : system.Similar clock system') (env : Env) :
    (step config platform system (.stats env)).1.books =
      (step config platform system' (.stats env)).1.books := by
  cases system with
  | stopped disk => exact similar.elim
  | running broker disk =>
    cases system' with
    | stopped disk' => exact similar.elim
    | running broker' disk' =>
      have queues : broker.queueManager = broker'.queueManager := similar.queueManager
      have metrics : broker.metrics = broker'.metrics := similar.metrics
      rw [books_stats, books_stats, queues, metrics]

/-- **The state after a reset.**  It is scratch if and only if nothing was in the places that
the reset does not reach. -/
theorem scratch_reset_iff (configured : (broker.core disk).Configured config) :
    (broker.reset env).Scratch config env (if broker.walStore.isSome then {} else disk) ↔
      broker.Unmarked := by
  constructor
  · intro scratch
    have dlq := congrArg QueueManager.deadLetterQueue scratch.queueManager
    exact
      { totalReceived := congrArg DeadLetterQueue.totalReceived dlq
        totalRetried := congrArg DeadLetterQueue.totalRetried dlq
        totalPurged := congrArg DeadLetterQueue.totalPurged dlq
        dequeueTimestamps := congrArg MetricsCollector.dequeueTimestamps scratch.metrics
        taskQueues := congrArg MetricsCollector.taskQueues scratch.metrics
        idle := scratch.idle }
  · intro unmarked
    refine ⟨?_, ?_, ?_, unmarked.idle⟩
    · have limit : broker.queueManager.maxRetries = config.maxRetries := configured.maxRetries
      simp only [Broker.reset, QueueManager.reset, Broker.new, unmarked.totalReceived,
        unmarked.totalRetried, unmarked.totalPurged, limit]
    · simp only [Broker.reset, MetricsCollector.reset, Broker.new, unmarked.dequeueTimestamps,
        unmarked.taskQueues]
    · split_ifs with opened
      · rfl
      · refine configured.volatile ?_
        have store : broker.walStore.isSome = config.persistent := configured.store
        rw [← store]
        simpa using opened

/-- Nothing is in the load shedder that a request from `clock` on could tell, and it is told no
latency.  Every bucket is full again, even if it was refilled at the lowest rate. -/
structure Broker.Rested (broker : Broker) (clock : Rat) : Prop where
  buckets : ∀ entry ∈ broker.loadShedder.buckets.rows, entry.2.lastRefill ≤ clock ∧
    entry.2.capacity ≤
      entry.2.tokens + (clock - entry.2.lastRefill) * broker.loadShedder.minFillRate
  latencies : broker.workerRegistry.queueLatencies = Table.empty

/-- The load shedder of a rested broker is the same as a new one, to what comes. -/
theorem Broker.Rested.kin {clock : Rat} {calls : List LoadShedder.TimedCall}
    (rested : broker.Rested clock)
    (served : broker.loadShedder = Trace.after LoadShedder.serve {} calls) :
    broker.loadShedder.Kin clock {} := by
  have made := LoadShedder.makes_after calls
  rw [← served] at made
  obtain ⟨tuning, -⟩ := made .null
  refine ⟨tuning, by rw [tuning.minFillRate]; norm_num, fun queue => ?_⟩
  cases present : broker.loadShedder.bucket? queue with
  | none => exact Or.inl rfl
  | some bucket =>
    refine Or.inr ⟨rfl, bucket, rfl, ?_⟩
    obtain ⟨capacity, nominal⟩ := (made queue).2 bucket present
    obtain ⟨entry, found, rfl⟩ := Option.map_eq_some_iff.mp present
    obtain ⟨past, full⟩ := rested.buckets entry (Table.mem_of_find? found)
    exact ⟨⟨capacity.trans tuning.bucketCapacity.symm, nominal.trans tuning.baseFillRate.symm⟩,
      past, full⟩

/-- After the reset of a rested broker with nothing in the places that the reset does not reach,
the broker is similar to a new one with the same workers. -/
theorem similar_reset (configured : (broker.core disk).Configured config)
    (scratch :
      (broker.reset env).Scratch config env (if broker.walStore.isSome then {} else disk))
    (rested : broker.Rested env.monotonic) {calls : List LoadShedder.TimedCall}
    (served : broker.loadShedder = Trace.after LoadShedder.serve {} calls) :
    (System.running (broker.reset env) (if broker.walStore.isSome then {} else disk)).Similar
      env.monotonic (.running (Broker.newWith config env broker.workerRegistry) {}) where
  queueManager := scratch.queueManager
  workerRegistry := by
    have relieved : broker.workerRegistry.workers.map WorkerInfo.relieved (fun _ => rfl) =
        broker.workerRegistry.workers := by
      refine Table.map_eq_self fun worker registered => ?_
      obtain ⟨tracks, times⟩ := scratch.idle worker registered
      cases worker
      cases tracks
      cases times
      rfl
    exact ⟨relieved.symm, rested.latencies⟩
  loadShedder := rested.kin served
  metrics := scratch.metrics
  walStore := by
    have store : broker.walStore.isSome = config.persistent := configured.store
    cases opened : broker.walStore with
    | none =>
      rw [opened] at store
      simp [Broker.reset, Broker.newWith, Broker.new, opened, ← store]
    | some connection =>
      rw [opened] at store
      simp [Broker.reset, Broker.newWith, Broker.new, opened, ← store]
  disk := scratch.disk
  crashIn := rfl

/-! ### The two runs -/

/-- The reset completes, and the state is scratch. -/
def ClearsState (config : Config) (platform : Platform) (env : Env) (broker : Broker)
    (disk : Database) : Prop :=
  ∃ after stored,
    step config platform (.running broker disk) (.reset env) =
      (.completed, .running after stored) ∧ after.Scratch config env stored

/-- **What a reset is for.**  It completes, the state is scratch, and whatever happens later in
the process, STATS shows the figures of a new broker with the same workers. -/
def ResetsToScratch (config : Config) (platform : Platform) (env : Env) (broker : Broker)
    (disk : Database) : Prop :=
  ClearsState config platform env broker disk ∧
    ∀ later : List Event, Continues env.monotonic later → ∀ now,
      (step config platform (Trace.after (step config platform)
        (step config platform (.running broker disk) (.reset env)).2 later)
        (.stats now)).1.books =
      (step config platform (Trace.after (step config platform)
        (.running (Broker.newWith config env broker.workerRegistry) {}) later)
        (.stats now)).1.books

/-- **Reset returns to scratch.**  It clears the state if and only if the dead letter queue has
no history, the collector tracks no delivery and no worker tracks a task.  If in addition every
bucket of the load shedder is full again and no latency was recorded, no later command shows
that the broker is not a new one. -/
theorem resetsToScratch {events : List Event}
    (position : reach config platform events = .running broker disk) :
    (ClearsState config platform env broker disk ↔ broker.Unmarked) ∧
      (broker.Unmarked → broker.Rested env.monotonic →
        ResetsToScratch config platform env broker disk) := by
  have configured := reach_configured config platform events
  have serves := reach_serves config platform events
  rw [position] at configured serves
  obtain ⟨calls, served⟩ := serves
  have clears : ClearsState config platform env broker disk ↔ broker.Unmarked := by
    rw [← @scratch_reset_iff config env broker disk configured]
    unfold ClearsState
    rw [step_reset]
    constructor
    · rintro ⟨after, stored, completes, scratch⟩
      cases completes
      exact scratch
    · intro scratch
      exact ⟨_, _, rfl, scratch⟩
  refine ⟨clears, fun unmarked rested => ⟨clears.mpr unmarked, fun later continues now => ?_⟩⟩
  have scratch := (@scratch_reset_iff config env broker disk configured).mpr unmarked
  rw [step_reset]
  obtain ⟨clock, similar⟩ := @similar_after config platform _ _ _ _
    (similar_reset configured scratch rested served) continues
  exact books_eq_of_similar similar now

/-- A worker has registered and has processed a task, and then nothing happened for a minute. -/
def restedRun : List Event :=
  [.at 0 .start, .at 1 (.register "w"), .at 2 (.produce "q" "p"), .at 3 (.consume "q" "w"),
    .at 4 (.send "ACK" [("task_id", .str (idAt 2)), ("worker_id", .str "w")])]

/-- Another sixty seconds later it is reset. -/
theorem resetsToScratch_rested :
    ∃ broker disk, reach { persistent := true } .plain restedRun = .running broker disk ∧
      broker.workerRegistry.workers.rows.length = 1 ∧
      broker.loadShedder.buckets.rows.length = 1 ∧
      ResetsToScratch { persistent := true } .plain (.at 60) broker disk := by
  obtain ⟨broker, disk, position, shown⟩ := @System.of_passes
    (fun broker _ => decide (broker.workerRegistry.workers.rows.length = 1 ∧
      broker.loadShedder.buckets.rows.length = 1 ∧
      (broker.queueManager.deadLetterQueue.totalReceived = 0 ∧
        broker.queueManager.deadLetterQueue.totalRetried = 0 ∧
        broker.queueManager.deadLetterQueue.totalPurged = 0 ∧
        broker.metrics.dequeueTimestamps.rows = [] ∧ broker.metrics.taskQueues.rows = [] ∧
        ∀ worker ∈ broker.workerRegistry.workers.rows,
          worker.inFlightTasks = [] ∧ worker.taskStartTimes.rows = []) ∧
      (∀ entry ∈ broker.loadShedder.buckets.rows, entry.2.lastRefill ≤ (60 : Nat) ∧
        entry.2.capacity ≤ entry.2.tokens +
          ((60 : Nat) - entry.2.lastRefill) * broker.loadShedder.minFillRate) ∧
      broker.workerRegistry.queueLatencies.rows = []))
    (reach { persistent := true } .plain restedRun) (by decide +kernel)
  obtain ⟨workers, buckets, ⟨received, retried, purged, timestamps, queues, idle⟩, rested,
    latencies⟩ := of_decide_eq_true shown
  refine ⟨broker, disk, position, workers, buckets, (resetsToScratch position).2
    ⟨received, retried, purged, Table.ext timestamps, Table.ext queues, fun worker known => ?_⟩
    ⟨rested, Table.ext latencies⟩⟩
  obtain ⟨tasks, times⟩ := idle worker known
  exact ⟨tasks, Table.ext times⟩

/-- With one attempt per task: a task is dead-lettered, and another one is with its worker. -/
def markedRun : List Event :=
  [.at 0 .start, .at 1 (.register "w"), .at 2 (.produce "q" "p"), .at 3 (.produce "q" "p"),
    .at 4 (.consume "q" "w"), .at 5 (.nackBy (idAt 2) "w"), .at 6 (.consume "q" "w")]

/-- **What a reset leaves behind.**  The dead letter queue still counts a task, the collector still
tracks a delivery, and the worker still has its task. -/
theorem reset_leaves_marks :
    ∃ broker disk, reach { persistent := false, maxRetries := 1 } .plain
        (markedRun ++ [.reset (.at 7)]) = .running broker disk ∧
      broker.queueManager.getStats.dlq.currentSize = 0 ∧
      broker.queueManager.getStats.dlq.totalReceived = 1 ∧
      (broker.metrics.getStats 8).trackedInFlight = 1 ∧
      (∃ worker ∈ broker.workerRegistry.workers.rows, idAt 3 ∈ worker.inFlightTasks) ∧
      ¬ broker.Scratch { persistent := false, maxRetries := 1 } (.at 7) disk := by
  obtain ⟨broker, disk, position, shown⟩ := @System.of_passes
    (fun broker _ => decide (broker.queueManager.getStats.dlq.currentSize = 0 ∧
      broker.queueManager.getStats.dlq.totalReceived = 1 ∧
      (broker.metrics.getStats 8).trackedInFlight = 1 ∧
      ∃ worker ∈ broker.workerRegistry.workers.rows, idAt 3 ∈ worker.inFlightTasks))
    (reach { persistent := false, maxRetries := 1 } .plain (markedRun ++ [.reset (.at 7)]))
    (by decide +kernel)
  obtain ⟨empty, received, tracked, busy⟩ := of_decide_eq_true shown
  refine ⟨broker, disk, position, empty, received, tracked, busy, fun scratch => ?_⟩
  rw [scratch.queueManager] at received
  cases received

end Reset

end DistroSync
