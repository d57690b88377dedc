import DistroSync.AdaptiveRate
import DistroSync.Lib.Meter
import DistroSync.Lib.Trace

/-!
# The bound of the load shedder

The calls of the load shedder in any order, with whatever depths and latencies the
queue manager and the registry report and whatever a clock shows that does not run
backwards.  Every bucket is a metered account: `check_and_consume`, `get_bucket_info`
and `get_stats` fill it at a rate that `_compute_adjusted_rate` keeps between
`MIN_FILL_RATE` and `BASE_FILL_RATE`, and only an allowed request is charged.
-/

namespace DistroSync

open Keyed Py Metering

namespace LoadShedder

/-! ## Calls -/

/-- A call, with the depth and the latency that it is told of the queues it looks at. -/
inductive Call where
  | checkAndConsume (queue : Key) (depth : Nat) (avgLatencyMs : Rat)
  | getBucketInfo (queue : Key) (depth : Nat) (avgLatencyMs : Rat)
  | getStats (depth : Key → Nat) (avgLatencyMs : Key → Rat)

/-- A call and the clock reading with which it refills the bucket of a queue. -/
structure TimedCall where
  call : Call
  clock : Key → Rat

/-- What a call returns. -/
inductive Answer where
  | verdict (allowed : Bool) (retryAfter : Rat)
  | bucketInfo (info : Option BucketInfo)
  | stats (stats : Stats)

/-- One call. -/
def serve (shedder : LoadShedder) (timed : TimedCall) : Answer × LoadShedder :=
  match timed.call with
  | .checkAndConsume queue depth avgLatencyMs =>
    let ((allowed, retryAfter), shedder) :=
      shedder.checkAndConsume queue depth avgLatencyMs (timed.clock queue)
    (.verdict allowed retryAfter, shedder)
  | .getBucketInfo queue depth avgLatencyMs =>
    let (info, shedder) := shedder.getBucketInfo queue depth avgLatencyMs (timed.clock queue)
    (.bucketInfo info, shedder)
  | .getStats depth avgLatencyMs =>
    let (stats, shedder) := shedder.getStats depth avgLatencyMs timed.clock
    (.stats stats, shedder)

/-- The call allowed a request on `queue`. -/
def grants (queue : Key) : TimedCall × Answer → Bool
  | (⟨.checkAndConsume name _ _, _⟩, .verdict true _) => name = queue
  | _ => false

/-- The number of requests allowed on `queue` between `s` and `t`. -/
def allowedIn (queue : Key) (s t : Rat) (history : List (TimedCall × Answer)) : Nat :=
  history.countP fun entry =>
    grants queue entry && decide (s ≤ entry.1.clock queue ∧ entry.1.clock queue ≤ t)

/-! ## The fill rate -/

/-- The assumptions on the parameters.  The thresholds are divisors. -/
structure Tuned (shedder : LoadShedder) : Prop where
  minFillRate_pos : 0 < shedder.minFillRate
  minFillRate_le : shedder.minFillRate ≤ shedder.baseFillRate
  queueDepthThreshold_pos : 0 < shedder.queueDepthThreshold
  latencyThresholdMs_pos : 0 < shedder.latencyThresholdMs
  bucketCapacity_nonneg : 0 ≤ shedder.bucketCapacity

variable {shedder : LoadShedder} {queue : Key}

/-- **The adjusted rate stays between the floor and the nominal rate.** -/
theorem computeAdjustedRate_bounds (tuned : shedder.Tuned) (depth : Nat) (avgLatencyMs : Rat) :
    0 < shedder.computeAdjustedRate depth avgLatencyMs ∧
      shedder.computeAdjustedRate depth avgLatencyMs ≤ shedder.baseFillRate := by
  exact ⟨tuned.minFillRate_pos.trans_le (minFillRate_le_computeAdjustedRate depth avgLatencyMs),
    computeAdjustedRate_le_base tuned.minFillRate_pos tuned.minFillRate_le
      tuned.queueDepthThreshold_pos tuned.latencyThresholdMs_pos depth avgLatencyMs⟩

/-! ## What a call does to a bucket -/

/-- The bucket of a queue. -/
def bucket? (shedder : LoadShedder) (queue : Key) : Option TokenBucket :=
  (shedder.buckets.find? queue).map Prod.snd

theorem bucket?_put_self (shedder : LoadShedder) (queue : Key) (bucket : TokenBucket) :
    bucket? { shedder with buckets := shedder.buckets.put (queue, bucket) } queue =
      some bucket := by
  simp [bucket?, Table.find?_put_self shedder.buckets (queue, bucket)]

theorem bucket?_put_of_ne (shedder : LoadShedder) {name : Key} (bucket : TokenBucket)
    (other : queue ≠ name) :
    bucket? { shedder with buckets := shedder.buckets.put (name, bucket) } queue =
      shedder.bucket? queue := by
  simp [bucket?, Table.find?_put_of_ne shedder.buckets (v := (name, bucket)) other]

/-- A queue without a bucket gets a full one. -/
theorem getOrCreateBucket_eq (shedder : LoadShedder) (queue : Key) (now : Rat) :
    shedder.getOrCreateBucket queue now =
      (shedder.bucket? queue).getD
        (TokenBucket.new shedder.bucketCapacity shedder.baseFillRate now) := by
  unfold getOrCreateBucket bucket?
  cases shedder.buckets.find? queue <;> rfl

/-- `get_stats` refills every bucket once: the loop over buckets with distinct names. -/
theorem find?_foldl_put (refilled : Key × TokenBucket → TokenBucket)
    (rows : List (Key × TokenBucket)) (distinct : (rows.map Prod.fst).Nodup)
    (buckets : Table (Prod.fst : Key × TokenBucket → Key)) (queue : Key) :
    (rows.foldl (fun buckets entry => buckets.put (entry.1, refilled entry)) buckets).find? queue =
      match rows.find? fun entry => entry.1 = queue with
      | some entry => some (queue, refilled entry)
      | none => buckets.find? queue := by
  induction rows generalizing buckets with
  | nil => rfl
  | cons entry rest ih =>
    rw [List.map_cons, List.nodup_cons] at distinct
    rw [List.foldl_cons, ih distinct.2, List.find?_cons]
    by_cases same : entry.1 = queue
    · subst same
      have absent : rest.find? (fun other => other.1 = entry.1) = none :=
        List.find?_eq_none.mpr fun other later isSame =>
          distinct.1 (of_decide_eq_true isSame ▸ List.mem_map_of_mem later)
      simp only [absent, decide_true]
      exact Table.find?_put_self buckets (entry.1, refilled entry)
    · simp only [same, decide_false]
      cases rest.find? fun other => other.1 = queue with
      | some other => rfl
      | none => exact Table.find?_put_of_ne buckets (Ne.symm same)

theorem bucket?_refillAll (shedder : LoadShedder) (depth : Key → Nat)
    (avgLatencyMs clock : Key → Rat) (queue : Key) :
    (shedder.refillAll depth avgLatencyMs clock).bucket? queue =
      (shedder.bucket? queue).map fun bucket =>
        bucket.refill (shedder.computeAdjustedRate (depth queue) (avgLatencyMs queue))
          (clock queue) := by
  unfold bucket? refillAll
  simp only
  rw [find?_foldl_put (fun entry => entry.2.refill
    (shedder.computeAdjustedRate (depth entry.1) (avgLatencyMs entry.1)) (clock entry.1))
    shedder.buckets.rows shedder.buckets.nodup]
  cases found : shedder.buckets.find? queue with
  | none =>
    have inRows : shedder.buckets.rows.find? (fun entry => entry.1 = queue) = none := found
    simp [inRows]
  | some entry =>
    have inRows : shedder.buckets.rows.find? (fun entry => entry.1 = queue) = some entry := found
    have isQueue : entry.1 = queue := Table.key_of_find? found
    simp [inRows, isQueue]

/-- What a call can do to the bucket of one queue, and whether it allows a request on it. -/
inductive Visit (full : TokenBucket) (rate now : Rat) (before : Option TokenBucket) :
    Bool → Option TokenBucket → Prop where
  | elsewhere : Visit full rate now before false before
  | refilled {bucket : TokenBucket} (found : before = some bucket ∨ before = none ∧ bucket = full) :
      Visit full rate now before false (some (bucket.refill rate now))
  | charged {bucket : TokenBucket} (found : before = some bucket ∨ before = none ∧ bucket = full)
      (funded : 1 ≤ (bucket.refill rate now).tokens) :
      Visit full rate now before true
        (some { bucket.refill rate now with tokens := (bucket.refill rate now).tokens - 1 })

/-- The bucket that `check_and_consume` looks at. -/
theorem getOrCreateBucket_found (shedder : LoadShedder) (queue : Key) (now : Rat) :
    shedder.bucket? queue = some (shedder.getOrCreateBucket queue now) ∨
      shedder.bucket? queue = none ∧ shedder.getOrCreateBucket queue now =
        TokenBucket.new shedder.bucketCapacity shedder.baseFillRate now := by
  rw [getOrCreateBucket_eq]
  cases shedder.bucket? queue with
  | none => exact Or.inr ⟨rfl, rfl⟩
  | some bucket => exact Or.inl rfl

/-- `check_and_consume` refills the bucket and charges it if there is a token. -/
theorem checkAndConsume_cases (shedder : LoadShedder) (queue : Key) (depth : Nat)
    (avgLatencyMs now : Rat) {bucket : TokenBucket}
    (refilled : (shedder.getOrCreateBucket queue now).refill
      (shedder.computeAdjustedRate depth avgLatencyMs) now = bucket) :
    (1 ≤ bucket.tokens ∧
      (shedder.checkAndConsume queue depth avgLatencyMs now).1 = (true, 0) ∧
      (shedder.checkAndConsume queue depth avgLatencyMs now).2.bucket? queue =
        some { bucket with tokens := bucket.tokens - 1 }) ∨
    (¬1 ≤ bucket.tokens ∧
      (shedder.checkAndConsume queue depth avgLatencyMs now).1 =
        (false, 1 / shedder.computeAdjustedRate depth avgLatencyMs) ∧
      (shedder.checkAndConsume queue depth avgLatencyMs now).2.bucket? queue = some bucket) := by
  unfold checkAndConsume TokenBucket.consume
  simp only [refilled]
  by_cases funded : 1 ≤ bucket.tokens
  · simp only [funded, if_true]
    exact Or.inl ⟨trivial, trivial, bucket?_put_self shedder queue _⟩
  · simp only [funded, if_false, Bool.false_eq_true]
    exact Or.inr ⟨not_false, trivial, bucket?_put_self shedder queue _⟩

/-- One visit: refill, then take a token if there is one. -/
theorem checkAndConsume_visit (shedder : LoadShedder) (queue : Key) (depth : Nat)
    (avgLatencyMs now : Rat) :
    Visit (TokenBucket.new shedder.bucketCapacity shedder.baseFillRate now)
      (shedder.computeAdjustedRate depth avgLatencyMs) now (shedder.bucket? queue)
      (shedder.checkAndConsume queue depth avgLatencyMs now).1.1
      ((shedder.checkAndConsume queue depth avgLatencyMs now).2.bucket? queue) := by
  have found := shedder.getOrCreateBucket_found queue now
  rcases shedder.checkAndConsume_cases queue depth avgLatencyMs now rfl with
    ⟨funded, allowed, after⟩ | ⟨-, refused, after⟩
  · rw [allowed, after]
    exact .charged found funded
  · rw [refused, after]
    exact .refilled found

/-- Other queues' requests do not touch the bucket. -/
theorem checkAndConsume_elsewhere (shedder : LoadShedder) {name : Key} (depth : Nat)
    (avgLatencyMs now : Rat) (other : queue ≠ name) :
    (shedder.checkAndConsume name depth avgLatencyMs now).2.bucket? queue =
      shedder.bucket? queue := by
  unfold checkAndConsume
  simp only
  split_ifs <;> exact bucket?_put_of_ne shedder _ other

/-- The rate at which a call refills the bucket of a queue, if it looks at the queue. -/
def Call.rate? (shedder : LoadShedder) (queue : Key) : Call → Option Rat
  | .checkAndConsume name depth avgLatencyMs =>
    if name = queue then some (shedder.computeAdjustedRate depth avgLatencyMs) else none
  | .getBucketInfo name depth avgLatencyMs =>
    if name = queue then some (shedder.computeAdjustedRate depth avgLatencyMs) else none
  | .getStats depth avgLatencyMs =>
    some (shedder.computeAdjustedRate (depth queue) (avgLatencyMs queue))

/-- The rate of a call comes from the depth and the latency that it was told of the queue. -/
theorem rate_of_looks {call : Call} {rate : Rat} (looks : call.rate? shedder queue = some rate) :
    ∃ depth avgLatencyMs, rate = shedder.computeAdjustedRate depth avgLatencyMs := by
  cases call with
  | checkAndConsume name depth avgLatencyMs =>
    obtain ⟨-, shown⟩ := Option.ite_none_right_eq_some.mp looks
    exact ⟨depth, avgLatencyMs, (Option.some.inj shown).symm⟩
  | getBucketInfo name depth avgLatencyMs =>
    obtain ⟨-, shown⟩ := Option.ite_none_right_eq_some.mp looks
    exact ⟨depth, avgLatencyMs, (Option.some.inj shown).symm⟩
  | getStats depth avgLatencyMs => exact ⟨_, _, (Option.some.inj looks).symm⟩

/-- **Every call visits the bucket of a queue at most once, at its clock reading and at its
rate.** -/
theorem serve_visits (shedder : LoadShedder) (timed : TimedCall) (queue : Key) :
    match timed.call.rate? shedder queue with
    | none => grants queue (timed, (shedder.serve timed).1) = false ∧
        (shedder.serve timed).2.bucket? queue = shedder.bucket? queue
    | some rate =>
      Visit (TokenBucket.new shedder.bucketCapacity shedder.baseFillRate (timed.clock queue)) rate
        (timed.clock queue) (shedder.bucket? queue)
        (grants queue (timed, (shedder.serve timed).1))
        ((shedder.serve timed).2.bucket? queue) := by
  obtain ⟨call, clock⟩ := timed
  cases call with
  | checkAndConsume name depth avgLatencyMs =>
    by_cases same : name = queue
    · subst same
      have visit := checkAndConsume_visit shedder name depth avgLatencyMs (clock name)
      simp only [serve, Call.rate?, if_true]
      generalize shedder.checkAndConsume name depth avgLatencyMs (clock name) = result at visit
      obtain ⟨⟨allowed, retryAfter⟩, after⟩ := result
      cases allowed with
      | true => simpa [grants] using visit
      | false => exact visit
    · have untouched := checkAndConsume_elsewhere shedder depth avgLatencyMs (clock name)
        (Ne.symm same)
      simp only [serve, Call.rate?, if_neg same]
      generalize shedder.checkAndConsume name depth avgLatencyMs (clock name) = result
        at untouched
      obtain ⟨⟨allowed, retryAfter⟩, after⟩ := result
      refine ⟨?_, untouched⟩
      cases allowed <;> simp [grants, same]
  | getBucketInfo name depth avgLatencyMs =>
    by_cases same : name = queue
    · subst same
      simp only [serve, getBucketInfo, grants, Call.rate?, if_true]
      cases found : shedder.buckets.find? name with
      | none => exact .elsewhere
      | some entry =>
        simp only [bucket?_put_self]
        exact .refilled (Or.inl (by simp [bucket?, found]))
    · simp only [serve, getBucketInfo, grants, Call.rate?, if_neg same, true_and]
      cases shedder.buckets.find? name with
      | none => rfl
      | some entry => exact bucket?_put_of_ne shedder _ (Ne.symm same)
  | getStats depth avgLatencyMs =>
    simp only [serve, getStats, grants, bucket?_refillAll, Call.rate?]
    cases found : shedder.bucket? queue with
    | none => exact .elsewhere
    | some bucket => exact .refilled (Or.inl rfl)

/-- The same with the bounds of the rate. -/
theorem serve_visit (tuned : shedder.Tuned) (timed : TimedCall) (queue : Key) :
    ∃ rate, 0 < rate ∧ rate ≤ shedder.baseFillRate ∧
      Visit (TokenBucket.new shedder.bucketCapacity shedder.baseFillRate (timed.clock queue)) rate
        (timed.clock queue) (shedder.bucket? queue) (grants queue (timed, (shedder.serve timed).1))
        ((shedder.serve timed).2.bucket? queue) := by
  have visits := serve_visits shedder timed queue
  cases looks : timed.call.rate? shedder queue with
  | none =>
    rw [looks] at visits
    refine ⟨_, tuned.minFillRate_pos.trans_le tuned.minFillRate_le, le_rfl, ?_⟩
    rw [visits.1, visits.2]
    exact .elsewhere
  | some rate =>
    rw [looks] at visits
    obtain ⟨depth, avgLatencyMs, rfl⟩ := rate_of_looks looks
    obtain ⟨positive, slow⟩ := computeAdjustedRate_bounds tuned depth avgLatencyMs
    exact ⟨_, positive, slow, visits⟩

/-! ## Whole runs -/

/-- The parameters of two load shedders agree. -/
structure SameTuning (shedder other : LoadShedder) : Prop where
  baseFillRate : shedder.baseFillRate = other.baseFillRate
  minFillRate : shedder.minFillRate = other.minFillRate
  queueDepthThreshold : shedder.queueDepthThreshold = other.queueDepthThreshold
  latencyThresholdMs : shedder.latencyThresholdMs = other.latencyThresholdMs
  bucketCapacity : shedder.bucketCapacity = other.bucketCapacity

theorem SameTuning.tuned {other : LoadShedder} (same : shedder.SameTuning other)
    (tuned : other.Tuned) : shedder.Tuned where
  minFillRate_pos := same.minFillRate ▸ tuned.minFillRate_pos
  minFillRate_le := same.minFillRate ▸ same.baseFillRate ▸ tuned.minFillRate_le
  queueDepthThreshold_pos := same.queueDepthThreshold ▸ tuned.queueDepthThreshold_pos
  latencyThresholdMs_pos := same.latencyThresholdMs ▸ tuned.latencyThresholdMs_pos
  bucketCapacity_nonneg := same.bucketCapacity ▸ tuned.bucketCapacity_nonneg

theorem SameTuning.symm {other : LoadShedder} (same : shedder.SameTuning other) :
    other.SameTuning shedder :=
  ⟨same.baseFillRate.symm, same.minFillRate.symm, same.queueDepthThreshold.symm,
    same.latencyThresholdMs.symm, same.bucketCapacity.symm⟩

theorem SameTuning.trans {other third : LoadShedder} (same : shedder.SameTuning other)
    (further : other.SameTuning third) : shedder.SameTuning third :=
  ⟨same.baseFillRate.trans further.baseFillRate, same.minFillRate.trans further.minFillRate,
    same.queueDepthThreshold.trans further.queueDepthThreshold,
    same.latencyThresholdMs.trans further.latencyThresholdMs,
    same.bucketCapacity.trans further.bucketCapacity⟩

/-- The rate depends on the tuning and the pressures only. -/
theorem SameTuning.computeAdjustedRate {other : LoadShedder} (same : shedder.SameTuning other)
    (depth : Nat) (avgLatencyMs : Rat) :
    shedder.computeAdjustedRate depth avgLatencyMs =
      other.computeAdjustedRate depth avgLatencyMs := by
  unfold LoadShedder.computeAdjustedRate
  rw [same.baseFillRate, same.minFillRate, same.queueDepthThreshold, same.latencyThresholdMs]

theorem SameTuning.rate? {other : LoadShedder} (same : shedder.SameTuning other) (call : Call) :
    call.rate? shedder queue = call.rate? other queue := by
  cases call <;> simp only [Call.rate?, same.computeAdjustedRate]

/-- No call changes a parameter. -/
theorem serve_sameTuning (shedder : LoadShedder) (timed : TimedCall) :
    (shedder.serve timed).2.SameTuning shedder := by
  obtain ⟨call, clock⟩ := timed
  cases call with
  | checkAndConsume name depth avgLatencyMs =>
    simp only [serve, checkAndConsume]
    split_ifs <;> exact ⟨rfl, rfl, rfl, rfl, rfl⟩
  | getBucketInfo name depth avgLatencyMs =>
    simp only [serve, getBucketInfo]
    cases shedder.buckets.find? name <;> exact ⟨rfl, rfl, rfl, rfl, rfl⟩
  | getStats depth avgLatencyMs => exact ⟨rfl, rfl, rfl, rfl, rfl⟩

end LoadShedder

/-- The account a bucket keeps. -/
def TokenBucket.meter (bucket : TokenBucket) : Meter Rat := ⟨bucket.tokens, bucket.lastRefill⟩

namespace LoadShedder

variable {initial shedder : LoadShedder} {queue : Key} {s t : Rat}

/-- The bucket of `queue` covers the `n` requests allowed in the window, at the last of the
`calls` that visited it. -/
structure Accounted (initial : LoadShedder) (queue : Key) (s t : Rat) (calls : List TimedCall)
    (n : Nat) (bucket : TokenBucket) : Prop where
  capacity : bucket.capacity = initial.bucketCapacity
  visited : ∃ timed ∈ calls, timed.clock queue = bucket.lastRefill
  covered : Covered initial.bucketCapacity initial.baseFillRate s t bucket.meter n

/-- The state of `queue` after `calls`, with the requests allowed so far. -/
structure Limited (initial : LoadShedder) (queue : Key) (s t : Rat) (calls : List TimedCall)
    (shedder : LoadShedder) : Prop where
  sameTuning : shedder.SameTuning initial
  absent : shedder.bucket? queue = none →
    allowedIn queue s t (Trace.trace serve initial calls) = 0
  present : ∀ bucket, shedder.bucket? queue = some bucket →
    Accounted initial queue s t calls (allowedIn queue s t (Trace.trace serve initial calls)) bucket

theorem allowedIn_concat (initial : LoadShedder) (queue : Key) (s t : Rat) (calls : List TimedCall)
    (timed : TimedCall) :
    allowedIn queue s t (Trace.trace serve initial (calls ++ [timed])) =
      allowedIn queue s t (Trace.trace serve initial calls) +
        if grants queue (timed, ((Trace.after serve initial calls).serve timed).1) = true ∧
            s ≤ timed.clock queue ∧ timed.clock queue ≤ t then 1 else 0 := by
  rw [Trace.trace_concat]
  simp [allowedIn, List.countP_append, List.countP_singleton]

/-- A refill at a rate that is not above the nominal one. -/
theorem refill_covered {n : Nat} {bucket : TokenBucket} {rate now : Rat} (tuned : initial.Tuned)
    (capacity : bucket.capacity = initial.bucketCapacity)
    (covered : Covered initial.bucketCapacity initial.baseFillRate s t bucket.meter n)
    (positive : 0 < rate) (slow : rate ≤ initial.baseFillRate) (forward : bucket.lastRefill ≤ now) :
    Covered initial.bucketCapacity initial.baseFillRate s t (bucket.refill rate now).meter n := by
  refine covered.fill (positive.le.trans slow) ?_
  have fills : Fills initial.bucketCapacity initial.baseFillRate bucket.meter
      { level := min initial.bucketCapacity (bucket.meter.level + (now - bucket.meter.since) * rate)
        since := now } :=
    fills_min covered.nonneg forward tuned.bucketCapacity_nonneg positive.le slow
  rw [← capacity] at fills
  rw [← capacity]
  exact fills

/-- The account that a visit finds, an existing bucket or a new one. -/
theorem Limited.found {calls : List TimedCall} {bucket : TokenBucket} {now : Rat}
    (limited : Limited initial queue s t calls shedder) (tuned : initial.Tuned) (window : s ≤ t)
    (forward : ∀ timed ∈ calls, timed.clock queue ≤ now)
    (found : shedder.bucket? queue = some bucket ∨ shedder.bucket? queue = none ∧
      bucket = TokenBucket.new shedder.bucketCapacity shedder.baseFillRate now) :
    bucket.capacity = initial.bucketCapacity ∧ bucket.lastRefill ≤ now ∧
      Covered initial.bucketCapacity initial.baseFillRate s t bucket.meter
        (allowedIn queue s t (Trace.trace serve initial calls)) := by
  rcases found with present | ⟨absent, rfl⟩
  · obtain ⟨capacity, ⟨timed, earlier, last⟩, covered⟩ := limited.present bucket present
    exact ⟨capacity, last ▸ forward timed earlier, covered⟩
  · refine ⟨limited.sameTuning.bucketCapacity, le_rfl, ?_⟩
    have inflow := tuned.minFillRate_pos.le.trans tuned.minFillRate_le
    rw [limited.absent absent, limited.sameTuning.bucketCapacity]
    exact covered_full tuned.bucketCapacity_nonneg inflow window

/-- **One call keeps the account.** -/
theorem Limited.serve {calls : List TimedCall} {timed : TimedCall} (tuned : initial.Tuned)
    (window : s ≤ t) (limited : Limited initial queue s t calls (Trace.after serve initial calls))
    (forward : ∀ earlier ∈ calls, earlier.clock queue ≤ timed.clock queue) :
    Limited initial queue s t (calls ++ [timed])
      ((Trace.after serve initial calls).serve timed).2 := by
  generalize now : timed.clock queue = reading at forward
  have same := limited.sameTuning
  obtain ⟨rate, positive, slow, visit⟩ := serve_visit (same.tuned tuned) timed queue
  have kept := serve_sameTuning (Trace.after LoadShedder.serve initial calls) timed
  have sameTuning : ((Trace.after LoadShedder.serve initial calls).serve timed).2.SameTuning
      initial := kept.trans same
  have count := allowedIn_concat initial queue s t calls timed
  rw [same.baseFillRate] at slow
  rw [now] at visit count
  generalize grants queue (timed, ((Trace.after LoadShedder.serve initial calls).serve timed).1) =
    granted at visit count
  generalize after : ((Trace.after LoadShedder.serve initial calls).serve timed).2.bucket? queue =
    result at visit
  refine ⟨sameTuning, fun absent => ?_, fun bucket present => ?_⟩
  · -- no bucket afterwards: the call did not look at the queue
    rw [after] at absent
    subst absent
    generalize before : (Trace.after LoadShedder.serve initial calls).bucket? queue = origin
      at visit
    cases visit with
    | elsewhere => simpa [count] using limited.absent before
  · rw [after] at present
    subst present
    generalize before : (Trace.after LoadShedder.serve initial calls).bucket? queue = origin
      at visit
    have visited : ∃ earlier ∈ calls ++ [timed], earlier.clock queue = reading :=
      ⟨timed, by simp, now⟩
    cases visit with
    | elsewhere =>
      obtain ⟨capacity, ⟨earlier, member, last⟩, covered⟩ := limited.present bucket before
      simp only [Bool.false_eq_true, false_and, if_false, Nat.add_zero] at count
      exact ⟨capacity, ⟨earlier, List.mem_append_left _ member, last⟩, count ▸ covered⟩
    | refilled found =>
      subst before
      obtain ⟨capacity, earlier, covered⟩ := limited.found tuned window forward found
      simp only [Bool.false_eq_true, false_and, if_false, Nat.add_zero] at count
      exact ⟨capacity, visited,
        count ▸ refill_covered tuned capacity covered positive slow earlier⟩
    | charged found funded =>
      subst before
      obtain ⟨capacity, earlier, covered⟩ := limited.found tuned window forward found
      have filled := refill_covered tuned capacity covered positive slow earlier
      have paid := filled.grant (tuned.minFillRate_pos.le.trans tuned.minFillRate_le) funded
      refine ⟨capacity, visited, ?_⟩
      simp only [true_and] at count
      rw [count,
        apply_ite (allowedIn queue s t (Trace.trace LoadShedder.serve initial calls) + ·)]
      exact paid

/-- **The rate limit.**  Whatever calls are made with whatever depths and latencies, on a clock
that does not run backwards: every bucket holds between zero and its capacity, and the requests
allowed on a queue between `s` and `t` are at most a full bucket and the nominal inflow. -/
theorem allowedIn_le (tuned : initial.Tuned) (unused : initial.buckets = Table.empty)
    {calls : List TimedCall} (queue : Key)
    (monotonic : (calls.map fun timed => timed.clock queue).Pairwise (· ≤ ·)) :
    (∀ bucket, (Trace.after serve initial calls).bucket? queue = some bucket →
      bucket.capacity = initial.bucketCapacity ∧ 0 ≤ bucket.tokens ∧
        bucket.tokens ≤ bucket.capacity) ∧
    ∀ s t, s ≤ t →
      (allowedIn queue s t (Trace.trace serve initial calls) : Rat) ≤
        initial.bucketCapacity + initial.baseFillRate * (t - s) := by
  have limited (s t : Rat) (window : s ≤ t) :
      Limited initial queue s t calls (Trace.after serve initial calls) := by
    refine @Trace.run_invariant _ _ _ serve initial (Limited initial queue s t)
      (fun front _ timed => ∀ earlier ∈ front, earlier.clock queue ≤ timed.clock queue) calls
      ?_ ?_ ?_
    · refine ⟨⟨rfl, rfl, rfl, rfl, rfl⟩, fun _ => rfl, fun bucket present => ?_⟩
      simp [bucket?, unused] at present
    · exact fun front timed limited forward => limited.serve tuned window forward
    · rintro front timed back rfl earlier member
      rw [List.map_append, List.pairwise_append] at monotonic
      exact monotonic.2.2 _ (List.mem_map_of_mem member) _ (by simp)
  constructor
  · intro bucket present
    obtain ⟨capacity, -, covered⟩ := (limited 0 0 le_rfl).present bucket present
    exact ⟨capacity, covered.nonneg, capacity ▸ covered.limited⟩
  · intro s t window
    have account := limited s t window
    cases found : (Trace.after serve initial calls).bucket? queue with
    | some bucket => exact (account.present bucket found).covered.total
    | none =>
      have inflow := tuned.minFillRate_pos.le.trans tuned.minFillRate_le
      rw [account.absent found, Nat.cast_zero]
      exact add_nonneg tuned.bucketCapacity_nonneg (mul_nonneg inflow (sub_nonneg.mpr window))

/-- A request on a queue of depth zero, at `n` seconds. -/
def requestAt (queue : Key) (n : Nat) : TimedCall := ⟨.checkAndConsume queue 0 0, fun _ => n⟩

/-- A bucket of two tokens that gains one per second: of five requests, at 0, 0, 0, 1 and 2
seconds, the third is refused. -/
theorem allowedIn_le_burst :
    let shedder : LoadShedder := { baseFillRate := 1, minFillRate := 1, bucketCapacity := 2 }
    let queue : Key := (Scalar.str "q").key
    let history := Trace.trace serve shedder
      [requestAt queue 0, requestAt queue 0, requestAt queue 0, requestAt queue 1,
        requestAt queue 2]
    allowedIn queue 0 2 history = 4 ∧ (allowedIn queue 0 2 history : Rat) ≤ 2 + 1 * (2 - 0) := by
  refine ⟨by decide +kernel, (allowedIn_le ?_ rfl _ (by decide +kernel)).2 0 2 (by norm_num)⟩
  constructor <;> norm_num

/-! ## The retry hint -/

section RetryHint

variable {r now : Rat}

/-- A rate is never below the floor. -/
theorem minFillRate_le_rate {call : Call} {rate : Rat}
    (looks : call.rate? shedder queue = some rate) : shedder.minFillRate ≤ rate := by
  obtain ⟨depth, avgLatencyMs, rfl⟩ := rate_of_looks looks
  exact le_max_left _ _

/-- Up to `now`, the bucket of `queue` was never overdrawn. -/
structure Solvent (initial : LoadShedder) (queue : Key) (now : Rat) (shedder : LoadShedder) :
    Prop where
  sameTuning : shedder.SameTuning initial
  bucket : ∀ bucket, shedder.bucket? queue = some bucket →
    bucket.capacity = initial.bucketCapacity ∧ bucket.lastRefill ≤ now ∧ 0 ≤ bucket.tokens

/-- The bucket that a visit finds, and its balance after the refill. -/
theorem Solvent.found {bucket : TokenBucket} {later rate : Rat}
    (solvent : Solvent initial queue now shedder) (roomy : 1 ≤ initial.bucketCapacity)
    (forward : now ≤ later) (positive : 0 < rate)
    (found : shedder.bucket? queue = some bucket ∨ shedder.bucket? queue = none ∧
      bucket = TokenBucket.new shedder.bucketCapacity shedder.baseFillRate later) :
    bucket.capacity = initial.bucketCapacity ∧ 0 ≤ (bucket.refill rate later).tokens := by
  obtain ⟨capacity, before, nonneg⟩ : bucket.capacity = initial.bucketCapacity ∧
      bucket.lastRefill ≤ later ∧ 0 ≤ bucket.tokens := by
    rcases found with present | ⟨-, rfl⟩
    · obtain ⟨capacity, before, nonneg⟩ := solvent.bucket bucket present
      exact ⟨capacity, before.trans forward, nonneg⟩
    · have same := solvent.sameTuning.bucketCapacity
      refine ⟨same, le_rfl, ?_⟩
      change 0 ≤ shedder.bucketCapacity
      linarith
  refine ⟨capacity, le_min (by linarith) ?_⟩
  exact add_nonneg nonneg (mul_nonneg (sub_nonneg.mpr before) positive.le)

/-- A bucket is never overdrawn, and its clock does not run ahead. -/
theorem Solvent.serve {timed : TimedCall} (solvent : Solvent initial queue now shedder)
    (roomy : 1 ≤ initial.bucketCapacity) (floor : 0 < initial.minFillRate)
    (forward : now ≤ timed.clock queue) :
    Solvent initial queue (timed.clock queue) (shedder.serve timed).2 := by
  refine ⟨(serve_sameTuning shedder timed).trans solvent.sameTuning, fun bucket present => ?_⟩
  have visits := serve_visits shedder timed queue
  cases looks : timed.call.rate? shedder queue with
  | none =>
    rw [looks] at visits
    obtain ⟨capacity, before, nonneg⟩ := solvent.bucket bucket (visits.2 ▸ present)
    exact ⟨capacity, before.trans forward, nonneg⟩
  | some rate =>
    rw [looks, present] at visits
    have positive : 0 < rate :=
      (solvent.sameTuning.minFillRate ▸ floor).trans_le (minFillRate_le_rate looks)
    generalize origin : shedder.bucket? queue = before at visits
    generalize grants queue (timed, (shedder.serve timed).1) = granted at visits
    cases visits with
    | elsewhere =>
      obtain ⟨capacity, before, nonneg⟩ := solvent.bucket bucket origin
      exact ⟨capacity, before.trans forward, nonneg⟩
    | refilled found =>
      subst origin
      obtain ⟨capacity, nonneg⟩ := solvent.found roomy forward positive found
      exact ⟨capacity, le_rfl, nonneg⟩
    | charged found funded =>
      subst origin
      obtain ⟨capacity, -⟩ := solvent.found roomy forward positive found
      exact ⟨capacity, le_rfl, sub_nonneg.mpr funded⟩

theorem solvent_after {front : List TimedCall} (roomy : 1 ≤ initial.bucketCapacity)
    (floor : 0 < initial.minFillRate) (unused : initial.buckets = Table.empty)
    (monotonic : (front.map (fun timed => timed.clock queue) ++ [now]).Pairwise (· ≤ ·)) :
    Solvent initial queue now (Trace.after LoadShedder.serve initial front) := by
  induction front using List.reverseRecOn generalizing now with
  | nil =>
    refine ⟨⟨rfl, rfl, rfl, rfl, rfl⟩, fun bucket present => ?_⟩
    simp [bucket?, unused] at present
  | append_singleton front timed ih =>
    rw [List.map_append, List.map_singleton] at monotonic
    obtain ⟨earlier, -, past⟩ := List.pairwise_append.mp monotonic
    have forward : timed.clock queue ≤ now := past _ (by simp) now (by simp)
    rw [Trace.after_concat]
    obtain ⟨sameTuning, bucket⟩ := (ih earlier).serve roomy floor le_rfl
    refine ⟨sameTuning, fun found present => ?_⟩
    obtain ⟨capacity, before, nonneg⟩ := bucket found present
    exact ⟨capacity, before.trans forward, nonneg⟩

/-- Up to `now`, the bucket of `queue` has at least what the rate `r` brings in since `s`, up
to one token. -/
structure Waiting (initial : LoadShedder) (queue : Key) (s r now : Rat) (shedder : LoadShedder) :
    Prop where
  sameTuning : shedder.SameTuning initial
  bucket : ∃ bucket, shedder.bucket? queue = some bucket ∧
    bucket.capacity = initial.bucketCapacity ∧ bucket.lastRefill ≤ now ∧
    Replenished 1 r s bucket.meter

/-- A request on the queue, with the depth and the latency it is told. -/
theorem serve_check (shedder : LoadShedder) (queue : Key) (depth : Nat) (avgLatencyMs : Rat)
    (clock : Key → Rat) :
    (shedder.serve ⟨.checkAndConsume queue depth avgLatencyMs, clock⟩).1 =
        .verdict (shedder.checkAndConsume queue depth avgLatencyMs (clock queue)).1.1
          (shedder.checkAndConsume queue depth avgLatencyMs (clock queue)).1.2 ∧
      (shedder.serve ⟨.checkAndConsume queue depth avgLatencyMs, clock⟩).2 =
        (shedder.checkAndConsume queue depth avgLatencyMs (clock queue)).2 := ⟨rfl, rfl⟩

/-- A rejected request gives the hint, and starts the wait. -/
theorem Solvent.rejected {depth : Nat} {avgLatencyMs hint : Rat} {clock : Key → Rat}
    (solvent : Solvent initial queue (clock queue) shedder) (roomy : 1 ≤ initial.bucketCapacity)
    (floor : 0 < initial.minFillRate)
    (refused : (shedder.serve ⟨.checkAndConsume queue depth avgLatencyMs, clock⟩).1 =
      .verdict false hint) :
    hint = 1 / initial.computeAdjustedRate depth avgLatencyMs ∧
      ∀ r, Waiting initial queue (clock queue) r (clock queue)
        (shedder.serve ⟨.checkAndConsume queue depth avgLatencyMs, clock⟩).2 := by
  have same := solvent.sameTuning.computeAdjustedRate depth avgLatencyMs
  have positive : 0 < shedder.computeAdjustedRate depth avgLatencyMs :=
    (solvent.sameTuning.minFillRate ▸ floor).trans_le (le_max_left _ _)
  have sameTuning := serve_sameTuning shedder ⟨.checkAndConsume queue depth avgLatencyMs, clock⟩
  obtain ⟨verdict, result⟩ := serve_check shedder queue depth avgLatencyMs clock
  rw [verdict] at refused
  injection refused with isRefused isHint
  rw [result] at sameTuning ⊢
  rcases shedder.checkAndConsume_cases queue depth avgLatencyMs (clock queue) rfl with
    ⟨-, allowed, -⟩ | ⟨-, rejected, after⟩
  · rw [allowed] at isRefused
    cases isRefused
  · rw [rejected] at isHint
    refine ⟨by rw [← isHint, same], fun r => ⟨sameTuning.trans solvent.sameTuning, _, after, ?_⟩⟩
    obtain ⟨capacity, nonneg⟩ := solvent.found roomy le_rfl positive
      (shedder.getOrCreateBucket_found queue (clock queue))
    exact ⟨capacity, le_rfl, replenished_start nonneg⟩

/-- A visit at a rate that is not below `r` loses nothing. -/
theorem refill_replenished {bucket : TokenBucket} {rate later : Rat}
    (roomy : 1 ≤ initial.bucketCapacity) (capacity : bucket.capacity = initial.bucketCapacity)
    (replenished : Replenished 1 r s bucket.meter) (positive : 0 < r) (fast : r ≤ rate)
    (forward : bucket.lastRefill ≤ later) :
    Replenished 1 r s (bucket.refill rate later).meter :=
  replenished.fill (capacity ▸ roomy) positive.le fast forward

/-- The wait goes on with every call that does not allow a request on the queue. -/
theorem Waiting.serve {timed : TimedCall} (waiting : Waiting initial queue s r now shedder)
    (roomy : 1 ≤ initial.bucketCapacity) (positive : 0 < r)
    (fast : ∀ rate ∈ timed.call.rate? initial queue, r ≤ rate)
    (forward : now ≤ timed.clock queue)
    (refused : grants queue (timed, (shedder.serve timed).1) = false) :
    Waiting initial queue s r (timed.clock queue) (shedder.serve timed).2 := by
  obtain ⟨same, bucket, present, capacity, before, replenished⟩ := waiting
  have visits := serve_visits shedder timed queue
  refine ⟨(serve_sameTuning shedder timed).trans same, ?_⟩
  rw [same.rate?] at visits
  cases looks : timed.call.rate? initial queue with
  | none =>
    rw [looks] at visits
    exact ⟨bucket, visits.2.trans present, capacity, before.trans forward, replenished⟩
  | some rate =>
    rw [looks] at visits
    simp only [refused, present] at visits
    generalize (shedder.serve timed).2.bucket? queue = after at visits ⊢
    cases visits with
    | elsewhere => exact ⟨bucket, rfl, capacity, before.trans forward, replenished⟩
    | refilled found =>
      obtain isFound | ⟨absurd, -⟩ := found
      · cases isFound
        refine ⟨_, rfl, capacity, le_rfl, ?_⟩
        exact refill_replenished roomy capacity replenished positive (fast rate looks)
          (before.trans forward)
      · cases absurd

/-- **As long as the queue is refused, its balance grows at the rate `r`.** -/
theorem Waiting.run {calls : List TimedCall} (waiting : Waiting initial queue s r now shedder)
    (roomy : 1 ≤ initial.bucketCapacity) (positive : 0 < r)
    (fast : ∀ timed ∈ calls, ∀ rate ∈ timed.call.rate? initial queue, r ≤ rate)
    (monotonic : (now :: calls.map fun timed => timed.clock queue).Pairwise (· ≤ ·))
    (refused : ∀ entry ∈ Trace.trace LoadShedder.serve shedder calls,
      grants queue entry = false) {later : Rat} (last : now ≤ later)
    (past : ∀ timed ∈ calls, timed.clock queue ≤ later) :
    Waiting initial queue s r later (Trace.after LoadShedder.serve shedder calls) := by
  induction calls generalizing now shedder with
  | nil =>
    obtain ⟨same, bucket, present, capacity, before, replenished⟩ := waiting
    exact ⟨same, bucket, present, capacity, before.trans last, replenished⟩
  | cons timed rest ih =>
    obtain ⟨forward, onward⟩ := List.pairwise_cons.mp monotonic
    have next := waiting.serve roomy positive (fast timed List.mem_cons_self)
      (forward _ List.mem_cons_self) (refused _ List.mem_cons_self)
    exact ih next (fun timed inside => fast timed (List.mem_cons_of_mem _ inside)) onward
      (fun entry inside => refused entry (List.mem_cons_of_mem _ inside))
      (past timed List.mem_cons_self)
      fun timed inside => past timed (List.mem_cons_of_mem _ inside)

/-- After the wait a request is allowed. -/
theorem Waiting.allowed {depth : Nat} {avgLatencyMs : Rat} {clock : Key → Rat}
    (waiting : Waiting initial queue s r (clock queue) shedder)
    (roomy : 1 ≤ initial.bucketCapacity) (positive : 0 < r)
    (fast : r ≤ initial.computeAdjustedRate depth avgLatencyMs)
    (waited : s + 1 / r ≤ clock queue) :
    (shedder.serve ⟨.checkAndConsume queue depth avgLatencyMs, clock⟩).1 = .verdict true 0 := by
  obtain ⟨same, bucket, present, capacity, before, replenished⟩ := waiting
  have isBucket : shedder.getOrCreateBucket queue (clock queue) = bucket := by
    rw [getOrCreateBucket_eq, present, Option.getD_some]
  rw [← same.computeAdjustedRate] at fast
  have filled := refill_replenished roomy capacity replenished positive fast before
  have funded := filled.reached positive waited
  rw [← isBucket] at funded
  rw [(serve_check shedder queue depth avgLatencyMs clock).1]
  rcases shedder.checkAndConsume_cases queue depth avgLatencyMs (clock queue) rfl with
    ⟨-, allowed, -⟩ | ⟨poor, -, -⟩
  · rw [allowed]
  · exact absurd funded poor

end RetryHint

/-- Every refill of the queue's bucket by these calls is at a rate of at least `r`. -/
def SlowestIs (initial : LoadShedder) (queue : Key) (calls : List TimedCall) (r : Rat) : Prop :=
  ∀ timed ∈ calls, ∀ rate ∈ timed.call.rate? initial queue, r ≤ rate

/-- **The retry hint is sound, and no queue is ever blacked out.**  A request on a queue is
rejected at time `s`, at the rate `1 / hint`.  If every later refill of the bucket is at a
rate of at least `r` and no request is allowed in between, the next request at or after
`s + 1 / r` is allowed, whatever rejected requests and refilling queries happen meanwhile.
In particular waiting for the hint is enough when the rate does not fall, and waiting for
`1 / MIN_FILL_RATE` is enough under every load. -/
theorem retry_hint_sound (roomy : 1 ≤ initial.bucketCapacity) (floor : 0 < initial.minFillRate)
    (unused : initial.buckets = Table.empty) {queue : Key} {front middle : List TimedCall}
    {depth depth' : Nat} {avgLatencyMs avgLatencyMs' hint : Rat} {clock clock' : Key → Rat}
    (monotonic : ((front.map fun timed => timed.clock queue) ++ clock queue ::
      ((middle.map fun timed => timed.clock queue) ++ [clock' queue])).Pairwise (· ≤ ·))
    (rejected : ((Trace.after serve initial front).serve
      ⟨.checkAndConsume queue depth avgLatencyMs, clock⟩).1 = .verdict false hint)
    (noneAllowed : ∀ entry ∈ Trace.trace serve (Trace.after serve initial
      (front ++ [⟨.checkAndConsume queue depth avgLatencyMs, clock⟩])) middle,
      grants queue entry = false) :
    let retried : TimedCall := ⟨.checkAndConsume queue depth' avgLatencyMs', clock'⟩
    let verdict := ((Trace.after serve initial
      (front ++ ⟨.checkAndConsume queue depth avgLatencyMs, clock⟩ :: middle)).serve retried).1
    hint = 1 / initial.computeAdjustedRate depth avgLatencyMs ∧
      (∀ r, 0 < r → SlowestIs initial queue (middle ++ [retried]) r →
        clock queue + 1 / r ≤ clock' queue → verdict = .verdict true 0) ∧
      (SlowestIs initial queue (middle ++ [retried])
          (initial.computeAdjustedRate depth avgLatencyMs) →
        clock queue + hint ≤ clock' queue → verdict = .verdict true 0) ∧
      (clock queue + 1 / initial.minFillRate ≤ clock' queue → verdict = .verdict true 0) := by
  intro retried verdict
  -- the clock readings before, at and after the rejected request
  obtain ⟨early, late, across⟩ := List.pairwise_append.mp monotonic
  obtain ⟨forward, onward⟩ := List.pairwise_cons.mp late
  obtain ⟨between, -, past⟩ := List.pairwise_append.mp onward
  have solvent : Solvent initial queue (clock queue) (Trace.after serve initial front) := by
    refine solvent_after roomy floor unused (List.pairwise_append.mpr ⟨early, by simp, ?_⟩)
    intro time inside time' isNow
    exact across time inside time' (by simp [List.mem_singleton.mp isNow])
  obtain ⟨isHint, waiting⟩ := solvent.rejected roomy floor rejected
  have allowed (r : Rat) (positive : 0 < r)
      (slowest : SlowestIs initial queue (middle ++ [retried]) r)
      (waited : clock queue + 1 / r ≤ clock' queue) : verdict = .verdict true 0 := by
    rw [Trace.after_concat] at noneAllowed
    have whole := (waiting r).run roomy positive
      (fun timed inside => slowest timed (List.mem_append_left _ inside))
      (List.pairwise_cons.mpr ⟨fun time inside => forward time (by simp [inside]), between⟩)
      noneAllowed (forward (clock' queue) (by simp))
      fun timed inside => past _ (List.mem_map_of_mem inside) (clock' queue) (by simp)
    rw [← Trace.after_concat, ← Trace.after_append, List.append_assoc, List.singleton_append]
      at whole
    refine whole.allowed roomy positive ?_ waited
    exact slowest retried (by simp) _ (by simp [retried, Call.rate?])
  have rate : 0 < initial.computeAdjustedRate depth avgLatencyMs :=
    floor.trans_le (le_max_left _ _)
  refine ⟨isHint, allowed, fun slowest waited => ?_, fun waited => ?_⟩
  · exact allowed _ rate slowest (isHint ▸ waited)
  · exact allowed _ floor (fun timed _ rate looks => minFillRate_le_rate looks) waited

/-- A bucket of one token that gains one per second: the second request at 0 is rejected with
the hint 1, a query at 1/2 refills the bucket, and the request at 1 is allowed. -/
theorem retry_hint_sound_one_second :
    let shedder : LoadShedder := { baseFillRate := 1, minFillRate := 1, bucketCapacity := 1 }
    let queue : Key := (Scalar.str "q").key
    let query : TimedCall := ⟨.getStats (fun _ => 0) fun _ => 0, fun _ => 1 / 2⟩
    ((Trace.after serve shedder [requestAt queue 0]).serve (requestAt queue 0)).1 =
        .verdict false 1 ∧
      ((Trace.after serve shedder [requestAt queue 0, requestAt queue 0, query]).serve
        (requestAt queue 1)).1 = .verdict true 0 := by
  intro shedder queue query
  have rejected : ((Trace.after serve shedder [requestAt queue 0]).serve (requestAt queue 0)).1 =
      .verdict false 1 :=
    congrArg₂ Answer.verdict (by decide +kernel) (by decide +kernel)
  have noneAllowed : ∀ entry ∈ Trace.trace serve
      (Trace.after serve shedder [requestAt queue 0, requestAt queue 0]) [query],
      grants queue entry = false := by
    intro entry inside
    rw [List.mem_singleton.mp inside]
    rfl
  have sound := @retry_hint_sound shedder (by norm_num [shedder]) (by norm_num [shedder]) rfl queue
    [requestAt queue 0] [query] 0 0 0 0 1 (fun _ => (0 : Nat)) (fun _ => (1 : Nat))
    (by decide +kernel) rejected noneAllowed
  exact ⟨rejected, sound.2.2.2 (by norm_num [shedder])⟩

end LoadShedder

end DistroSync
