import DistroSync.WorkerRegistry

/-!
# The adaptive load shedder

`broker/load_shedder.py`, in exact rational arithmetic: one token bucket per queue,
refilled at a rate that falls with the depth of the queue and the latency of its
workers.
-/

namespace DistroSync

open Keyed Py

/-- `TokenBucket`. -/
structure TokenBucket where
  capacity : Rat
  nominalFillRate : Rat
  tokens : Rat
  lastRefill : Rat
  deriving DecidableEq

namespace TokenBucket

/-- A new bucket is full. -/
def new (capacity nominalFillRate now : Rat) : TokenBucket :=
  { capacity, nominalFillRate, tokens := capacity, lastRefill := now }

/-- `refill`. -/
def refill (bucket : TokenBucket) (adjustedRate now : Rat) : TokenBucket :=
  { bucket with
    tokens := min bucket.capacity (bucket.tokens + (now - bucket.lastRefill) * adjustedRate)
    lastRefill := now }

/-- `consume`. -/
def consume (bucket : TokenBucket) : Bool × TokenBucket :=
  if 1 ≤ bucket.tokens then (true, { bucket with tokens := bucket.tokens - 1 })
  else (false, bucket)

end TokenBucket

/-- `AdaptiveLoadShedder`. -/
structure LoadShedder where
  buckets : Table (Prod.fst : Key × TokenBucket → Key) := Table.empty
  baseFillRate : Rat := 100
  minFillRate : Rat := 5
  queueDepthThreshold : Nat := 50
  latencyThresholdMs : Rat := 200
  bucketCapacity : Rat := 200
  totalAllowed : Nat := 0
  totalRejected : Nat := 0

namespace LoadShedder

/-- One factor of `_compute_adjusted_rate`: 1 up to the threshold, then a linear fall by
one tenth per threshold of excess, down to the floor. -/
def pressureFactor (floor value threshold : Rat) : Rat :=
  if value ≤ threshold then 1
  else max floor (1 - (value - threshold) / (10 * threshold))

/-- `_compute_adjusted_rate`. -/
def computeAdjustedRate (shedder : LoadShedder) (depth : Nat) (avgLatencyMs : Rat) : Rat :=
  let depthFactor := pressureFactor (1 / 20) depth shedder.queueDepthThreshold
  let latencyFactor := pressureFactor (1 / 10) avgLatencyMs shedder.latencyThresholdMs
  max shedder.minFillRate (shedder.baseFillRate * depthFactor * latencyFactor)

/-- `_get_or_create_bucket`. -/
def getOrCreateBucket (shedder : LoadShedder) (queue : Key) (now : Rat) : TokenBucket :=
  match shedder.buckets.find? queue with
  | some (_, bucket) => bucket
  | none => TokenBucket.new shedder.bucketCapacity shedder.baseFillRate now

/-- `check_and_consume`: whether the request is allowed, and the retry hint. -/
def checkAndConsume (shedder : LoadShedder) (queue : Key) (depth : Nat) (avgLatencyMs now : Rat) :
    (Bool × Rat) × LoadShedder :=
  let rate := shedder.computeAdjustedRate depth avgLatencyMs
  let (allowed, bucket) := ((shedder.getOrCreateBucket queue now).refill rate now).consume
  let shedder := { shedder with buckets := shedder.buckets.put (queue, bucket) }
  if allowed then ((true, 0), { shedder with totalAllowed := shedder.totalAllowed + 1 })
  else ((false, 1 / rate), { shedder with totalRejected := shedder.totalRejected + 1 })

/-- The result of `get_bucket_info`. -/
structure BucketInfo where
  tokens : Rat
  capacity : Rat
  nominalFillRate : Rat
  adjustedFillRate : Rat

/-- `get_bucket_info`, which refills the bucket; nothing for a queue that has none. -/
def getBucketInfo (shedder : LoadShedder) (queue : Key) (depth : Nat) (avgLatencyMs now : Rat) :
    Option BucketInfo × LoadShedder :=
  match shedder.buckets.find? queue with
  | none => (none, shedder)
  | some (_, bucket) =>
    let adjusted := shedder.computeAdjustedRate depth avgLatencyMs
    let bucket := bucket.refill adjusted now
    (some
      { tokens := roundTo bucket.tokens 2
        capacity := bucket.capacity
        nominalFillRate := bucket.nominalFillRate
        adjustedFillRate := roundTo adjusted 2 },
      { shedder with buckets := shedder.buckets.put (queue, bucket) })

/-- A bucket's entry in `get_stats`. -/
structure BucketStats where
  queue : Key
  tokens : Rat
  capacity : Rat
  adjustedRate : Rat

/-- `get_stats`. -/
structure Stats where
  totalAllowed : Nat
  totalRejected : Nat
  rejectionRate : Rat
  buckets : List BucketStats

/-- The refill that `get_stats` makes of every bucket, each at a clock reading of its own. -/
def refillAll (shedder : LoadShedder) (depth : Key → Nat) (avgLatencyMs clock : Key → Rat) :
    LoadShedder :=
  { shedder with
    buckets :=
      shedder.buckets.rows.foldl
        (fun buckets entry =>
          let rate := shedder.computeAdjustedRate (depth entry.1) (avgLatencyMs entry.1)
          buckets.put (entry.1, entry.2.refill rate (clock entry.1)))
        shedder.buckets }

/-- `get_stats`. -/
def getStats (shedder : LoadShedder) (depth : Key → Nat) (avgLatencyMs clock : Key → Rat) :
    Stats × LoadShedder :=
  let refilled := shedder.refillAll depth avgLatencyMs clock
  ({ totalAllowed := shedder.totalAllowed
     totalRejected := shedder.totalRejected
     rejectionRate :=
       shedder.totalRejected / max 1 ((shedder.totalAllowed + shedder.totalRejected : Nat) : Rat)
     buckets := refilled.buckets.rows.map fun entry =>
       { queue := entry.1
         tokens := roundTo entry.2.tokens 2
         capacity := entry.2.capacity
         adjustedRate :=
           roundTo (shedder.computeAdjustedRate (depth entry.1) (avgLatencyMs entry.1)) 2 } },
    refilled)

end LoadShedder

end DistroSync
