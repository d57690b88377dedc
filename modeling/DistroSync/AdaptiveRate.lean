import DistroSync.Lib.Ramp
import DistroSync.LoadShedder

/-!
# The adjusted fill rate

`_compute_adjusted_rate` multiplies the nominal rate by two falling ramps, one in the depth
of the queue and one in the latency of its workers, and keeps the product above a floor.
The ramps have floors and thresholds of their own, and the product is cut off again, so
that the rate has many regions.  That it is bounded, never rises and nowhere jumps comes
from the same facts about each ramp.
-/

namespace DistroSync

open Ramp

namespace LoadShedder

/-! ## One signal -/

section Signal

variable {floor value other threshold : Rat}

/-- Below its threshold a pressure does nothing. -/
theorem pressureFactor_of_le (calm : value ≤ threshold) :
    pressureFactor floor value threshold = 1 := ramp_of_le calm

theorem pressureFactor_nonneg (positive : 0 ≤ floor) (small : floor ≤ 1) :
    0 ≤ pressureFactor floor value threshold := positive.trans (floor_le_ramp small)

theorem pressureFactor_le_one (small : floor ≤ 1) (threshold_pos : 0 < threshold) :
    pressureFactor floor value threshold ≤ 1 := ramp_le_one small (by linarith)

/-- More pressure never means a larger factor. -/
theorem pressureFactor_le (small : floor ≤ 1) (threshold_pos : 0 < threshold)
    (further : value ≤ other) :
    pressureFactor floor other threshold ≤ pressureFactor floor value threshold :=
  ramp_antitone small (by linarith) further

/-- A factor falls no faster than linearly. -/
theorem pressureFactor_sub_le (small : floor ≤ 1) (threshold_pos : 0 < threshold)
    (further : value ≤ other) :
    pressureFactor floor value threshold - pressureFactor floor other threshold ≤
      (other - value) / (10 * threshold) :=
  ramp_sub_le small (by linarith) further

end Signal

/-! ## Both signals -/

/-- A product of rates that is cut off below loses no more than the product itself. -/
theorem max_sub_max_le_of_le {low a b c : Rat} (nonneg : 0 ≤ c) (fall : a - b ≤ c) :
    max low a - max low b ≤ c := by
  refine (max_sub_max_le_max low a low b).trans ?_
  rw [sub_self]
  exact max_le nonneg fall

/-- The adjusted rate is bounded and never rises with either signal; it falls gradually, by no
more than its share for each task and each millisecond; it is the nominal rate while both
signals are calm; and each signal alone bounds it. -/
structure Adaptive (shedder : LoadShedder) : Prop where
  bounds : ∀ depth avgLatencyMs,
    shedder.minFillRate ≤ shedder.computeAdjustedRate depth avgLatencyMs ∧
      shedder.computeAdjustedRate depth avgLatencyMs ≤ shedder.baseFillRate
  antitone_depth : ∀ avgLatencyMs,
    Antitone fun depth => shedder.computeAdjustedRate depth avgLatencyMs
  antitone_latency : ∀ depth, Antitone fun avgLatencyMs =>
    shedder.computeAdjustedRate depth avgLatencyMs
  gradual_depth : ∀ depth avgLatencyMs,
    shedder.computeAdjustedRate depth avgLatencyMs -
        shedder.computeAdjustedRate (depth + 1) avgLatencyMs ≤
      shedder.baseFillRate / (10 * shedder.queueDepthThreshold)
  gradual_latency : ∀ depth avgLatencyMs more, 0 ≤ more →
    shedder.computeAdjustedRate depth avgLatencyMs -
        shedder.computeAdjustedRate depth (avgLatencyMs + more) ≤
      shedder.baseFillRate * (more / (10 * shedder.latencyThresholdMs))
  calm : ∀ depth avgLatencyMs, depth ≤ shedder.queueDepthThreshold →
    avgLatencyMs ≤ shedder.latencyThresholdMs →
      shedder.computeAdjustedRate depth avgLatencyMs = shedder.baseFillRate
  le_depth_alone : ∀ depth avgLatencyMs,
    shedder.computeAdjustedRate depth avgLatencyMs ≤ shedder.computeAdjustedRate depth 0
  le_latency_alone : ∀ depth avgLatencyMs,
    shedder.computeAdjustedRate depth avgLatencyMs ≤ shedder.computeAdjustedRate 0 avgLatencyMs

section Rate

variable {shedder : LoadShedder}

/-- The factor of the depth. -/
def depthFactor (shedder : LoadShedder) (depth : Nat) : Rat :=
  pressureFactor (1 / 20) depth shedder.queueDepthThreshold

/-- The factor of the latency. -/
def latencyFactor (shedder : LoadShedder) (avgLatencyMs : Rat) : Rat :=
  pressureFactor (1 / 10) avgLatencyMs shedder.latencyThresholdMs

/-- The rate is the base times both factors, but never below the minimum. -/
theorem computeAdjustedRate_eq (shedder : LoadShedder) (depth : Nat) (avgLatencyMs : Rat) :
    shedder.computeAdjustedRate depth avgLatencyMs = max shedder.minFillRate
      (shedder.baseFillRate * shedder.depthFactor depth * shedder.latencyFactor avgLatencyMs) :=
  rfl

theorem depthFactor_nonneg (depth : Nat) : 0 ≤ shedder.depthFactor depth :=
  pressureFactor_nonneg (by norm_num) (by norm_num)

theorem latencyFactor_nonneg (avgLatencyMs : Rat) : 0 ≤ shedder.latencyFactor avgLatencyMs :=
  pressureFactor_nonneg (by norm_num) (by norm_num)

theorem depthFactor_le_one (threshold_pos : 0 < shedder.queueDepthThreshold) (depth : Nat) :
    shedder.depthFactor depth ≤ 1 :=
  pressureFactor_le_one (by norm_num) (Nat.cast_pos.mpr threshold_pos)

theorem latencyFactor_le_one (threshold_pos : 0 < shedder.latencyThresholdMs)
    (avgLatencyMs : Rat) : shedder.latencyFactor avgLatencyMs ≤ 1 :=
  pressureFactor_le_one (by norm_num) threshold_pos

theorem depthFactor_antitone (threshold_pos : 0 < shedder.queueDepthThreshold) :
    Antitone shedder.depthFactor := by
  intro depth deeper further
  exact pressureFactor_le (by norm_num) (Nat.cast_pos.mpr threshold_pos) (Nat.cast_le.mpr further)

theorem latencyFactor_antitone (threshold_pos : 0 < shedder.latencyThresholdMs) :
    Antitone shedder.latencyFactor := by
  intro avgLatencyMs slower further
  exact pressureFactor_le (by norm_num) threshold_pos further

/-- One more task takes no more than its share from the factor, at the threshold too. -/
theorem depthFactor_sub_succ_le (threshold_pos : 0 < shedder.queueDepthThreshold) (depth : Nat) :
    shedder.depthFactor depth - shedder.depthFactor (depth + 1) ≤
      1 / (10 * shedder.queueDepthThreshold) := by
  have more : (depth : Rat) ≤ (depth + 1 : Nat) := by exact_mod_cast Nat.le_succ depth
  calc shedder.depthFactor depth - shedder.depthFactor (depth + 1)
      ≤ ((depth + 1 : Nat) - (depth : Rat)) / (10 * shedder.queueDepthThreshold) :=
        pressureFactor_sub_le (by norm_num) (Nat.cast_pos.mpr threshold_pos) more
    _ = 1 / (10 * shedder.queueDepthThreshold) := by
        push_cast
        ring

theorem latencyFactor_sub_add_le (threshold_pos : 0 < shedder.latencyThresholdMs)
    (avgLatencyMs : Rat) {more : Rat} (nonneg : 0 ≤ more) :
    shedder.latencyFactor avgLatencyMs - shedder.latencyFactor (avgLatencyMs + more) ≤
      more / (10 * shedder.latencyThresholdMs) := by
  calc shedder.latencyFactor avgLatencyMs - shedder.latencyFactor (avgLatencyMs + more)
      ≤ (avgLatencyMs + more - avgLatencyMs) / (10 * shedder.latencyThresholdMs) :=
        pressureFactor_sub_le (by norm_num) threshold_pos (le_add_of_nonneg_right nonneg)
    _ = more / (10 * shedder.latencyThresholdMs) := by rw [add_sub_cancel_left]

theorem minFillRate_le_computeAdjustedRate (depth : Nat) (avgLatencyMs : Rat) :
    shedder.minFillRate ≤ shedder.computeAdjustedRate depth avgLatencyMs := le_max_left _ _

/-- No pressure makes a queue faster. -/
theorem computeAdjustedRate_le_base (minFillRate_pos : 0 < shedder.minFillRate)
    (minFillRate_le : shedder.minFillRate ≤ shedder.baseFillRate)
    (depth_pos : 0 < shedder.queueDepthThreshold) (latency_pos : 0 < shedder.latencyThresholdMs)
    (depth : Nat) (avgLatencyMs : Rat) :
    shedder.computeAdjustedRate depth avgLatencyMs ≤ shedder.baseFillRate := by
  have base : 0 ≤ shedder.baseFillRate := (minFillRate_pos.trans_le minFillRate_le).le
  rw [computeAdjustedRate_eq]
  refine max_le minFillRate_le ?_
  calc shedder.baseFillRate * shedder.depthFactor depth * shedder.latencyFactor avgLatencyMs
      ≤ shedder.baseFillRate * shedder.depthFactor depth :=
        mul_le_of_le_one_right (mul_nonneg base (depthFactor_nonneg depth))
          (latencyFactor_le_one latency_pos avgLatencyMs)
    _ ≤ shedder.baseFillRate := mul_le_of_le_one_right base (depthFactor_le_one depth_pos depth)

theorem computeAdjustedRate_antitone_depth (base : 0 ≤ shedder.baseFillRate)
    (depth_pos : 0 < shedder.queueDepthThreshold) (avgLatencyMs : Rat) :
    Antitone fun depth => shedder.computeAdjustedRate depth avgLatencyMs := by
  intro depth deeper further
  have fall := depthFactor_antitone depth_pos further
  have nonneg := @latencyFactor_nonneg shedder avgLatencyMs
  show max _ (_ * shedder.depthFactor deeper * shedder.latencyFactor avgLatencyMs) ≤
    max _ (_ * shedder.depthFactor depth * shedder.latencyFactor avgLatencyMs)
  gcongr

theorem computeAdjustedRate_antitone_latency (base : 0 ≤ shedder.baseFillRate)
    (latency_pos : 0 < shedder.latencyThresholdMs) (depth : Nat) :
    Antitone fun avgLatencyMs => shedder.computeAdjustedRate depth avgLatencyMs := by
  intro avgLatencyMs slower further
  have fall := latencyFactor_antitone latency_pos further
  have nonneg := @depthFactor_nonneg shedder depth
  show max _ (_ * shedder.depthFactor depth * shedder.latencyFactor slower) ≤
    max _ (_ * shedder.depthFactor depth * shedder.latencyFactor avgLatencyMs)
  gcongr

/-- One task more lowers the rate by a bounded amount. -/
theorem computeAdjustedRate_sub_succ_le (base : 0 ≤ shedder.baseFillRate)
    (depth_pos : 0 < shedder.queueDepthThreshold) (latency_pos : 0 < shedder.latencyThresholdMs)
    (depth : Nat) (avgLatencyMs : Rat) :
    shedder.computeAdjustedRate depth avgLatencyMs -
        shedder.computeAdjustedRate (depth + 1) avgLatencyMs ≤
      shedder.baseFillRate / (10 * shedder.queueDepthThreshold) := by
  have share : 0 ≤ shedder.baseFillRate / (10 * shedder.queueDepthThreshold) := by positivity
  refine max_sub_max_le_of_le share ?_
  have fall : 0 ≤ shedder.depthFactor depth - shedder.depthFactor (depth + 1) :=
    sub_nonneg.mpr (depthFactor_antitone depth_pos (Nat.le_succ depth))
  calc shedder.baseFillRate * shedder.depthFactor depth * shedder.latencyFactor avgLatencyMs -
        shedder.baseFillRate * shedder.depthFactor (depth + 1) * shedder.latencyFactor avgLatencyMs
      = shedder.baseFillRate * (shedder.depthFactor depth - shedder.depthFactor (depth + 1)) *
          shedder.latencyFactor avgLatencyMs := by ring
    _ ≤ shedder.baseFillRate * (shedder.depthFactor depth - shedder.depthFactor (depth + 1)) :=
        mul_le_of_le_one_right (mul_nonneg base fall)
          (latencyFactor_le_one latency_pos avgLatencyMs)
    _ ≤ shedder.baseFillRate * (1 / (10 * shedder.queueDepthThreshold)) :=
        mul_le_mul_of_nonneg_left (depthFactor_sub_succ_le depth_pos depth) base
    _ = shedder.baseFillRate / (10 * shedder.queueDepthThreshold) := mul_one_div _ _

theorem computeAdjustedRate_sub_add_le (base : 0 ≤ shedder.baseFillRate)
    (depth_pos : 0 < shedder.queueDepthThreshold) (latency_pos : 0 < shedder.latencyThresholdMs)
    (depth : Nat) (avgLatencyMs : Rat) {more : Rat} (nonneg : 0 ≤ more) :
    shedder.computeAdjustedRate depth avgLatencyMs -
        shedder.computeAdjustedRate depth (avgLatencyMs + more) ≤
      shedder.baseFillRate * (more / (10 * shedder.latencyThresholdMs)) := by
  have share : 0 ≤ shedder.baseFillRate * (more / (10 * shedder.latencyThresholdMs)) := by
    positivity
  refine max_sub_max_le_of_le share ?_
  have deep : shedder.baseFillRate * shedder.depthFactor depth ≤ shedder.baseFillRate :=
    mul_le_of_le_one_right base (depthFactor_le_one depth_pos depth)
  calc shedder.baseFillRate * shedder.depthFactor depth * shedder.latencyFactor avgLatencyMs -
        shedder.baseFillRate * shedder.depthFactor depth *
          shedder.latencyFactor (avgLatencyMs + more)
      = shedder.baseFillRate * shedder.depthFactor depth *
          (shedder.latencyFactor avgLatencyMs - shedder.latencyFactor (avgLatencyMs + more)) := by
        ring
    _ ≤ shedder.baseFillRate * shedder.depthFactor depth *
          (more / (10 * shedder.latencyThresholdMs)) :=
        mul_le_mul_of_nonneg_left (latencyFactor_sub_add_le latency_pos avgLatencyMs nonneg)
          (mul_nonneg base (depthFactor_nonneg depth))
    _ ≤ shedder.baseFillRate * (more / (10 * shedder.latencyThresholdMs)) :=
        mul_le_mul_of_nonneg_right deep (by positivity)

/-- **The adjusted rate adapts gradually and within bounds**, for all thresholds. -/
theorem computeAdjustedRate_adaptive (minFillRate_pos : 0 < shedder.minFillRate)
    (minFillRate_le : shedder.minFillRate ≤ shedder.baseFillRate)
    (depth_pos : 0 < shedder.queueDepthThreshold) (latency_pos : 0 < shedder.latencyThresholdMs) :
    shedder.Adaptive := by
  have base : 0 ≤ shedder.baseFillRate := (minFillRate_pos.trans_le minFillRate_le).le
  -- a latency of 0 is calm, so that its factor is 1
  have noLatency : shedder.latencyFactor 0 = 1 := pressureFactor_of_le latency_pos.le
  refine
    { bounds := fun depth avgLatencyMs => ⟨minFillRate_le_computeAdjustedRate depth avgLatencyMs,
        computeAdjustedRate_le_base minFillRate_pos minFillRate_le depth_pos latency_pos depth
          avgLatencyMs⟩
      antitone_depth := computeAdjustedRate_antitone_depth base depth_pos
      antitone_latency := computeAdjustedRate_antitone_latency base latency_pos
      gradual_depth := computeAdjustedRate_sub_succ_le base depth_pos latency_pos
      gradual_latency := fun depth avgLatencyMs _ =>
        computeAdjustedRate_sub_add_le base depth_pos latency_pos depth avgLatencyMs
      calm := fun depth avgLatencyMs shallow fast => ?_
      le_depth_alone := fun depth avgLatencyMs => ?_
      le_latency_alone := fun depth avgLatencyMs =>
        computeAdjustedRate_antitone_depth base depth_pos avgLatencyMs (Nat.zero_le depth) }
  · have deep : shedder.depthFactor depth = 1 := pressureFactor_of_le (by exact_mod_cast shallow)
    have slow : shedder.latencyFactor avgLatencyMs = 1 := pressureFactor_of_le fast
    rw [computeAdjustedRate_eq, deep, slow, mul_one, mul_one, max_eq_right minFillRate_le]
  · rw [computeAdjustedRate_eq, computeAdjustedRate_eq, noLatency, mul_one]
    have alone : shedder.baseFillRate * shedder.depthFactor depth *
        shedder.latencyFactor avgLatencyMs ≤ shedder.baseFillRate * shedder.depthFactor depth :=
      mul_le_of_le_one_right (mul_nonneg base (depthFactor_nonneg depth))
        (latencyFactor_le_one latency_pos avgLatencyMs)
    gcongr

/-- The parameters of the source. -/
theorem computeAdjustedRate_adaptive_default : Adaptive {} :=
  computeAdjustedRate_adaptive (by norm_num) (by norm_num) (by norm_num) (by norm_num)

end Rate

end LoadShedder

end DistroSync
