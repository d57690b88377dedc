import Mathlib

/-!
# Metered accounts

An account with a limited balance that fills up over time and is charged one unit per
grant.  How fast it fills may change at every visit; all that is known is a bound on
the rate.  Then the grants in any window of time `[s, t]` are at most the capacity and
what the rate can add in the window (`Covered.total`).

The invariant behind it has three phases, by where the last visit lies: before the
window there are no grants to count; inside, the grants and the balance together are
covered by the capacity and the inflow since `s`; after it, the count is final.

A bound from below on the rate gives the converse: as long as nothing is charged, the
balance is at least what that rate alone would have brought in since `s`, up to any
`goal` that the account can hold (`Replenished`).
-/

namespace Metering

universe u

/-- A balance and the time it was last brought up to date. -/
structure Meter (K : Type u) where
  level : K
  since : K

variable {K : Type u} [Field K] [LinearOrder K] [IsStrictOrderedRing K]
  {capacity rate s t : K} {m m' : Meter K} {n : ℕ}

/-- The balance is brought up to date: it gains at most `rate` per unit of time. -/
structure Fills (capacity rate : K) (m m' : Meter K) : Prop where
  forward : m.since ≤ m'.since
  nonneg : 0 ≤ m'.level
  limited : m'.level ≤ capacity
  gains : m'.level ≤ m.level + (m'.since - m.since) * rate

/-- Filling up to the capacity, at a rate between zero and the bound. -/
theorem fills_min {actual now : K} (nonneg : 0 ≤ m.level) (forward : m.since ≤ now)
    (positive : 0 ≤ capacity) (inflow : 0 ≤ actual) (slow : actual ≤ rate) :
    Fills capacity rate m
      { level := min capacity (m.level + (now - m.since) * actual), since := now } where
  forward := forward
  nonneg := le_min positive (add_nonneg nonneg (mul_nonneg (sub_nonneg.mpr forward) inflow))
  limited := min_le_left _ _
  gains := (min_le_right _ _).trans
    (add_le_add_right (mul_le_mul_of_nonneg_left slow (sub_nonneg.mpr forward)) _)

/-- The `n` grants between `s` and `t` are paid for. -/
structure Covered (capacity rate s t : K) (m : Meter K) (n : ℕ) : Prop where
  nonneg : 0 ≤ m.level
  limited : m.level ≤ capacity
  total : (n : K) ≤ capacity + rate * (t - s)
  inside : s ≤ m.since → m.since ≤ t → n + m.level ≤ capacity + rate * (m.since - s)
  early : m.since < s → n = 0

/-- A full account covers a window without grants. -/
theorem covered_full (positive : 0 ≤ capacity) (inflow : 0 ≤ rate) (window : s ≤ t) {now : K} :
    Covered capacity rate s t { level := capacity, since := now } 0 where
  nonneg := positive
  limited := le_rfl
  total := by
    rw [Nat.cast_zero]
    exact add_nonneg positive (mul_nonneg inflow (sub_nonneg.mpr window))
  inside begun _ := by
    rw [Nat.cast_zero, zero_add]
    exact le_add_of_nonneg_right (mul_nonneg inflow (sub_nonneg.mpr begun))
  early _ := rfl

theorem Covered.fill (covered : Covered capacity rate s t m n) (inflow : 0 ≤ rate)
    (fills : Fills capacity rate m m') : Covered capacity rate s t m' n where
  nonneg := fills.nonneg
  limited := fills.limited
  total := covered.total
  inside := by
    intro begun running
    rcases le_or_gt s m.since with within | before
    · -- both visits are in the window: the gain is paid for by the time between them
      have paid := covered.inside within (fills.forward.trans running)
      have gains := fills.gains
      linarith
    · have limited := fills.limited
      have grown : 0 ≤ rate * (m'.since - s) := mul_nonneg inflow (sub_nonneg.mpr begun)
      rw [covered.early before, Nat.cast_zero]
      linarith
  early before := covered.early (fills.forward.trans_lt before)

/-- A grant costs one unit, and counts if it is made in the window. -/
theorem Covered.grant (covered : Covered capacity rate s t m n) (inflow : 0 ≤ rate)
    (funded : 1 ≤ m.level) :
    Covered capacity rate s t { m with level := m.level - 1 }
      (if s ≤ m.since ∧ m.since ≤ t then n + 1 else n) where
  nonneg := sub_nonneg.mpr funded
  limited := (sub_le_self _ zero_le_one).trans covered.limited
  total := by
    split_ifs with within
    · have paid := covered.inside within.1 within.2
      have wider : rate * (m.since - s) ≤ rate * (t - s) :=
        mul_le_mul_of_nonneg_left (sub_le_sub_right within.2 s) inflow
      rw [Nat.cast_add, Nat.cast_one]
      linarith
    · exact covered.total
  inside begun running := by
    have paid := covered.inside begun running
    rw [if_pos ⟨begun, running⟩, Nat.cast_add, Nat.cast_one]
    change (n : K) + 1 + (m.level - 1) ≤ _
    linarith
  early before := by
    rw [if_neg fun within => absurd within.1 (not_le.mpr before)]
    exact covered.early before

/-! ## Waiting for a balance -/

/-- The balance is what `rate` has brought in since `s`, or at least the goal. -/
def Replenished (goal rate s : K) (m : Meter K) : Prop := min goal ((m.since - s) * rate) ≤ m.level

omit [IsStrictOrderedRing K] in
/-- Nothing has to be there at the start. -/
theorem replenished_start {goal : K} (nonneg : 0 ≤ m.level) : Replenished goal rate m.since m := by
  unfold Replenished
  rw [sub_self, zero_mul]
  exact (min_le_right _ _).trans nonneg

/-- Filling, at any rate that is not below the bound and any number of times, loses nothing. -/
theorem Replenished.fill {goal actual now : K} (replenished : Replenished goal rate s m)
    (roomy : goal ≤ capacity) (inflow : 0 ≤ rate) (fast : rate ≤ actual)
    (forward : m.since ≤ now) :
    Replenished goal rate s
      { level := min capacity (m.level + (now - m.since) * actual), since := now } := by
  unfold Replenished at *
  have elapsed : 0 ≤ now - m.since := sub_nonneg.mpr forward
  have gained : (now - m.since) * rate ≤ (now - m.since) * actual :=
    mul_le_mul_of_nonneg_left fast elapsed
  refine le_min ((min_le_left _ _).trans roomy) ?_
  rcases min_choice goal ((m.since - s) * rate) with full | filling
  · -- the goal was reached before
    rw [full] at replenished
    have more : 0 ≤ (now - m.since) * rate := mul_nonneg elapsed inflow
    exact (min_le_left _ _).trans (by linarith)
  · rw [filling] at replenished
    refine (min_le_right _ _).trans ?_
    calc (now - s) * rate = (m.since - s) * rate + (now - m.since) * rate := by ring
      _ ≤ m.level + (now - m.since) * actual := add_le_add replenished gained

/-- After enough time the goal is reached. -/
theorem Replenished.reached {goal : K} (replenished : Replenished goal rate s m)
    (positive : 0 < rate) (waited : s + goal / rate ≤ m.since) : goal ≤ m.level := by
  have enough : goal ≤ (m.since - s) * rate := (div_le_iff₀ positive).mp (by linarith)
  exact (le_min le_rfl enough).trans replenished

end Metering
