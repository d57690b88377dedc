import Mathlib

/-!
# Falling ramps

A ramp is 1 up to its start, falls linearly from there, and stays at its floor once it has
got down to it.  The two ends of the fall are corners and not jumps, which the definition by
cases does not show.  `ramp_eq` is a form without cases, and from it come the bounds, that a
ramp never rises, and that it falls no faster than its slope anywhere (`ramp_sub_le`).
-/

namespace Ramp

variable {K : Type*} [Field K] [LinearOrder K]

/-- The ramp that falls from `start` on, at a slope that would take it to 0 over `width`. -/
def ramp (floor start width x : K) : K :=
  if x ≤ start then 1 else max floor (1 - (x - start) / width)

variable {floor start width x y : K}

@[simp] theorem ramp_of_le (calm : x ≤ start) : ramp floor start width x = 1 := if_pos calm

section Shape

variable [IsStrictOrderedRing K]

/-- A ramp is the floor or the line, whichever is higher, and the line only counts the excess
over the start. -/
theorem ramp_eq (floor_le : floor ≤ 1) :
    ramp floor start width x = max floor (1 - max 0 (x - start) / width) := by
  unfold ramp
  split_ifs with calm
  · have nothing : max 0 (x - start) = 0 := max_eq_left (sub_nonpos.mpr calm)
    rw [nothing, zero_div, sub_zero, max_eq_right floor_le]
  · have excess : max 0 (x - start) = x - start :=
      max_eq_right (sub_nonneg.mpr (not_le.mp calm).le)
    rw [excess]

theorem floor_le_ramp (floor_le : floor ≤ 1) : floor ≤ ramp floor start width x := by
  rw [ramp_eq floor_le]
  exact le_max_left _ _

theorem ramp_le_one (floor_le : floor ≤ 1) (width_pos : 0 < width) :
    ramp floor start width x ≤ 1 := by
  rw [ramp_eq floor_le]
  have fall : 0 ≤ max 0 (x - start) / width := div_nonneg (le_max_left _ _) width_pos.le
  exact max_le floor_le (sub_le_self 1 fall)

/-- **A ramp never rises.** -/
theorem ramp_antitone (floor_le : floor ≤ 1) (width_pos : 0 < width) :
    Antitone (ramp floor start width) := by
  intro x y further
  rw [ramp_eq floor_le, ramp_eq floor_le]
  gcongr

/-- **A ramp falls no faster than its slope**, at its corners as anywhere else. -/
theorem ramp_sub_le (floor_le : floor ≤ 1) (width_pos : 0 < width) (further : x ≤ y) :
    ramp floor start width x - ramp floor start width y ≤ (y - x) / width := by
  have excess : max 0 (y - start) - max 0 (x - start) ≤ y - x := by
    calc max 0 (y - start) - max 0 (x - start)
        ≤ max (0 - 0) (y - start - (x - start)) := max_sub_max_le_max _ _ _ _
      _ = y - x := by
          rw [sub_self, sub_sub_sub_cancel_right, max_eq_right (sub_nonneg.mpr further)]
  have slope : 0 ≤ (y - x) / width := div_nonneg (sub_nonneg.mpr further) width_pos.le
  rw [ramp_eq floor_le, ramp_eq floor_le]
  calc max floor (1 - max 0 (x - start) / width) - max floor (1 - max 0 (y - start) / width)
      ≤ max (floor - floor)
          (1 - max 0 (x - start) / width - (1 - max 0 (y - start) / width)) :=
        max_sub_max_le_max _ _ _ _
    _ = max 0 ((max 0 (y - start) - max 0 (x - start)) / width) := by
        rw [sub_self, sub_sub_sub_cancel_left, sub_div]
    _ ≤ (y - x) / width := by
        refine max_le slope ?_
        gcongr

end Shape

end Ramp
