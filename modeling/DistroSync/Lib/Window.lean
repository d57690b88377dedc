import Mathlib

/-!
# Recent events and order statistics

Two kinds of summary of a stream of values that keep only a part of it.

`Recent` is for events counted over a sliding window of time.  The events that are
`kept` stand for `all` of them as long as the two have the same events in every window
that a later query can look at; so dropping old events from the front, which is what a
query does, changes no later answer.

The other one is the last `n` values, `List.rtake n`, and the value at a given rank
among them.
-/

namespace Window

/-! ## Sliding windows -/

section Recent

variable {α : Type*} [LinearOrder α]

/-- In an ordered list, dropping the values below a bound from the front drops all of them. -/
theorem dropWhile_lt_eq_filter {times : List α} (ordered : times.Pairwise (· ≤ ·)) (bound : α) :
    (times.dropWhile fun t => t < bound) = times.filter fun t => bound ≤ t := by
  induction times with
  | nil => rfl
  | cons t rest ih =>
    obtain ⟨below, restOrdered⟩ := List.pairwise_cons.mp ordered
    by_cases old : t < bound
    · simp [old, not_le.mpr old, ih restOrdered]
    · have recent : ∀ t' ∈ rest, bound ≤ t' := fun t' later =>
        (not_lt.mp old).trans (below t' later)
      rw [List.dropWhile_cons_of_neg (by simpa using old),
        List.filter_eq_self.mpr fun t' inside => ?_]
      rcases List.mem_cons.mp inside with rfl | later
      · simpa using old
      · simpa using recent t' later

variable [AddCommGroup α] [IsOrderedAddMonoid α] {width now : α} {kept all : List α}

/-- At time `now`, the `kept` events are as good as `all` events for every window of this
width that ends now or later. -/
structure Recent (width now : α) (kept all : List α) : Prop where
  ordered : all.Pairwise (· ≤ ·)
  past : ∀ t ∈ all, t ≤ now
  sublist : kept.Sublist all
  same : ∀ later, now ≤ later →
    (kept.filter fun t => later - width ≤ t) = all.filter fun t => later - width ≤ t

namespace Recent

omit [IsOrderedAddMonoid α] in
theorem empty : Recent width now [] [] where
  ordered := List.Pairwise.nil
  past := nofun
  sublist := List.Sublist.refl _
  same _ _ := rfl

omit [IsOrderedAddMonoid α] in
/-- Time passes. -/
theorem wait (recent : Recent width now kept all) {later : α} (passes : now ≤ later) :
    Recent width later kept all where
  ordered := recent.ordered
  past t inside := (recent.past t inside).trans passes
  sublist := recent.sublist
  same last passes' := recent.same last (passes.trans passes')

omit [IsOrderedAddMonoid α] in
/-- An event happens. -/
theorem record (recent : Recent width now kept all) :
    Recent width now (kept ++ [now]) (all ++ [now]) where
  ordered := by
    refine List.pairwise_append.mpr ⟨recent.ordered, List.pairwise_singleton _ _, ?_⟩
    intro t inside t' isNow
    rw [List.mem_singleton.mp isNow]
    exact recent.past t inside
  past t inside := by
    rcases List.mem_append.mp inside with before | isNow
    · exact recent.past t before
    · exact (List.mem_singleton.mp isNow).le
  sublist := recent.sublist.append (List.Sublist.refl _)
  same later passes := by rw [List.filter_append, List.filter_append, recent.same later passes]

omit [IsOrderedAddMonoid α] in
/-- What a query at `now` leaves. -/
theorem dropWhile_eq (recent : Recent width now kept all) :
    (kept.dropWhile fun t => t < now - width) = all.filter fun t => now - width ≤ t := by
  rw [dropWhile_lt_eq_filter (recent.ordered.sublist recent.sublist), recent.same now le_rfl]

/-- A query drops what is too old for it. -/
theorem prune (recent : Recent width now kept all) :
    Recent width now (kept.dropWhile fun t => t < now - width) all where
  ordered := recent.ordered
  past := recent.past
  sublist := by
    rw [recent.dropWhile_eq]
    exact List.filter_sublist
  same later passes := by
    rw [recent.dropWhile_eq, List.filter_filter]
    refine List.filter_congr fun t _ => ?_
    have narrower : now - width ≤ later - width := sub_le_sub_right passes width
    by_cases inside : later - width ≤ t
    · simp [inside, narrower.trans inside]
    · simp [inside]

omit [IsOrderedAddMonoid α] in
/-- A query counts the events of its window. -/
theorem count (recent : Recent width now kept all) :
    (kept.dropWhile fun t => t < now - width).length =
      all.countP fun t => now - width ≤ t ∧ t ≤ now := by
  rw [recent.dropWhile_eq, ← List.countP_eq_length_filter]
  refine List.countP_congr fun t inside => ?_
  simp [recent.past t inside]

end Recent

end Recent

/-! ## The last values -/

/-- A bounded buffer holds the last values of the stream. -/
theorem rtake_buffered {α : Type*} (n : Nat) (values : List α) (v : α) :
    (values.rtake n ++ [v]).rtake n = (values ++ [v]).rtake n := by
  cases n with
  | zero => simp
  | succ n =>
    rw [List.rtake_concat_succ, List.rtake_concat_succ]
    congr 1
    rw [List.rtake_eq_reverse_take_reverse, List.rtake_eq_reverse_take_reverse,
      List.rtake_eq_reverse_take_reverse, List.reverse_reverse, List.take_take,
      Nat.min_eq_left (Nat.le_succ n)]

/-! ## Values by rank -/

section Rank

variable {α : Type*} [LinearOrder α] {sorted : List α} {i : Nat}

/-- At most `i` values are below the one at index `i`. -/
theorem countP_lt_le (ordered : sorted.Pairwise (· ≤ ·)) (inside : i < sorted.length) :
    (sorted.countP fun v => v < sorted[i]) ≤ i := by
  have none : ((sorted.drop i).countP fun v => v < sorted[i]) = 0 := by
    refine List.countP_eq_zero.mpr fun v later => ?_
    obtain ⟨k, bound, rfl⟩ := List.getElem_of_mem later
    rw [List.getElem_drop]
    rw [List.length_drop] at bound
    have above := ordered.rel_get_of_le
      (show (⟨i, inside⟩ : Fin sorted.length) ≤ ⟨i + k, by omega⟩ from Nat.le_add_right i k)
    simpa using above
  calc (sorted.countP fun v => v < sorted[i])
      = ((sorted.take i ++ sorted.drop i).countP fun v => v < sorted[i]) := by
        rw [List.take_append_drop]
    _ = ((sorted.take i).countP fun v => v < sorted[i]) := by
        rw [List.countP_append, none, Nat.add_zero]
    _ ≤ (sorted.take i).length := List.countP_le_length
    _ ≤ i := List.length_take_le i sorted

/-- More than `i` values are at most the one at index `i`. -/
theorem lt_countP_le (ordered : sorted.Pairwise (· ≤ ·)) (inside : i < sorted.length) :
    i < sorted.countP fun v => v ≤ sorted[i] := by
  have every : ((sorted.take (i + 1)).countP fun v => v ≤ sorted[i]) = i + 1 := by
    rw [List.countP_eq_length.mpr, List.length_take_of_le (by omega)]
    intro v early
    obtain ⟨k, bound, rfl⟩ := List.getElem_of_mem early
    rw [List.getElem_take]
    rw [List.length_take] at bound
    have below := ordered.rel_get_of_le
      (show (⟨k, by omega⟩ : Fin sorted.length) ≤ ⟨i, inside⟩ from by simp; omega)
    simpa using below
  have fewer : ((sorted.take (i + 1)).countP fun v => v ≤ sorted[i]) ≤
      sorted.countP fun v => v ≤ sorted[i] := (List.take_sublist _ _).countP_le
  omega

end Rank

end Window
