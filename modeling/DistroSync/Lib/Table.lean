import Mathlib

/-!
# Keyed tables

A `Table key` is a finite list of rows in which no two rows have the same `key`.
It is the common shape of an insertion-ordered dictionary (rows are key-value
pairs and `key` is the first projection), of a dictionary whose values carry
their own key, and of a relational table with a primary key.

The row order is kept, so that iteration order is part of the value.  `put`
overwrites in place and appends a new key at the end; `upsert` removes the old row
and appends the new one.  The uniqueness of keys is a field, so no table with a
repeated key can be built and lookups never have to say which row they mean.

Two views are provided and related: the *lookup* view `find?`, in which every
operation is a pointwise update, and the *multiset* view `(t.rows : Multiset _)`,
in which every operation inserts or removes one row.
-/

namespace Keyed

universe u v

/-- A list of rows with pairwise distinct keys. -/
structure Table {α : Type u} {β : Type v} (key : β → α) where
  rows : List β
  nodup : (rows.map key).Nodup

namespace Table

variable {α : Type u} {β : Type v} {key : β → α}

@[ext] theorem ext {s t : Table key} (same : s.rows = t.rows) : s = t := by
  cases s
  cases t
  cases same
  rfl

/-- The table without rows. -/
def empty : Table key := ⟨[], List.nodup_nil⟩

instance : Inhabited (Table key) := ⟨empty⟩

instance : Membership β (Table key) := ⟨fun t r => r ∈ t.rows⟩

@[simp] theorem not_mem_empty (r : β) : r ∉ (empty : Table key) := by
  change r ∉ ([] : List β)
  simp

theorem mem_rows {t : Table key} {r : β} : r ∈ t.rows ↔ r ∈ t := Iff.rfl

/-- Two rows with the same key are the same row. -/
theorem eq_of_key_eq (t : Table key) {r r' : β} (mem : r ∈ t) (mem' : r' ∈ t)
    (same : key r = key r') : r = r' :=
  List.inj_on_of_nodup_map t.nodup mem mem' same

/-- The keys in use, in row order. -/
def keys (t : Table key) : List α := t.rows.map key

theorem mem_keys {t : Table key} {k : α} : k ∈ t.keys ↔ ∃ r ∈ t, key r = k :=
  List.mem_map

theorem nodup_keys (t : Table key) : t.keys.Nodup := t.nodup

/-- The rows that satisfy `p`, in the same order. -/
def filter (p : β → Bool) (t : Table key) : Table key :=
  ⟨t.rows.filter p, t.nodup.sublist (List.filter_sublist.map key)⟩

@[simp] theorem mem_filter {t : Table key} {p : β → Bool} {r : β} :
    r ∈ t.filter p ↔ r ∈ t ∧ p r = true := List.mem_filter

/-- Every row is changed by `f`, which leaves its key alone. -/
def map (f : β → β) (keeps : ∀ r, key (f r) = key r) (t : Table key) : Table key where
  rows := t.rows.map f
  nodup := by
    rw [List.map_map, show key ∘ f = key from funext keeps]
    exact t.nodup

theorem map_eq_self {f : β → β} {keeps : ∀ r, key (f r) = key r} {t : Table key}
    (same : ∀ r ∈ t, f r = r) : t.map f keeps = t :=
  ext ((List.map_congr_left same).trans (List.map_id _))

section Lookup

variable [DecidableEq α]

/-- The row stored under `k`. -/
def find? (t : Table key) (k : α) : Option β := t.rows.find? fun r => key r = k

@[simp] theorem find?_empty (k : α) : (empty : Table key).find? k = none := rfl

theorem mem_of_find? {t : Table key} {k : α} {r : β} (found : t.find? k = some r) :
    r ∈ t := List.mem_of_find?_eq_some found

theorem key_of_find? {t : Table key} {k : α} {r : β} (found : t.find? k = some r) :
    key r = k := by
  simpa using List.find?_some found

/-- Keys are unique, so that a lookup finds the row itself. -/
theorem find?_of_mem {t : Table key} {r : β} (mem : r ∈ t) :
    t.find? (key r) = some r := by
  cases found : t.find? (key r) with
  | none =>
    have absent := List.find?_eq_none.mp found r mem
    simp at absent
  | some r' =>
    exact congrArg some (t.eq_of_key_eq (mem_of_find? found) mem (key_of_find? found))

theorem find?_eq_some {t : Table key} {k : α} {r : β} :
    t.find? k = some r ↔ r ∈ t ∧ key r = k := by
  constructor
  · intro found
    exact ⟨mem_of_find? found, key_of_find? found⟩
  · rintro ⟨mem, rfl⟩
    exact find?_of_mem mem

theorem find?_eq_none {t : Table key} {k : α} :
    t.find? k = none ↔ ∀ r ∈ t, key r ≠ k := by
  simp [find?, List.find?_eq_none, mem_rows]

theorem find?_isSome {t : Table key} {k : α} :
    (t.find? k).isSome = true ↔ k ∈ t.keys := by
  rw [Option.isSome_iff_exists, mem_keys]
  exact exists_congr fun _ => find?_eq_some

theorem find?_eq_none_iff_not_mem_keys {t : Table key} {k : α} :
    t.find? k = none ↔ k ∉ t.keys := by
  rw [← find?_isSome]
  cases t.find? k <;> simp

/-! ### Removal -/

/-- Remove the row stored under `k`, if there is one. -/
def erase (t : Table key) (k : α) : Table key := t.filter fun r => key r ≠ k

@[simp] theorem mem_erase {t : Table key} {k : α} {r : β} :
    r ∈ t.erase k ↔ r ∈ t ∧ key r ≠ k := by
  simp [erase]

@[simp] theorem find?_erase_self (t : Table key) (k : α) : (t.erase k).find? k = none := by
  simp [find?_eq_none]

theorem find?_erase_of_ne (t : Table key) {k k' : α} (ne : k' ≠ k) :
    (t.erase k).find? k' = t.find? k' := by
  apply Option.ext
  intro r
  simp only [find?_eq_some, mem_erase]
  constructor
  · rintro ⟨⟨mem, -⟩, same⟩
    exact ⟨mem, same⟩
  · rintro ⟨mem, same⟩
    exact ⟨⟨mem, same ▸ ne⟩, same⟩

/-- There is nothing to erase. -/
theorem erase_eq_self {t : Table key} {k : α} (absent : t.find? k = none) :
    t.erase k = t := by
  apply ext
  have all := find?_eq_none.mp absent
  exact List.filter_eq_self.mpr fun r mem => by simpa using all r mem

/-- Removing a present row removes exactly that row. -/
theorem coe_rows_of_find? {t : Table key} {k : α} {r : β} (found : t.find? k = some r) :
    (t.rows : Multiset β) = r ::ₘ ((t.erase k).rows : Multiset β) := by
  obtain ⟨mem, rfl⟩ := find?_eq_some.mp found
  have split : ∀ l : List β, (l.map key).Nodup → r ∈ l →
      (l : Multiset β) = r ::ₘ ((l.filter fun x => key x ≠ key r : List β) : Multiset β) := by
    intro l
    induction l with
    | nil => intro _ absurd; simp at absurd
    | cons x rest ih =>
      intro nodup member
      rw [List.map_cons, List.nodup_cons] at nodup
      by_cases same : key x = key r
      · -- the head is the row itself, and no later row shares its key
        have head : x = r := by
          rcases List.mem_cons.mp member with rfl | later
          · rfl
          · exact absurd (same ▸ List.mem_map_of_mem later) nodup.1
        subst head
        have keep : rest.filter (fun y => key y ≠ key x) = rest :=
          List.filter_eq_self.mpr fun y inRest => by
            simpa using fun equal : key y = key x =>
              nodup.1 (equal ▸ List.mem_map_of_mem inRest)
        rw [List.filter_cons_of_neg (by simp), keep, Multiset.cons_coe]
      · have later : r ∈ rest := by
          rcases List.mem_cons.mp member with rfl | later
          · exact absurd rfl same
          · exact later
        have tail := ih nodup.2 later
        simp only [ne_eq, same, not_false_eq_true, decide_true, List.filter_cons_of_pos,
          ← Multiset.cons_coe]
        rw [Multiset.cons_swap, ← tail]
  exact split t.rows t.nodup mem

/-! ### Insertion -/

private theorem nodup_map_replace {rows : List β} {v : β}
    (nodup : (rows.map key).Nodup) :
    ((rows.map fun r => if key r = key v then v else r).map key).Nodup := by
  have same : (rows.map fun r => if key r = key v then v else r).map key = rows.map key := by
    rw [List.map_map]
    apply List.map_congr_left
    intro r _
    by_cases hit : key r = key v
    · simp [hit]
    · simp [hit]
  rw [same]
  exact nodup

private theorem nodup_map_append {t : Table key} {v : β} (absent : t.find? (key v) = none) :
    ((t.rows ++ [v]).map key).Nodup := by
  have fresh := find?_eq_none_iff_not_mem_keys.mp absent
  rw [List.map_append, List.nodup_append]
  refine ⟨t.nodup, by simp, ?_⟩
  intro k inKeys k' inSingle
  rintro rfl
  simp only [List.map_cons, List.map_nil, List.mem_singleton] at inSingle
  exact fresh (inSingle ▸ inKeys)

/-- Store `v` under its key: overwrite in place, or append a new key at the end. -/
def put (t : Table key) (v : β) : Table key :=
  match present : t.find? (key v) with
  | some _ =>
    ⟨t.rows.map fun r => if key r = key v then v else r, nodup_map_replace t.nodup⟩
  | none => ⟨t.rows ++ [v], nodup_map_append present⟩

theorem rows_put_of_absent {t : Table key} {v : β} (absent : t.find? (key v) = none) :
    (t.put v).rows = t.rows ++ [v] := by
  unfold put
  split
  · rename_i present
    rw [absent] at present
    cases present
  · rfl

/-- A row with a known key keeps the place of the old one, as in a dictionary. -/
theorem rows_put_of_present {t : Table key} {v r : β} (present : t.find? (key v) = some r) :
    (t.put v).rows = t.rows.map fun r => if key r = key v then v else r := by
  unfold put
  split
  · rfl
  · rename_i absent
    rw [absent] at present
    cases present

/-- A row that is overwritten keeps its place. -/
theorem rows_put_of_split {t : Table key} {v r : β} {before after : List β}
    (split : t.rows = before ++ r :: after) (same : key r = key v) :
    (t.put v).rows = before ++ v :: after := by
  have present : t.find? (key v) = some r := by
    rw [← same]
    refine find?_of_mem ?_
    show r ∈ t.rows
    rw [split]
    exact List.mem_append_right _ List.mem_cons_self
  have nodup := t.nodup
  rw [split, List.map_append, List.map_cons, List.nodup_append, List.nodup_cons] at nodup
  have others (row : β) (inside : row ∈ before ∨ row ∈ after) : key row ≠ key v := by
    rw [← same]
    rcases inside with earlier | later
    · exact nodup.2.2 _ (List.mem_map_of_mem earlier) _ List.mem_cons_self
    · intro equal
      exact nodup.2.1.1 (equal ▸ List.mem_map_of_mem later)
  have kept (rows : List β) (inside : ∀ row ∈ rows, row ∈ before ∨ row ∈ after) :
      (rows.map fun row => if key row = key v then v else row) = rows := by
    refine (List.map_congr_left fun row isRow => ?_).trans (List.map_id _)
    exact if_neg (others row (inside row isRow))
  rw [rows_put_of_present present, split, List.map_append, List.map_cons, if_pos same,
    kept before fun row => Or.inl, kept after fun row => Or.inr]

/-- A row that is put replaces the one with its key. -/
theorem mem_put {t : Table key} {v r : β} :
    r ∈ t.put v ↔ r = v ∨ (r ∈ t ∧ key r ≠ key v) := by
  cases present : t.find? (key v) with
  | none =>
    have absent := find?_eq_none.mp present
    change r ∈ (t.put v).rows ↔ _
    rw [rows_put_of_absent present, List.mem_append, List.mem_singleton]
    constructor
    · rintro (old | rfl)
      · exact Or.inr ⟨old, absent r old⟩
      · exact Or.inl rfl
    · rintro (rfl | ⟨old, -⟩)
      · exact Or.inr rfl
      · exact Or.inl old
  | some w =>
    obtain ⟨inTable, sameKey⟩ := find?_eq_some.mp present
    change r ∈ (t.put v).rows ↔ _
    rw [rows_put_of_present present, List.mem_map]
    constructor
    · rintro ⟨x, member, rfl⟩
      by_cases hit : key x = key v
      · simp [hit]
      · rw [if_neg hit]
        exact Or.inr ⟨member, hit⟩
    · rintro (rfl | ⟨old, other⟩)
      · exact ⟨w, inTable, by simp [sameKey]⟩
      · exact ⟨r, old, by simp [other]⟩

@[simp] theorem find?_put_self (t : Table key) (v : β) : (t.put v).find? (key v) = some v := by
  rw [find?_eq_some, mem_put]
  exact ⟨Or.inl rfl, rfl⟩

theorem find?_put_of_ne (t : Table key) {v : β} {k : α} (ne : k ≠ key v) :
    (t.put v).find? k = t.find? k := by
  apply Option.ext
  intro r
  simp only [find?_eq_some, mem_put]
  constructor
  · rintro ⟨rfl | ⟨mem, -⟩, same⟩
    · exact absurd same.symm ne
    · exact ⟨mem, same⟩
  · rintro ⟨mem, rfl⟩
    exact ⟨Or.inr ⟨mem, ne⟩, rfl⟩

theorem mem_keys_put {t : Table key} {v : β} {k : α} :
    k ∈ (t.put v).keys ↔ k = key v ∨ k ∈ t.keys := by
  rw [← find?_isSome, ← find?_isSome]
  by_cases same : k = key v
  · subst same
    simp
  · simp [find?_put_of_ne t same, same]

theorem mem_keys_erase {t : Table key} {k k' : α} :
    k ∈ (t.erase k').keys ↔ k ∈ t.keys ∧ k ≠ k' := by
  rw [← find?_isSome, ← find?_isSome]
  by_cases same : k = k'
  · subst same
    simp
  · simp [find?_erase_of_ne t same, same]

/-- Storing a row replaces whatever its key held before. -/
theorem coe_rows_put (t : Table key) (v : β) :
    ((t.put v).rows : Multiset β) = v ::ₘ ((t.erase (key v)).rows : Multiset β) := by
  have same : (t.put v).erase (key v) = t.erase (key v) := by
    cases present : t.find? (key v) with
    | none =>
      apply ext
      change (t.put v).rows.filter _ = t.rows.filter _
      rw [rows_put_of_absent present]
      simp
    | some w =>
      apply ext
      change (t.put v).rows.filter _ = t.rows.filter _
      rw [rows_put_of_present present]
      induction t.rows with
      | nil => rfl
      | cons x rest ih =>
        by_cases hit : key x = key v
        · simpa [hit] using ih
        · simpa [hit] using ih
  rw [coe_rows_of_find? (find?_put_self t v), same]

theorem coe_rows_put_of_absent {t : Table key} {v : β} (absent : t.find? (key v) = none) :
    ((t.put v).rows : Multiset β) = v ::ₘ (t.rows : Multiset β) := by
  rw [coe_rows_put, erase_eq_self absent]

/-- Store `v` as the newest row, dropping the row its key held before. -/
def upsert (t : Table key) (v : β) : Table key :=
  ⟨(t.erase (key v)).rows ++ [v], nodup_map_append (find?_erase_self t (key v))⟩

/-- SQLite's `INSERT OR REPLACE` has the same rows, in another order. -/
theorem mem_upsert {t : Table key} {v r : β} :
    r ∈ t.upsert v ↔ r = v ∨ (r ∈ t ∧ key r ≠ key v) := by
  change r ∈ (t.erase (key v)).rows ++ [v] ↔ _
  rw [List.mem_append, List.mem_singleton, mem_rows, mem_erase, or_comm]

@[simp] theorem find?_upsert_self (t : Table key) (v : β) :
    (t.upsert v).find? (key v) = some v := by
  rw [find?_eq_some, mem_upsert]
  exact ⟨Or.inl rfl, rfl⟩

/-! ### Update in place -/

/-- Apply `f`, which keeps keys, to the row stored under `k`. -/
def modify (t : Table key) (k : α) (f : β → β) (keeps : ∀ r, key (f r) = key r) : Table key :=
  ⟨t.rows.map fun r => if key r = k then f r else r, by
    have same : (t.rows.map fun r => if key r = k then f r else r).map key = t.rows.map key := by
      rw [List.map_map]
      apply List.map_congr_left
      intro r _
      by_cases hit : key r = k
      · simp [hit, keeps]
      · simp [hit]
    rw [same]
    exact t.nodup⟩

theorem mem_modify {t : Table key} {k : α} {f : β → β} (keeps : ∀ r, key (f r) = key r) {r : β} :
    r ∈ t.modify k f keeps ↔ (r ∈ t ∧ key r ≠ k) ∨ ∃ r₀ ∈ t, key r₀ = k ∧ r = f r₀ := by
  change r ∈ t.rows.map _ ↔ _
  rw [List.mem_map]
  constructor
  · rintro ⟨x, member, rfl⟩
    by_cases hit : key x = k
    · exact Or.inr ⟨x, member, hit, by simp [hit]⟩
    · rw [if_neg hit]
      exact Or.inl ⟨member, hit⟩
  · rintro (⟨member, other⟩ | ⟨r₀, member, hit, rfl⟩)
    · exact ⟨r, member, by simp [other]⟩
    · exact ⟨r₀, member, by simp [hit]⟩

/-! ### Sums over the rows -/

/-- The sum of `f` over the rows. -/
def total (f : β → ℕ) (t : Table key) : ℕ := (t.rows.map f).sum

/-- A row that is removed takes its share with it. -/
theorem total_of_find? {t : Table key} {k : α} {r : β} (found : t.find? k = some r) (f : β → ℕ) :
    t.total f = f r + (t.erase k).total f := by
  have split := congrArg (fun rows => (Multiset.map f rows).sum) (coe_rows_of_find? found)
  simpa [total] using split

theorem total_put (t : Table key) (v : β) (f : β → ℕ) :
    (t.put v).total f = f v + (t.erase (key v)).total f := by
  have split := congrArg (fun rows => (Multiset.map f rows).sum) (coe_rows_put t v)
  simpa [total] using split

theorem total_erase_le (t : Table key) (k : α) (f : β → ℕ) : (t.erase k).total f ≤ t.total f := by
  cases found : t.find? k with
  | none => rw [erase_eq_self found]
  | some r =>
    rw [total_of_find? found f]
    exact Nat.le_add_left _ _

/-! ### Tables with related rows -/

/-- The rows of two tables are related one by one, in the same order. -/
def Related (R : β → β → Prop) (s t : Table key) : Prop := List.Forall₂ R s.rows t.rows

section Related

variable {R : β → β → Prop} {s t : Table key}

/-- A lookup finds related rows on both sides, or none. -/
theorem Related.find? (keyed : ∀ r r', R r r' → key r = key r') (related : Related R s t) (k : α) :
    Option.Rel R (s.find? k) (t.find? k) := by
  unfold Table.find?
  unfold Related at related
  generalize s.rows = rows, t.rows = rows' at related
  induction related with
  | nil => exact .none
  | @cons r r' rest rest' same _ ih =>
    rw [List.find?_cons, List.find?_cons, keyed r r' same]
    by_cases hit : key r' = k
    · simpa [hit] using Option.Rel.some same
    · simpa [hit] using ih

/-- Related rows have one key, and so replace rows at the same place. -/
theorem Related.put (keyed : ∀ r r', R r r' → key r = key r') (related : Related R s t)
    {v v' : β} (same : R v v') : Related R (s.put v) (t.put v') := by
  have found := related.find? keyed (key v)
  have sameKey := keyed v v' same
  unfold Related
  cases present : s.find? (key v) with
  | none =>
    rw [present] at found
    have absent : t.find? (key v') = none := by
      rw [← sameKey]
      generalize t.find? (key v) = other at found
      cases found
      rfl
    rw [rows_put_of_absent present, rows_put_of_absent absent]
    exact List.rel_append related (.cons same .nil)
  | some r =>
    rw [present] at found
    obtain ⟨r', there⟩ : ∃ r', t.find? (key v') = some r' := by
      rw [← sameKey]
      generalize t.find? (key v) = other at found
      cases found
      exact ⟨_, rfl⟩
    rw [rows_put_of_present present, rows_put_of_present there]
    refine List.rel_map (fun row row' sameRow => ?_) related
    rw [← keyed row row' sameRow, ← sameKey]
    split_ifs
    · exact same
    · exact sameRow

omit [DecidableEq α] in
theorem Related.refl (reflexive : ∀ r, R r r) (t : Table key) : Related R t t :=
  List.forall₂_same.mpr fun r _ => reflexive r

omit [DecidableEq α] in
theorem Related.symm (symmetric : ∀ r r', R r r' → R r' r) (related : Related R s t) :
    Related R t s :=
  List.Forall₂.flip (List.Forall₂.imp symmetric related)

omit [DecidableEq α] in
theorem Related.trans (transitive : ∀ r r' r'', R r r' → R r' r'' → R r r'') {u : Table key}
    (related : Related R s t) (further : Related R t u) : Related R s u := by
  unfold Related at *
  generalize s.rows = rows, t.rows = rows', u.rows = rows'' at related further
  induction related generalizing rows'' with
  | nil => exact further
  | cons same _ ih =>
    cases further with
    | cons same' rest => exact .cons (transitive _ _ _ same same') (ih _ rest)

/-- Overwriting a row by a related one. -/
theorem Related.overwrite (reflexive : ∀ r, R r r) {v r : β} (found : t.find? (key v) = some r)
    (same : R r v) : Related R t (t.put v) := by
  unfold Related
  rw [rows_put_of_present found, List.forall₂_map_right_iff]
  refine List.forall₂_same.mpr fun row inside => ?_
  split_ifs with hit
  · rw [t.eq_of_key_eq inside (mem_of_find? found) (hit.trans (key_of_find? found).symm)]
    exact same
  · exact reflexive row

omit [DecidableEq α] in
theorem Related.filter {p : β → Bool} (agree : ∀ r r', R r r' → p r = p r')
    (related : Related R s t) : Related R (s.filter p) (t.filter p) :=
  List.rel_filter (fun r r' same => by simp [agree r r' same]) related

end Related

end Lookup

end Table

end Keyed
