import Mathlib

/-!
# Leases

A lease is granted, renewed by signs of life, and withdrawn by a check that finds the last
sign too old, or when the one who granted it goes down.  The state is the time of the last
sign of life, if the lease is held.

Who looks at the signs alone can tell whether the lease is held: it is if the last grant was
followed by no failure, and by no check that came too late after the sign before it
(`run_eq_some_iff`).
-/

namespace Lease

universe u

/-- What can happen to a lease. -/
inductive Sign (τ : Type u) where
  | grant (now : τ)
  /-- A sign of life of the holder, who may not hold the lease any more. -/
  | renew (now : τ)
  /-- A lease that is too old is withdrawn. -/
  | check (now : τ)
  /-- All leases are lost. -/
  | fail

variable {τ : Type u}

/-- The grants and failures, which decide about the lease at once. -/
def Sign.decides : Sign τ → Bool
  | .grant _ => true
  | .fail => true
  | _ => false

/-- The time of the last sign of life, from `t` on. -/
def last (t : τ) : List (Sign τ) → τ
  | [] => t
  | .renew now :: rest => last now rest
  | _ :: rest => last t rest

/-- The signs since the last that decided. -/
theorem exists_last_decision (signs : List (Sign τ)) :
    (∀ sign ∈ signs, sign.decides = false) ∨
      ∃ before sign after, signs = before ++ sign :: after ∧ sign.decides = true ∧
        ∀ later ∈ after, later.decides = false := by
  induction signs using List.reverseRecOn with
  | nil => exact Or.inl nofun
  | append_singleton front sign ih =>
    cases decides : sign.decides with
    | true => exact Or.inr ⟨front, sign, [], rfl, decides, nofun⟩
    | false =>
      rcases ih with none | ⟨before, decision, after, rfl, decided, since⟩
      · refine Or.inl fun other inside => ?_
        rcases List.mem_append.mp inside with old | new
        · exact none other old
        · rw [List.mem_singleton.mp new]
          exact decides
      · refine Or.inr ⟨before, decision, after ++ [sign], by simp, decided, ?_⟩
        intro other inside
        rcases List.mem_append.mp inside with old | new
        · exact since other old
        · rw [List.mem_singleton.mp new]
          exact decides

variable [Sub τ] [LT τ]

/-- Every check comes in time after the sign of life before it. -/
def InTime (timeout t : τ) (signs : List (Sign τ)) : Prop :=
  ∀ front now back, signs = front ++ .check now :: back → ¬timeout < now - last t front

variable {timeout t : τ} {signs : List (Sign τ)}

theorem inTime_cons {sign : Sign τ} {rest : List (Sign τ)} :
    InTime timeout t (sign :: rest) ↔
      (∀ now, sign = .check now → ¬timeout < now - t) ∧ InTime timeout (last t [sign]) rest := by
  have shift (front : List (Sign τ)) : last t (sign :: front) = last (last t [sign]) front := by
    cases sign <;> rfl
  constructor
  · intro inTime
    refine ⟨?_, ?_⟩
    · rintro now rfl
      exact inTime [] now rest rfl
    · intro front now back split
      rw [← shift]
      exact inTime (sign :: front) now back (congrArg _ split)
  · rintro ⟨here, later⟩ front now back split
    cases front with
    | nil =>
      obtain ⟨isCheck, -⟩ := List.cons.inj split
      exact here now isCheck
    | cons first front =>
      obtain ⟨rfl, further⟩ := List.cons.inj split
      rw [shift]
      exact later front now back further

variable [DecidableLT τ]

/-- One sign. -/
def step (timeout : τ) (lease : Option τ) : Sign τ → Option τ
  | .grant now => some now
  | .renew now => lease.map fun _ => now
  | .check now => lease.filter fun t => !decide (timeout < now - t)
  | .fail => none

/-- The lease after a list of signs. -/
def run (timeout : τ) (lease : Option τ) (signs : List (Sign τ)) : Option τ :=
  signs.foldl (step timeout) lease

theorem run_append (lease : Option τ) (front back : List (Sign τ)) :
    run timeout lease (front ++ back) = run timeout (run timeout lease front) back :=
  List.foldl_append

/-- Only a grant brings a lease back. -/
theorem run_none (undecided : ∀ sign ∈ signs, sign.decides = false) :
    run timeout none signs = none := by
  induction signs with
  | nil => rfl
  | cons sign rest ih =>
    have onward := ih fun later inside => undecided later (List.mem_cons_of_mem _ inside)
    have here := undecided sign List.mem_cons_self
    cases sign with
    | grant now => cases here
    | renew now => exact onward
    | check now => exact onward
    | fail => cases here

/-- **Signs that decide nothing.**  The lease stays held as long as every check comes in
time. -/
theorem run_some (undecided : ∀ sign ∈ signs, sign.decides = false) :
    (InTime timeout t signs → run timeout (some t) signs = some (last t signs)) ∧
      (¬InTime timeout t signs → run timeout (some t) signs = none) := by
  induction signs generalizing t with
  | nil => exact ⟨fun _ => rfl, fun late => absurd (fun front _ _ split => by simp at split) late⟩
  | cons sign rest ih =>
    have further : ∀ sign ∈ rest, sign.decides = false := fun later inside =>
      undecided later (List.mem_cons_of_mem _ inside)
    have here := undecided sign List.mem_cons_self
    rw [inTime_cons]
    cases sign with
    | grant now => cases here
    | fail => cases here
    | renew now =>
      obtain ⟨held, lost⟩ := @ih now further
      exact ⟨fun inTime => held inTime.2, fun late => lost fun inTime => late ⟨nofun, inTime⟩⟩
    | check now =>
      obtain ⟨held, lost⟩ := @ih t further
      by_cases expired : timeout < now - t
      · -- the check withdraws the lease, and only a grant would bring it back
        have withdrawn : step timeout (some t) (.check now) = none := by
          simp [step, expired]
        refine ⟨fun inTime => absurd expired (inTime.1 now rfl), fun _ => ?_⟩
        show run timeout (step timeout (some t) (.check now)) rest = none
        rw [withdrawn]
        exact run_none further
      · have kept : step timeout (some t) (.check now) = some t := by
          simp [step, expired]
        show (_ → run timeout (step timeout (some t) (.check now)) rest = _) ∧
          (_ → run timeout (step timeout (some t) (.check now)) rest = _)
        rw [kept]
        refine ⟨fun inTime => held inTime.2, fun late => lost fun inTime => late ⟨?_, inTime⟩⟩
        rintro other ⟨⟩
        exact expired

/-- **When a lease is held.**  There was a grant, nothing was granted or lost since, and every
check since came in time; and then the last sign of life is the time that is recorded. -/
theorem run_eq_some_iff {seen : τ} :
    run timeout none signs = some seen ↔
      ∃ before now after, signs = before ++ .grant now :: after ∧
        (∀ sign ∈ after, sign.decides = false) ∧ InTime timeout now after ∧
          last now after = seen := by
  constructor
  · intro held
    rcases exists_last_decision signs with undecided | ⟨before, sign, after, rfl, decides, since⟩
    · rw [run_none undecided] at held
      cases held
    · rw [run_append] at held
      cases sign with
      | grant now =>
        change run timeout (some now) after = some seen at held
        obtain ⟨kept, lost⟩ := @run_some τ _ _ timeout now after _ since
        by_cases inTime : InTime timeout now after
        · rw [kept inTime] at held
          exact ⟨before, now, after, rfl, since, inTime, Option.some.inj held⟩
        · rw [lost inTime] at held
          cases held
      | fail =>
        change run timeout none after = some seen at held
        rw [run_none since] at held
        cases held
      | renew now => cases decides
      | check now => cases decides
  · rintro ⟨before, now, after, rfl, since, inTime, rfl⟩
    rw [run_append]
    exact (run_some since).1 inTime

end Lease
