import Mathlib

/-!
# Runs of a deterministic machine

A machine consumes events: `step s e` is what it answers to `e` in state `s` and the
state it goes to.  `after step s es` is the state a run ends in and `trace step s es`
the events of the run with their answers, in order.

Facts about runs are proved from the end: `run_invariant` reduces "this holds after
every run" to one step, where the relation may mention the trace so far and the step
may assume whatever every step of the run is known to satisfy (`EachStep`).
-/

namespace Trace

universe u v w x

variable {σ : Type u} {ε : Type v} {ο : Type w}

/-- The state reached from `s` by the events `es`. -/
def after (step : σ → ε → ο × σ) (s : σ) : List ε → σ
  | [] => s
  | e :: rest => after step (step s e).2 rest

/-- The events of a run, each with its answer. -/
def trace (step : σ → ε → ο × σ) (s : σ) : List ε → List (ε × ο)
  | [] => []
  | e :: rest => (e, (step s e).1) :: trace step (step s e).2 rest

variable (step : σ → ε → ο × σ) (s : σ)

@[simp] theorem after_nil : after step s [] = s := rfl

@[simp] theorem after_cons (e : ε) (rest : List ε) :
    after step s (e :: rest) = after step (step s e).2 rest := rfl

/-- Runs compose. -/
theorem after_append (front back : List ε) :
    after step s (front ++ back) = after step (after step s front) back := by
  induction front generalizing s with
  | nil => rfl
  | cons e rest ih => exact ih (step s e).2

theorem after_concat (es : List ε) (e : ε) :
    after step s (es ++ [e]) = (step (after step s es) e).2 := by
  rw [after_append]
  rfl

@[simp] theorem trace_nil : trace step s [] = [] := rfl

theorem trace_append (front back : List ε) :
    trace step s (front ++ back) =
      trace step s front ++ trace step (after step s front) back := by
  induction front generalizing s with
  | nil => rfl
  | cons e rest ih =>
    change _ :: trace step (step s e).2 (rest ++ back) = _ :: _
    rw [ih]
    rfl

theorem trace_concat (es : List ε) (e : ε) :
    trace step s (es ++ [e]) =
      trace step s es ++ [(e, (step (after step s es) e).1)] := by
  rw [trace_append]
  rfl

@[simp] theorem map_fst_trace (es : List ε) : (trace step s es).map Prod.fst = es := by
  induction es generalizing s with
  | nil => rfl
  | cons e rest ih => simpa [trace] using ih (step s e).2

/-- A trace is given by its answers. -/
theorem trace_eq_zip (es : List ε) :
    trace step s es = es.zip ((trace step s es).map Prod.snd) := by
  induction es generalizing s with
  | nil => rfl
  | cons e rest ih =>
    exact congrArg ((e, (step s e).1) :: ·) (ih (step s e).2)

/-- Every entry of a trace is a step of the run. -/
theorem trace_split {es : List ε} {e : ε} {o : ο} {before later : List (ε × ο)}
    (split : trace step s es = before ++ (e, o) :: later) :
    ∃ front back, es = front ++ e :: back ∧ trace step s front = before ∧
      o = (step (after step s front) e).1 := by
  have events : es = before.map Prod.fst ++ e :: later.map Prod.fst := by
    rw [← map_fst_trace step s es, split]
    simp
  have lengths : (trace step s (before.map Prod.fst)).length = before.length := by
    rw [← List.length_map Prod.fst, map_fst_trace, List.length_map]
  rw [events, trace_append] at split
  obtain ⟨same, rest⟩ := List.append_inj split lengths
  refine ⟨_, _, events, same, ?_⟩
  simp only [trace, List.cons.injEq, Prod.mk.injEq, true_and] at rest
  exact rest.1.symm

/-- `P` holds at every step of the run, of the events before it, the state it is taken in
and its event. -/
def EachStep (P : List ε → σ → ε → Prop) (es : List ε) : Prop :=
  ∀ front e back, es = front ++ e :: back → P front (after step s front) e

variable {step s}

theorem EachStep.mono {P R : List ε → σ → ε → Prop} {es : List ε}
    (imp : ∀ front t e, P front t e → R front t e) (each : EachStep step s P es) :
    EachStep step s R es :=
  fun front e back split => imp _ _ _ (each front e back split)

theorem EachStep.and {P R : List ε → σ → ε → Prop} {es : List ε}
    (left : EachStep step s P es) (right : EachStep step s R es) :
    EachStep step s (fun front t e => P front t e ∧ R front t e) es :=
  fun front e back split => ⟨left front e back split, right front e back split⟩

/-- What holds at each step of a run holds at each step of its beginning. -/
theorem EachStep.front {P : List ε → σ → ε → Prop} {front back : List ε}
    (each : EachStep step s P (front ++ back)) : EachStep step s P front := by
  intro first e rest split
  exact each first e (rest ++ back) (by rw [split]; simp)

theorem EachStep.last {P : List ε → σ → ε → Prop} {es : List ε} {e : ε}
    (each : EachStep step s P (es ++ [e])) : P es (after step s es) e :=
  each es e [] rfl

theorem EachStep.head {P : σ → ε → Prop} {e : ε} {rest : List ε}
    (each : EachStep step s (fun _ t e => P t e) (e :: rest)) : P s e :=
  each [] e rest rfl

theorem EachStep.tail {P : σ → ε → Prop} {e : ε} {rest : List ε}
    (each : EachStep step s (fun _ t e => P t e) (e :: rest)) :
    EachStep step (step s e).2 (fun _ t e => P t e) rest := by
  intro front later back split
  exact each (e :: front) later back (by rw [split]; rfl)

theorem EachStep.back {P : σ → ε → Prop} {front back : List ε}
    (each : EachStep step s (fun _ t e => P t e) (front ++ back)) :
    EachStep step (after step s front) (fun _ t e => P t e) back := by
  induction front generalizing s with
  | nil => exact each
  | cons e rest ih => exact ih each.tail

theorem EachStep.cons {P : σ → ε → Prop} {e : ε} {rest : List ε} (first : P s e)
    (further : EachStep step (step s e).2 (fun _ t e => P t e) rest) :
    EachStep step s (fun _ t e => P t e) (e :: rest) := by
  intro front e' back split
  cases front with
  | nil =>
    cases split
    exact first
  | cons head front =>
    obtain ⟨rfl, later⟩ := List.cons.inj split
    exact further front e' back later

/-- Conditions compose with runs, as long as they read the state only. -/
theorem EachStep.append {P : σ → ε → Prop} {first second : List ε}
    (each : EachStep step s (fun _ t e => P t e) first)
    (further : EachStep step (after step s first) (fun _ t e => P t e) second) :
    EachStep step s (fun _ t e => P t e) (first ++ second) := by
  induction first generalizing s with
  | nil => exact further
  | cons head rest ih => exact .cons each.head (ih each.tail further)

/-- What every event of a run satisfies in every state. -/
theorem EachStep.of_mem {P : σ → ε → Prop} {es : List ε} (holds : ∀ e ∈ es, ∀ t, P t e) :
    EachStep step s (fun _ t e => P t e) es := by
  rintro front e back rfl
  exact holds e (List.mem_append_right front List.mem_cons_self) _

/-- A test of every step of a run. -/
def all (step : σ → ε → ο × σ) (test : σ → ε → Bool) (s : σ) : List ε → Bool
  | [] => true
  | e :: rest => test s e && all step test (step s e).2 rest

theorem eachStep_of_all {P : σ → ε → Prop} [∀ t e, Decidable (P t e)] {es : List ε}
    (passed : all step (fun t e => decide (P t e)) s es = true) :
    EachStep step s (fun _ t e => P t e) es := by
  intro front e back split
  subst split
  induction front generalizing s with
  | nil =>
    simp only [List.nil_append, all, Bool.and_eq_true] at passed
    exact of_decide_eq_true passed.1
  | cons first rest ih =>
    simp only [List.cons_append, all, Bool.and_eq_true] at passed
    exact ih passed.2

/-- Tokens that never repeat are new at every step. -/
theorem eachStep_fresh {τ : Type x} (token : ε → τ) {es : List ε} (nodup : (es.map token).Nodup) :
    EachStep step s (fun front _ e => token e ∉ front.map token) es := by
  intro front e back split
  subst split
  rw [List.map_append, List.map_cons, List.nodup_append] at nodup
  intro seen
  exact nodup.2.2 _ seen _ (by simp) rfl

/-- What holds after the events `front` and is kept by every further step holds after the
run. -/
theorem run_invariant_from {I : List ε → σ → Prop} {P : List ε → σ → ε → Prop}
    {front back : List ε} (start : I front (after step s front))
    (keeps : ∀ es e, I es (after step s es) → P es (after step s es) e →
      I (es ++ [e]) (step (after step s es) e).2)
    (each : ∀ first e last, back = first ++ e :: last →
      P (front ++ first) (after step s (front ++ first)) e) :
    I (front ++ back) (after step s (front ++ back)) := by
  induction back using List.reverseRecOn with
  | nil => simpa using start
  | append_singleton rest e ih =>
    have before := ih fun first e' last split => each first e' (last ++ [e]) (by simp [split])
    rw [← List.append_assoc, after_concat]
    exact keeps _ e before (each rest e [] rfl)

/-- What holds at the start and is kept by every step holds after the run. -/
theorem run_invariant {I : List ε → σ → Prop} {P : List ε → σ → ε → Prop} {es : List ε}
    (start : I [] s)
    (keeps : ∀ front e, I front (after step s front) → P front (after step s front) e →
      I (front ++ [e]) (step (after step s front) e).2)
    (each : EachStep step s P es) : I es (after step s es) :=
  @run_invariant_from _ _ _ step s I P [] es start keeps each

/-! ### Two runs -/

section TwoRuns

variable {τ : Type x} {R : σ → σ → Prop} {P : σ → ε → Prop} {shared : ε → Bool}

/-- The events that an observer sees, with what the observer sees of the answers. -/
def views (seen : ε → Bool) (view : ο → τ) (history : List (ε × ο)) : List (ε × τ) :=
  (history.filter fun entry => seen entry.1).map fun entry => (entry.1, view entry.2)

/-- A relation between the states of two runs that an event of one run alone does not
leave, and that an event of both runs keeps. -/
structure Unwinds (step : σ → ε → ο × σ) (R : σ → σ → Prop) (P : σ → ε → Prop)
    (shared : ε → Bool) : Prop where
  symm : ∀ {s t}, R s t → R t s
  quiet : ∀ {s t e}, R s t → P s e → shared e = false → R (step s e).2 t
  both : ∀ {s t e}, R s t → P s e → P t e → shared e = true → R (step s e).2 (step t e).2

/-- Steps that are not shared keep two states related. -/
theorem Unwinds.quietly (unwinds : Unwinds step R P shared) {t : σ} {es : List ε}
    (related : R s t) (each : EachStep step s (fun _ t e => P t e) es)
    (alone : ∀ e ∈ es, shared e = false) : R (after step s es) t := by
  induction es generalizing s with
  | nil => exact related
  | cons e rest ih =>
    exact ih (unwinds.quiet related each.head (alone e List.mem_cons_self)) each.tail
      fun later inside => alone later (List.mem_cons_of_mem e inside)

theorem views_append {seen : ε → Bool} {view : ο → τ} (front back : List (ε × ο)) :
    views seen view (front ++ back) = views seen view front ++ views seen view back := by
  simp [views]

theorem views_trace_eq_nil {seen : ε → Bool} {view : ο → τ} {es : List ε}
    (unseen : ∀ e ∈ es, seen e = false) : views seen view (trace step s es) = [] := by
  unfold views
  rw [List.filter_eq_nil_iff.mpr, List.map_nil]
  intro entry inside
  have isEvent : entry.1 ∈ es := by
    rw [← map_fst_trace step s es]
    exact List.mem_map_of_mem inside
  simp [unseen entry.1 isEvent]

/-- **Unwinding.**  Two runs with the same shared events, in related states, end in related
states and look the same to an observer of shared events who cannot tell related states
apart. -/
theorem Unwinds.run (unwinds : Unwinds step R P shared) {seen : ε → Bool} {view : ο → τ}
    (isShared : ∀ e, seen e = true → shared e = true)
    (agree : ∀ {s t e}, R s t → P s e → P t e → seen e = true →
      view (step s e).1 = view (step t e).1)
    {t : σ} {es fs : List ε} (related : R s t)
    (left : EachStep step s (fun _ t e => P t e) es)
    (right : EachStep step t (fun _ t e => P t e) fs)
    (same : es.filter shared = fs.filter shared) :
    R (after step s es) (after step t fs) ∧
      views seen view (trace step s es) = views seen view (trace step t fs) := by
  have unseen {e : ε} (alone : shared e = false) : seen e = false :=
    Bool.eq_false_iff.mpr fun isSeen => by simp [isShared e isSeen] at alone
  induction es generalizing s t fs with
  | nil =>
    have alone : ∀ e ∈ fs, shared e = false := by
      simpa [List.filter_eq_nil_iff] using same.symm
    refine ⟨unwinds.symm (unwinds.quietly (unwinds.symm related) right alone), ?_⟩
    exact (views_trace_eq_nil fun e inside => unseen (alone e inside)).symm
  | cons e rest ih =>
    cases concerns : shared e with
    | false =>
      rw [List.filter_cons_of_neg (by simp [concerns])] at same
      obtain ⟨ends, look⟩ :=
        ih (unwinds.quiet related left.head concerns) left.tail right same
      refine ⟨ends, Eq.trans ?_ look⟩
      simp [views, trace, unseen concerns]
    | true =>
      -- The other run makes the steps of its own that come before the shared event.
      rw [List.filter_cons_of_pos concerns] at same
      obtain ⟨own, back, split, alone, -, later⟩ := List.filter_eq_cons_iff.mp same.symm
      subst split
      have aloneFalse : ∀ e ∈ own, shared e = false := fun e inside => by
        simpa using alone e inside
      have met : R s (after step t own) :=
        unwinds.symm (unwinds.quietly (unwinds.symm related) right.front aloneFalse)
      have onward := right.back
      obtain ⟨ends, look⟩ := ih (unwinds.both met left.head onward.head concerns) left.tail
        onward.tail later.symm
      rw [after_append, trace_append, views_append,
        views_trace_eq_nil fun e inside => unseen (aloneFalse e inside), List.nil_append]
      refine ⟨ends, ?_⟩
      cases isSeen : seen e with
      | false => simpa [views, trace, isSeen] using look
      | true =>
        have answers := agree met left.head onward.head isSeen
        simpa [views, trace, isSeen, answers] using look

/-- Two runs with the same shared events end in related states. -/
theorem Unwinds.after (unwinds : Unwinds step R P shared) {t : σ} {es fs : List ε}
    (related : R s t) (left : EachStep step s (fun _ t e => P t e) es)
    (right : EachStep step t (fun _ t e => P t e) fs)
    (same : es.filter shared = fs.filter shared) :
    R (Trace.after step s es) (Trace.after step t fs) :=
  (@unwinds.run _ _ _ _ _ Unit _ _ _ (fun _ => false) (fun _ => ()) nofun nofun t es fs related
    left right same).1

end TwoRuns

end Trace
