import DistroSync.Lib.Trace

/-!
# What a part sees of a run

A component of a machine, or a more abstract machine, takes part in the runs of the whole:
each step of the whole is, in its view, a list of events of its own, often none or one.  If
every step leaves the component where these events take it, then so does the run
(`project_after`), and whatever is observed step by step is observed of the run
(`project_trace`).
-/

namespace Trace

universe u v w u' v' w' x

variable {σ : Type u} {ε : Type v} {ο : Type w} {σ' : Type u'} {ε' : Type v'} {ο' : Type w'}
  {τ : Type x}

/-- The events that the component sees in a run of the whole. -/
def project (step : σ → ε → ο × σ) (view : σ → ε → List ε') (s : σ) : List ε → List ε'
  | [] => []
  | e :: rest => view s e ++ project step view (step s e).2 rest

/-- What the component sees comes from some step. -/
theorem mem_project {step : σ → ε → ο × σ} {view : σ → ε → List ε'} {s : σ} {es : List ε} {e' : ε'}
    (inside : e' ∈ project step view s es) : ∃ t, ∃ e ∈ es, e' ∈ view t e := by
  induction es generalizing s with
  | nil => cases inside
  | cons e rest ih =>
    rcases List.mem_append.mp inside with here | later
    · exact ⟨s, e, List.mem_cons_self, here⟩
    · obtain ⟨t, e₀, isLater, seen⟩ := ih later
      exact ⟨t, e₀, List.mem_cons_of_mem _ isLater, seen⟩

/-- The step of the whole is what the component `part` makes of its own events, and the two
are observed in the same way. -/
structure Shows (step : σ → ε → ο × σ) (step' : σ' → ε' → ο' × σ') (part : σ → σ')
    (view : σ → ε → List ε') (observe : ε × ο → List τ) (observe' : ε' × ο' → List τ) (s : σ)
    (e : ε) : Prop where
  ends : after step' (part s) (view s e) = part (step s e).2
  observed : (trace step' (part s) (view s e)).flatMap observe' = observe (e, (step s e).1)

variable {step : σ → ε → ο × σ} {step' : σ' → ε' → ο' × σ'} {part : σ → σ'}
  {view : σ → ε → List ε'} {observe : ε × ο → List τ} {observe' : ε' × ο' → List τ} {s : σ}
  {es : List ε}

/-- **The component's own run ends in its part of the final state.** -/
theorem project_after
    (ends : EachStep step s (fun _ t e => after step' (part t) (view t e) = part (step t e).2) es) :
    after step' (part s) (project step view s es) = part (after step s es) := by
  induction es generalizing s with
  | nil => rfl
  | cons e rest ih =>
    show after step' (part s) (view s e ++ project step view (step s e).2 rest) = _
    rw [after_append, ends.head, ih ends.tail]
    rfl

/-- **What is observed of the component's run is what is observed of the whole.** -/
theorem project_trace
    (shows : EachStep step s (fun _ t e => Shows step step' part view observe observe' t e) es) :
    (trace step' (part s) (project step view s es)).flatMap observe' =
      (trace step s es).flatMap observe := by
  induction es generalizing s with
  | nil => rfl
  | cons e rest ih =>
    show (trace step' (part s) (view s e ++ project step view (step s e).2 rest)).flatMap _ =
      observe (e, (step s e).1) ++ (trace step (step s e).2 rest).flatMap observe
    rw [trace_append, List.flatMap_append, shows.head.observed, shows.head.ends, ih shows.tail]

end Trace
