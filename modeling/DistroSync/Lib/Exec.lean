import Mathlib

/-!
# Weakest preconditions for programs with state and exceptions

`EStateM ε σ α` is a computation over a state `σ` that returns a value or raises an
exception, and keeps the state it had reached when it raises.  `wp m Q E s` says
that `m`, started in `s`, ends in a state satisfying `Q` if it returns and `E` if
it raises.

The rules for the constructs a program is written with are equations, so that
`simp` with them turns a statement about a program into one about its primitive
operations; each primitive gets its own rule where it is defined.
-/

namespace Exec

universe u

variable {ε σ α β : Type u}

/-- `m`, run from `s`, returns into `Q` or raises into `E`. -/
def wp (m : EStateM ε σ α) (Q : α → σ → Prop) (E : ε → σ → Prop) (s : σ) : Prop :=
  match m s with
  | .ok a s' => Q a s'
  | .error e s' => E e s'

variable {Q : α → σ → Prop} {E : ε → σ → Prop} {s : σ}

theorem wp_of_ok {m : EStateM ε σ α} {a : α} {s' : σ} (runs : m s = .ok a s')
    (holds : wp m Q E s) : Q a s' := by
  simpa [wp, runs] using holds

theorem wp_of_error {m : EStateM ε σ α} {e : ε} {s' : σ} (runs : m s = .error e s')
    (holds : wp m Q E s) : E e s' := by
  simpa [wp, runs] using holds

theorem wp_of_forall {m : EStateM ε σ α} (returns : ∀ a s', Q a s') (raises : ∀ e s', E e s') :
    wp m Q E s := by
  unfold wp
  split
  · exact returns _ _
  · exact raises _ _

theorem wp_congr {m m' : EStateM ε σ α} (same : m s = m' s) : wp m Q E s ↔ wp m' Q E s := by
  unfold wp
  rw [same]

/-- A program that raises. -/
theorem wp_of_raises {m : EStateM ε σ α} {e : ε} {s' : σ} (raises : m s = .error e s')
    (holds : E e s') : wp m Q E s := by
  unfold wp
  rw [raises]
  exact holds

@[simp] theorem wp_pure (a : α) : wp (pure a : EStateM ε σ α) Q E s ↔ Q a s := Iff.rfl

@[simp] theorem wp_throw (e : ε) : wp (throw e : EStateM ε σ α) Q E s ↔ E e s := Iff.rfl

@[simp] theorem wp_bind {m : EStateM ε σ β} {f : β → EStateM ε σ α} :
    wp (m >>= f) Q E s ↔ wp m (fun b s' => wp (f b) Q E s') E s := by
  cases result : m s with
  | ok b s' => simp [wp, bind, EStateM.bind, result]
  | error e s' => simp [wp, bind, EStateM.bind, result]

@[simp] theorem wp_map {m : EStateM ε σ β} {f : β → α} :
    wp (f <$> m) Q E s ↔ wp m (fun b s' => Q (f b) s') E s := by
  cases result : m s with
  | ok b s' => simp [wp, Functor.map, EStateM.map, result]
  | error e s' => simp [wp, Functor.map, EStateM.map, result]

@[simp] theorem wp_get {Q : σ → σ → Prop} : wp (get : EStateM ε σ σ) Q E s ↔ Q s s := Iff.rfl

@[simp] theorem wp_set {s₁ : σ} {Q : PUnit → σ → Prop} :
    wp (set s₁ : EStateM ε σ PUnit) Q E s ↔ Q ⟨⟩ s₁ := Iff.rfl

@[simp] theorem wp_modify {f : σ → σ} {Q : PUnit → σ → Prop} :
    wp (modify f : EStateM ε σ PUnit) Q E s ↔ Q ⟨⟩ (f s) := Iff.rfl

@[simp] theorem wp_modifyGet {f : σ → α × σ} :
    wp (modifyGet f : EStateM ε σ α) Q E s ↔ Q (f s).1 (f s).2 := Iff.rfl

theorem wp_ite {c : Prop} [Decidable c] {m m' : EStateM ε σ α} :
    wp (if c then m else m') Q E s ↔ (c → wp m Q E s) ∧ (¬c → wp m' Q E s) := by
  by_cases holds : c
  · simp [holds]
  · simp [holds]

/-- Consequence: both postconditions may be weakened. -/
theorem wp_mono {m : EStateM ε σ α} {Q' : α → σ → Prop} {E' : ε → σ → Prop}
    (returns : ∀ a s', Q a s' → Q' a s') (raises : ∀ e s', E e s' → E' e s')
    (holds : wp m Q E s) : wp m Q' E' s := by
  cases result : m s with
  | ok a s' => simpa [wp, result] using returns a s' (wp_of_ok result holds)
  | error e s' => simpa [wp, result] using raises e s' (wp_of_error result holds)

theorem of_map_eq_ok {γ δ : Type*} {x : Except ε γ} {f : γ → δ} {d : δ}
    (mapped : x.map f = .ok d) : ∃ c, x = .ok c ∧ f c = d := by
  cases x with
  | error e => cases mapped
  | ok c =>
    cases mapped
    exact ⟨c, rfl, rfl⟩

/-- A computation that returns has got past its first part. -/
theorem of_bind_eq_ok {γ δ : Type} {x : Except ε γ} {f : γ → Except ε δ} {d : δ}
    (bound : (x >>= f) = .ok d) : ∃ c, x = .ok c ∧ f c = .ok d := by
  cases x with
  | error e => cases bound
  | ok c => exact ⟨c, rfl, bound⟩

end Exec
