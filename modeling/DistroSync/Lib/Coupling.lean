import DistroSync.Lib.Exec

/-!
# Two runs of programs with state and exceptions

`Coupled S R p q` says that `p` and `q`, run from states related by `S`, end alike: both
return, with values related by `R`, or both raise the same exception, and the states
they end in are related by `S` again.  The rules follow the constructs of `EStateM`, so
that a program is coupled with itself once its primitive operations are.
-/

namespace Exec

universe u

variable {ε σ α β γ δ : Type u} {S : σ → σ → Prop}

/-- From `s` and `t`, the two programs end alike. -/
def CoupledAt (S : σ → σ → Prop) (R : α → β → Prop) (p : EStateM ε σ α) (q : EStateM ε σ β)
    (s t : σ) : Prop :=
  match p s, q t with
  | .ok a s', .ok b t' => R a b ∧ S s' t'
  | .error e s', .error f t' => e = f ∧ S s' t'
  | _, _ => False

/-- From related states, the two programs end alike. -/
def Coupled (S : σ → σ → Prop) (R : α → β → Prop) (p : EStateM ε σ α) (q : EStateM ε σ β) :
    Prop :=
  ∀ s t, S s t → CoupledAt S R p q s t

variable {R : α → β → Prop} {T : γ → δ → Prop} {p : EStateM ε σ α} {q : EStateM ε σ β}

theorem CoupledAt.bind {f : α → EStateM ε σ γ} {g : β → EStateM ε σ δ} {s t : σ}
    (first : CoupledAt S R p q s t) (next : ∀ a b, R a b → Coupled S T (f a) (g b)) :
    CoupledAt S T (p >>= f) (q >>= g) s t := by
  unfold CoupledAt at first
  cases left : p s with
  | ok a s' =>
    cases right : q t with
    | ok b t' =>
      simp only [left, right] at first
      have rest := next a b first.1 s' t' first.2
      simpa only [CoupledAt, Bind.bind, EStateM.bind, left, right] using rest
    | error f t' => simp [left, right] at first
  | error e s' =>
    cases right : q t with
    | ok b t' => simp [left, right] at first
    | error f t' =>
      simp only [left, right] at first
      simpa only [CoupledAt, Bind.bind, EStateM.bind, left, right] using first

namespace Coupled

theorem pure {a : α} {b : β} (related : R a b) :
    Coupled S R (Pure.pure a : EStateM ε σ α) (Pure.pure b : EStateM ε σ β) :=
  fun _ _ states => ⟨related, states⟩

theorem throw (e : ε) :
    Coupled S R (MonadExcept.throw e : EStateM ε σ α) (MonadExcept.throw e : EStateM ε σ β) :=
  fun _ _ states => ⟨rfl, states⟩

theorem bind {f : α → EStateM ε σ γ} {g : β → EStateM ε σ δ} (first : Coupled S R p q)
    (next : ∀ a b, R a b → Coupled S T (f a) (g b)) : Coupled S T (p >>= f) (q >>= g) :=
  fun s t states => (first s t states).bind next

/-- After programs that return the same value. -/
theorem bind_eq {p q : EStateM ε σ α} {f : α → EStateM ε σ γ} {g : α → EStateM ε σ δ}
    (first : Coupled S Eq p q) (next : ∀ a, Coupled S T (f a) (g a)) :
    Coupled S T (p >>= f) (q >>= g) :=
  first.bind fun a _ same => same ▸ next a

theorem get : Coupled S S (MonadState.get : EStateM ε σ σ) MonadState.get :=
  fun _ _ states => ⟨states, states⟩

theorem modifyGet {f : σ → α × σ} {g : σ → β × σ}
    (keeps : ∀ s t, S s t → R (f s).1 (g t).1 ∧ S (f s).2 (g t).2) :
    Coupled S R (MonadState.modifyGet f : EStateM ε σ α) (MonadState.modifyGet g) :=
  fun s t states => keeps s t states

theorem modify {f g : σ → σ} (keeps : ∀ s t, S s t → S (f s) (g t)) :
    Coupled S Eq (modifyThe σ f : EStateM ε σ PUnit) (modifyThe σ g) :=
  fun s t states => ⟨rfl, keeps s t states⟩

theorem ite {c : Prop} [Decidable c] {p' : EStateM ε σ α} {q' : EStateM ε σ β}
    (yes : Coupled S R p q) (no : Coupled S R p' q') :
    Coupled S R (if c then p else p') (if c then q else q') := by
  split_ifs
  · exact yes
  · exact no

/-- The values may be related by less. -/
theorem mono {R' : α → β → Prop} (coupled : Coupled S R p q) (imp : ∀ a b, R a b → R' a b) :
    Coupled S R' p q := by
  intro s t states
  have ends := coupled s t states
  unfold CoupledAt at ends ⊢
  cases left : p s <;> cases right : q t <;> simp only [left, right] at ends ⊢
  · exact ⟨imp _ _ ends.1, ends.2⟩
  · exact ends

end Coupled

end Exec
