import DistroSync.Lib.Trace

/-!
# Amortised bounds

What the steps of a run cost can be paid for in advance.  A *potential* is a number that
depends on the state; if every step costs at most what the potential loses, up to a gain that
is granted to the step, then a whole run costs at most the potential it starts with and the
gains on the way (`amortized`).
-/

namespace Trace

universe u v w

variable {σ : Type u} {ε : Type v} {ο : Type w} {step : σ → ε → ο × σ} {s : σ} {es : List ε}

/-- The sum of an amount over the steps of a run. -/
def total (step : σ → ε → ο × σ) (amount : σ → ε → ℕ) (s : σ) : List ε → ℕ
  | [] => 0
  | e :: rest => amount s e + total step amount (step s e).2 rest

/-- An amount that can be read off the answers is summed over the trace. -/
theorem total_answers (amount : ο → ℕ) :
    total step (fun t e => amount (step t e).1) s es =
      ((trace step s es).map fun entry => amount entry.2).sum := by
  induction es generalizing s with
  | nil => rfl
  | cons e rest ih =>
    show amount (step s e).1 + total step _ (step s e).2 rest = _
    rw [ih]
    rfl

/-- **The potential pays.** -/
theorem amortized {potential : σ → ℕ} {cost gain : σ → ε → ℕ}
    (pays : EachStep step s
      (fun _ t e => cost t e + potential (step t e).2 ≤ potential t + gain t e) es) :
    total step cost s es + potential (after step s es) ≤ potential s + total step gain s es := by
  induction es generalizing s with
  | nil => exact le_of_eq (Nat.add_comm _ _)
  | cons e rest ih =>
    have first := pays.head
    have further := ih pays.tail
    show cost s e + total step cost (step s e).2 rest + potential (after step (step s e).2 rest) ≤
      potential s + (gain s e + total step gain (step s e).2 rest)
    omega

end Trace
