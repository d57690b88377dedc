import DistroSync.Lib.SharedChannel

/-!
# Calls over a shared channel return

A call waits for the lock, for the server and for turns, and other calls may come in
between at any time.  Still there is always one thing that the channel waits for, a turn
of one of the callers or a response (`Channel.need`), and it goes on waiting for it until
it comes.  A number, the rank of a caller, counts how many such things are still to come
before its call returns: nothing that happens raises it, and what the channel waits for
lowers it (`Orderly.progress`).

So a pending call returns after a bounded number of rounds in which every caller gets a
turn and the server answers, whatever else happens in them (`Orderly.returns_of_rounds`).
-/

namespace SharedChannel

universe u v w

variable {ι : Type u} {α : Type v} {β : Type w}

/-- The turns that a caller still needs, once it has the lock. -/
def Phase.left : Phase α → Nat
  | .draining _ => 3
  | .header _ => 2
  | .body _ => 1
  | _ => 0

/-- What is left of the exchange under way: the turns of its caller, and the response. -/
def Channel.left (c : Channel ι α β) : Slot ι α β → Nat
  | none => 0
  | some exchange =>
    (c.phase exchange.caller).left + if exchange.response.isNone then 1 else 0

/-- What is left until the call of a caller returns: the exchange under way, and five steps for
each caller in the queue up to this one. -/
def Channel.rank [DecidableEq ι] (c : Channel ι α β) (slot : Slot ι α β) (i : ι) : Nat :=
  c.left slot + if i ∈ c.waiters then 5 * (c.waiters.idxOf i + 1) else 0

/-- What a channel waits for. -/
inductive Need (ι : Type u) where
  | turn (caller : ι)
  | response

/-- What an exchange waits for, with its caller in this phase. -/
def Exchange.need (exchange : Exchange ι α β) (phase : Phase α) : Need ι :=
  match phase, exchange.response with
  | .header _, none => .response
  | _, _ => .turn exchange.caller

/-- What the channel waits for: the exchange under way, or the first in the queue. -/
def Channel.need (c : Channel ι α β) : Slot ι α β → Option (Need ι)
  | none => c.waiters.head?.map .turn
  | some exchange => some (exchange.need (c.phase exchange.caller))

/-- The action is what the channel waits for. -/
def Action.Meets : Action ι α β → Need ι → Prop
  | .turn i, .turn j => i = j
  | .serve _, .response => True
  | _, _ => False

section Progress

variable {c : Channel ι α β} {slot : Slot ι α β} {i : ι}

theorem Phase.left_le (phase : Phase α) : phase.left ≤ 3 := by
  cases phase <;> simp [Phase.left]

/-- A pending call waits for the lock or is the exchange under way. -/
theorem Orderly.pending_cases (orderly : Orderly c slot) (pending : c.phase i ≠ .idle) :
    (i ∈ c.waiters ∧ (c.phase i).waits = true) ∨
      i ∉ c.waiters ∧ ∃ exchange, slot = some exchange ∧ exchange.caller = i := by
  cases phase : c.phase i with
  | idle => exact absurd phase pending
  | queued request => exact Or.inl ⟨(orderly.mem_waiters i).mpr ⟨request, phase⟩, rfl⟩
  | _ =>
    obtain ⟨exchange, isSlot, same, -⟩ := orderly.holds.busy phase rfl
    refine Or.inr ⟨fun inside => ?_, exchange, isSlot, same⟩
    obtain ⟨request, queued⟩ := (orderly.mem_waiters i).mp inside
    rw [phase] at queued
    cases queued

theorem Orderly.need_isSome (orderly : Orderly c slot) (pending : c.phase i ≠ .idle) :
    ∃ need, c.need slot = some need := by
  cases slot with
  | none =>
    rcases orderly.pending_cases pending with ⟨inside, -⟩ | ⟨-, exchange, absurd, -⟩
    · cases queue : c.waiters with
      | nil =>
        rw [queue] at inside
        cases inside
      | cons first rest => exact ⟨.turn first, by simp [Channel.need, queue]⟩
    · cases absurd
  | some exchange => exact ⟨_, rfl⟩

/-- A caller that the channel waits for is the first in the queue, or past the lock. -/
theorem Orderly.of_need_turn (orderly : Orderly c slot) {j : ι}
    (needed : c.need slot = some (.turn j)) :
    (slot = none ∧ c.locked = false ∧ c.waiters.head? = some j) ∨ (c.phase j).waits = false := by
  cases slot with
  | none =>
    have free : Free c := orderly.holds
    refine Or.inl ⟨rfl, free.unlocked, ?_⟩
    obtain ⟨first, isFirst, same⟩ := Option.map_eq_some_iff.mp needed
    cases same
    exact isFirst
  | some exchange =>
    have busy : Busy c exchange := orderly.holds
    refine Or.inr ?_
    have same : exchange.need (c.phase exchange.caller) = .turn j := Option.some.inj needed
    unfold Exchange.need at same
    split at same
    · cases same
    · cases same
      exact busy.stage.not_waits

variable [DecidableEq ι]

/-- What an action does for a call that is pending: it returns; or it gets closer; or nothing
changes for it, and then this was not what the channel waits for. -/
def Advances (c : Channel ι α β) (slot : Slot ι α β) (i : ι) (action : Action ι α β) : Prop :=
  (∃ request response, (c.step action).1 = .returned i request response) ∨
    (c.step action).2.rank (slot.next (c.step action).1) i < c.rank slot i ∨
      (c.step action).2.rank (slot.next (c.step action).1) i = c.rank slot i ∧
        (c.step action).2.need (slot.next (c.step action).1) = c.need slot ∧
          ∀ need, c.need slot = some need → ¬action.Meets need

theorem advances_of_nothing {action : Action ι α β} (same : c.step action = (.nothing, c))
    (other : ∀ need, c.need slot = some need → ¬action.Meets need) : Advances c slot i action := by
  unfold Advances
  rw [same]
  exact Or.inr (Or.inr ⟨rfl, rfl, other⟩)

/-- The exchange under way does not depend on a caller that waits. -/
theorem Holds.phase_update (holds : Holds c slot) {j : ι} (waits : (c.phase j).waits = true)
    (phase : Phase α) {exchange : Exchange ι α β} (isSlot : slot = some exchange) :
    Function.update c.phase j phase exchange.caller = c.phase exchange.caller := by
  subst isSlot
  refine Function.update_of_ne ?_ ..
  rintro rfl
  rw [holds.stage.not_waits] at waits
  cases waits

theorem Orderly.call_advances (orderly : Orderly c slot) (pending : c.phase i ≠ .idle) (j : ι)
    (request : α) : Advances c slot i (.call j request) := by
  have unmet (need : Need ι) (_ : c.need slot = some need) :
      ¬(Action.call j request : Action ι α β).Meets need := by
    cases need <;> exact id
  cases phase : c.phase j with
  | idle =>
    have other : i ≠ j := by
      rintro rfl
      exact pending phase
    by_cases isOpen : c.locked = false ∧ c.waiters = []
    · -- nobody could be pending
      obtain rfl := orderly.holds.eq_none isOpen.1
      rcases orderly.pending_cases pending with ⟨inside, -⟩ | ⟨-, exchange, absurd, -⟩
      · rw [isOpen.2] at inside
        cases inside
      · cases absurd
    · have stepped : c.step (.call j request) =
          (.nothing, { c with waiters := c.waiters ++ [j] }.put j (.queued request)) := by
        simp only [Channel.step, Channel.call, phase, if_neg isOpen]
      have waits : (c.phase j).waits = true := by rw [phase]; rfl
      have left : Channel.left ({ c with waiters := c.waiters ++ [j] }.put j (.queued request))
          slot = c.left slot := by
        cases slot with
        | none => rfl
        | some exchange =>
          show (Function.update c.phase j _ exchange.caller).left + _ = _
          rw [orderly.holds.phase_update waits _ rfl]
          rfl
      unfold Advances
      rw [stepped]
      refine Or.inr (Or.inr ⟨?_, ?_, unmet⟩)
      · show Channel.left _ slot + (if i ∈ c.waiters ++ [j] then _ else 0) = _
        rw [left]
        rcases orderly.pending_cases pending with ⟨inside, -⟩ | ⟨outside, -⟩
        · rw [if_pos (List.mem_append_left _ inside)]
          show _ + 5 * ((c.waiters ++ [j]).idxOf i + 1) = _
          rw [List.idxOf_append_of_mem inside, Channel.rank, if_pos inside]
        · rw [if_neg (by simp [outside, other]), Channel.rank, if_neg outside]
      · cases slot with
        | none =>
          rcases orderly.pending_cases pending with ⟨inside, -⟩ | ⟨-, exchange, absurd, -⟩
          · show (c.waiters ++ [j]).head?.map _ = c.waiters.head?.map _
            rw [List.head?_append_of_ne_nil _ (List.ne_nil_of_mem inside)]
          · cases absurd
        | some exchange =>
          show some (exchange.need (Function.update c.phase j _ exchange.caller)) = _
          rw [orderly.holds.phase_update waits _ rfl]
          rfl
  | _ => exact advances_of_nothing (by simp only [Channel.step, Channel.call, phase]) unmet

/-- A caller takes the lock in its turn. -/
theorem Orderly.first_advances (orderly : Orderly c none) (pending : c.phase i ≠ .idle) {j : ι}
    {request : α} {rest : List ι} (phase : c.phase j = .queued request)
    (waiters : c.waiters = j :: rest) : Advances c none i (.turn j) := by
  have free : Free c := orderly.holds
  have stepped : c.step (.turn j) = { c with waiters := rest }.write j request := by
    simp [Channel.step, Channel.turn, phase, free.unlocked, waiters]
  have inside : i ∈ c.waiters := by
    rcases orderly.pending_cases pending with ⟨inside, -⟩ | ⟨-, exchange, absurd, -⟩
    · exact inside
    · cases absurd
  have nodup := orderly.nodup
  rw [waiters, List.nodup_cons] at nodup
  unfold Advances
  rw [stepped]
  have left : Channel.left ({ c with waiters := rest }.write j request).2
      (some ⟨j, request, none⟩) = 4 := by
    show (Function.update c.phase j (.draining request) j).left + 1 = 4
    rw [Function.update_self]
    rfl
  refine Or.inr (Or.inl ?_)
  -- four steps of the exchange are new, and five of a place in the queue are gone
  show Channel.left _ (some ⟨j, request, none⟩) +
    (if i ∈ rest then 5 * (rest.idxOf i + 1) else 0) < c.rank none i
  rw [left, Channel.rank, if_pos inside, waiters]
  by_cases same : i = j
  · subst same
    rw [if_neg nodup.1, List.idxOf_cons_self]
    omega
  · have later : i ∈ rest := by
      rw [waiters] at inside
      exact (List.mem_cons.mp inside).resolve_left same
    rw [if_pos later, List.idxOf_cons_ne _ (Ne.symm same)]
    omega

theorem advances_of_left {action : Action ι α β} {report : Report ι α β} {c' : Channel ι α β}
    (stepped : c.step action = (report, c'))
    (waiters : c'.waiters = c.waiters) (less : c'.left (slot.next report) < c.left slot) :
    Advances c slot i action := by
  unfold Advances
  rw [stepped]
  refine Or.inr (Or.inl ?_)
  show c'.rank (slot.next report) i < c.rank slot i
  unfold Channel.rank
  rw [waiters]
  exact Nat.add_lt_add_right less _

theorem Orderly.turn_advances (orderly : Orderly c slot) (pending : c.phase i ≠ .idle) (j : ι) :
    Advances c slot i (.turn j) := by
  cases phase : c.phase j with
  | idle =>
    -- an idle caller is not the one that is needed
    refine advances_of_nothing (by simp only [Channel.step, Channel.turn, phase]) ?_
    rintro (k | _) needed met
    · obtain rfl : j = k := met
      rcases orderly.of_need_turn needed with ⟨-, -, first⟩ | past
      · obtain ⟨request, queued⟩ := (orderly.mem_waiters j).mp (List.mem_of_head? first)
        rw [phase] at queued
        cases queued
      · rw [phase] at past
        cases past
    · exact met
  | queued request =>
    by_cases first : c.locked = false ∧ c.waiters.head? = some j
    · obtain rfl := orderly.holds.eq_none first.1
      obtain ⟨rest, waiters⟩ := List.head?_eq_some_iff.mp first.2
      exact orderly.first_advances pending phase waiters
    · have same : c.step (.turn j) = (.nothing, c) := by
        simp only [Channel.step, Channel.turn, phase, if_neg first]
      refine advances_of_nothing same ?_
      rintro (k | _) needed met
      · obtain rfl : j = k := met
        rcases orderly.of_need_turn needed with ⟨-, isFirst⟩ | past
        · exact first isFirst
        · rw [phase] at past
          cases past
      · exact met
  | draining request =>
    obtain ⟨exchange, rfl, rfl, busy, stage⟩ := orderly.holds.busy phase rfl
    have stepped : c.step (.turn exchange.caller) =
        (.nothing, c.put exchange.caller (.header request)) := by
      simp only [Channel.step, Channel.turn, phase]
    refine advances_of_left stepped rfl ?_
    show (Function.update c.phase exchange.caller _ exchange.caller).left + _ <
      (c.phase exchange.caller).left + _
    rw [Function.update_self, phase]
    exact Nat.add_lt_add_right (Nat.lt_succ_self 2) _
  | header request =>
    obtain ⟨exchange, rfl, rfl, busy, stage⟩ := orderly.holds.busy phase rfl
    generalize c.requests = held at stage
    generalize responses : c.responses = parts at stage
    cases stage with
    | header j request =>
      refine advances_of_nothing
        (by simp only [Channel.step, Channel.turn, phase, responses]) ?_
      rintro need needed
      have isResponse : need = .response := by
        refine (Option.some.inj needed).symm.trans ?_
        show Exchange.need _ (c.phase j) = _
        rw [phase]
        rfl
      rw [isResponse]
      exact id
    | headerServed j request response =>
      have stepped : c.step (.turn j) =
          (.nothing, { c with responses := [Part.body response] }.put j (.body request)) := by
        simp only [Channel.step, Channel.turn, phase, responses]
      refine advances_of_left stepped rfl ?_
      show (Function.update c.phase j _ j).left + _ < (c.phase j).left + _
      rw [Function.update_self, phase]
      exact Nat.add_lt_add_right (Nat.lt_succ_self 1) _
  | body request =>
    obtain ⟨exchange, rfl, rfl, busy, stage⟩ := orderly.holds.busy phase rfl
    generalize c.requests = held at stage
    generalize responses : c.responses = parts at stage
    cases stage with
    | body j request response =>
      have stepped : c.step (.turn j) = (.returned j request response,
          { c with locked := false, responses := [] }.put j .idle) := by
        simp only [Channel.step, Channel.turn, phase, responses]
      by_cases same : i = j
      · subst same
        exact Or.inl ⟨request, response, by rw [stepped]⟩
      · refine advances_of_left stepped rfl ?_
        show 0 < (c.phase j).left + _
        rw [phase]
        exact Nat.succ_pos _
  | astray =>
    obtain ⟨exchange, rfl, rfl, busy, stage⟩ := orderly.holds.busy phase rfl
    cases stage

theorem Orderly.serve_advances (orderly : Orderly c slot) (response : β) :
    Advances c slot i (.serve response) := by
  have idle (requests : c.requests = []) (answered : ∀ j, c.need slot = some j → j ≠ .response) :
      Advances c slot i (.serve response) := by
    refine advances_of_nothing (by simp only [Channel.step, Channel.serve, requests]) ?_
    rintro (k | _) needed met
    · exact met
    · exact answered _ needed rfl
  cases slot with
  | none =>
    have free : Free c := orderly.holds
    refine idle free.requests fun need needed => ?_
    obtain ⟨first, -, rfl⟩ := Option.map_eq_some_iff.mp needed
    rintro ⟨⟩
  | some exchange =>
    have busy : Busy c exchange := orderly.holds
    obtain ⟨j, request, answer⟩ := exchange
    cases answer with
    | none =>
      have requests : c.requests = [request] := busy.stage.requests_eq
      have stepped : c.step (.serve response) = (.served request response, { c with
          requests := [], responses := c.responses ++ [.header, .body response] }) := by
        simp only [Channel.step, Channel.serve, requests]
      refine advances_of_left stepped rfl ?_
      show (c.phase j).left + 0 < (c.phase j).left + 1
      exact Nat.lt_succ_self _
    | some answer =>
      have requests : c.requests = [] := busy.stage.requests_eq
      refine idle requests fun need needed => ?_
      have same : Exchange.need _ (c.phase j) = need := Option.some.inj needed
      unfold Exchange.need at same
      split at same
      · rename_i absurd
        cases absurd
      · subst same
        rintro ⟨⟩

/-- **One action brings a pending call closer, or is not the one that is needed.** -/
theorem Orderly.progress (orderly : Orderly c slot) (pending : c.phase i ≠ .idle)
    {action : Action ι α β} (uncancelled : ∀ j, (c.step action).1 ≠ .cancelled j) :
    Advances c slot i action := by
  cases action with
  | call j request => exact orderly.call_advances pending j request
  | turn j => exact orderly.turn_advances pending j
  | serve response => exact orderly.serve_advances response
  | cancel j =>
    refine advances_of_nothing ?_ fun need _ => by cases need <;> exact id
    simp only [Channel.step, Channel.cancel] at uncancelled ⊢
    cases phase : c.phase j with
    | idle => rfl
    | _ =>
      simp only [phase] at uncancelled
      exact absurd rfl (uncancelled j)

/-- The same for a call that does not return now. -/
theorem Orderly.progress_of_silent (orderly : Orderly c slot) (pending : c.phase i ≠ .idle)
    {action : Action ι α β} (uncancelled : ∀ j, (c.step action).1 ≠ .cancelled j)
    (silent : ∀ request response, (c.step action).1 ≠ .returned i request response) :
    (c.step action).2.rank (slot.next (c.step action).1) i < c.rank slot i ∨
      (c.step action).2.rank (slot.next (c.step action).1) i = c.rank slot i ∧
        (c.step action).2.need (slot.next (c.step action).1) = c.need slot ∧
          ∀ need, c.need slot = some need → ¬action.Meets need := by
  rcases orderly.progress pending uncancelled with ⟨request, response, returned⟩ | closer
  · exact absurd returned (silent request response)
  · exact closer

end Progress

/-! ## Rounds -/

/-- The call of a caller returns in the run. -/
def Returned (i : ι) (request : α) (trace : List (Action ι α β × Report ι α β)) : Prop :=
  ∃ entry ∈ trace, ∃ response, entry.2 = .returned i request response

/-- Every caller gets a turn, and the server answers. -/
def Fair (round : List (Action ι α β)) : Prop :=
  (∀ j, .turn j ∈ round) ∧ ∃ response, .serve response ∈ round

theorem Fair.meets {round : List (Action ι α β)} (fair : Fair round) (need : Need ι) :
    ∃ action ∈ round, action.Meets need := by
  obtain ⟨turns, response, serves⟩ := fair
  cases need with
  | turn j => exact ⟨.turn j, turns j, rfl⟩
  | response => exact ⟨.serve response, serves, trivial⟩

section Rounds

variable {c : Channel ι α β} {slot : Slot ι α β} {i : ι} {request : α}

theorem busy_of_pending (pending : c.pending i = some request) : c.phase i ≠ .idle := by
  intro idle
  unfold Channel.pending at pending
  rw [idle] at pending
  cases pending

variable [DecidableEq ι]

/-- No run takes a pending call further from its return. -/
theorem Orderly.rank_run (orderly : Orderly c slot) (pending : c.pending i = some request)
    {actions : List (Action ι α β)}
    (uncancelled : Uncancelled (Trace.trace Channel.step c actions)) :
    Returned i request (Trace.trace Channel.step c actions) ∨
      ∃ slot', Orderly (Trace.after Channel.step c actions) slot' ∧
        (Trace.after Channel.step c actions).pending i = some request ∧
          (Trace.after Channel.step c actions).rank slot' i ≤ c.rank slot i := by
  induction actions generalizing c slot with
  | nil => exact Or.inr ⟨slot, orderly, pending, le_rfl⟩
  | cons action later ih =>
    have now : ∀ j, (c.step action).1 ≠ .cancelled j := uncancelled _ List.mem_cons_self
    obtain ⟨-, next⟩ := orderly.step now
    rcases orderly.pending_step pending now with ⟨response, returned⟩ | ⟨still, silent⟩
    · exact Or.inl ⟨_, List.mem_cons_self, response, returned⟩
    · have closer := orderly.progress_of_silent (busy_of_pending pending) now silent
      have notFurther : (c.step action).2.rank (slot.next (c.step action).1) i ≤ c.rank slot i :=
        closer.elim le_of_lt fun same => same.1.le
      rcases ih next still fun entry inside =>
          uncancelled entry (List.mem_cons_of_mem _ inside) with
        ⟨entry, inside, returned⟩ | ⟨slot', after, pending', further⟩
      · exact Or.inl ⟨entry, List.mem_cons_of_mem _ inside, returned⟩
      · exact Or.inr ⟨slot', after, pending', further.trans notFurther⟩

/-- A run that has what the channel waits for takes a pending call closer to its return. -/
theorem Orderly.rank_run_lt (orderly : Orderly c slot) (pending : c.pending i = some request)
    {need : Need ι} (needed : c.need slot = some need) {actions : List (Action ι α β)}
    (meets : ∃ action ∈ actions, action.Meets need)
    (uncancelled : Uncancelled (Trace.trace Channel.step c actions)) :
    Returned i request (Trace.trace Channel.step c actions) ∨
      ∃ slot', Orderly (Trace.after Channel.step c actions) slot' ∧
        (Trace.after Channel.step c actions).pending i = some request ∧
          (Trace.after Channel.step c actions).rank slot' i < c.rank slot i := by
  induction actions generalizing c slot with
  | nil =>
    obtain ⟨action, inside, -⟩ := meets
    cases inside
  | cons action later ih =>
    have now : ∀ j, (c.step action).1 ≠ .cancelled j := uncancelled _ List.mem_cons_self
    have rest : Uncancelled (Trace.trace Channel.step (c.step action).2 later) :=
      fun entry inside => uncancelled entry (List.mem_cons_of_mem _ inside)
    obtain ⟨-, next⟩ := orderly.step now
    rcases orderly.pending_step pending now with ⟨response, returned⟩ | ⟨still, silent⟩
    · exact Or.inl ⟨_, List.mem_cons_self, response, returned⟩
    rcases orderly.progress_of_silent (busy_of_pending pending) now silent with
      closer | ⟨same, sameNeed, unmet⟩
    · rcases next.rank_run still rest with
        ⟨entry, inside, returned⟩ | ⟨slot', after, pending', further⟩
      · exact Or.inl ⟨entry, List.mem_cons_of_mem _ inside, returned⟩
      · exact Or.inr ⟨slot', after, pending', further.trans_lt closer⟩
    · -- this was not what the channel waits for, so that it still waits for it
      obtain ⟨needful, inside, met⟩ := meets
      have later : needful ∈ later := by
        rcases List.mem_cons.mp inside with rfl | later
        · exact absurd met (unmet need needed)
        · exact later
      -- and what the run has for it comes later
      rcases ih next still (sameNeed.trans needed) ⟨needful, later, met⟩ rest with
        ⟨entry, inside, returned⟩ | ⟨slot', after, pending', further⟩
      · exact Or.inl ⟨entry, List.mem_cons_of_mem _ inside, returned⟩
      · exact Or.inr ⟨slot', after, pending', further.trans_eq same⟩

/-- **A pending call returns**, after no more fair rounds than its rank says. -/
theorem Orderly.returns_of_rounds (orderly : Orderly c slot) (pending : c.pending i = some request)
    {rounds : List (List (Action ι α β))} (fair : ∀ round ∈ rounds, Fair round)
    (uncancelled : Uncancelled (Trace.trace Channel.step c rounds.flatten))
    (enough : c.rank slot i < rounds.length) :
    Returned i request (Trace.trace Channel.step c rounds.flatten) := by
  -- every round has what the channel waits for at its beginning, so that the rank falls in it
  induction rounds generalizing c slot with
  | nil => cases enough
  | cons round later ih =>
    rw [List.flatten_cons, Trace.trace_append] at uncancelled ⊢
    obtain ⟨need, needed⟩ := orderly.need_isSome (busy_of_pending pending)
    rcases orderly.rank_run_lt pending needed ((fair round List.mem_cons_self).meets need)
        fun entry inside => uncancelled entry (List.mem_append_left _ inside) with
      ⟨entry, inside, returned⟩ | ⟨slot', after, pending', closer⟩
    · exact ⟨entry, List.mem_append_left _ inside, returned⟩
    · rw [List.length_cons] at enough
      obtain ⟨entry, inside, returned⟩ := ih after pending'
        (fun round inside => fair round (List.mem_cons_of_mem _ inside))
        (fun entry inside => uncancelled entry (List.mem_append_right _ inside)) (by omega)
      exact ⟨entry, List.mem_append_right _ inside, returned⟩

/-- The rank of a caller in a queue of this length. -/
theorem Channel.rank_le (c : Channel ι α β) (slot : Slot ι α β) (i : ι) :
    c.rank slot i ≤ 4 + 5 * c.waiters.length := by
  have under : c.left slot ≤ 4 := by
    cases slot with
    | none => exact Nat.zero_le _
    | some exchange =>
      have turns := (c.phase exchange.caller).left_le
      simp only [Channel.left]
      split_ifs <;> omega
  unfold rank
  split_ifs with inside
  · have place := List.idxOf_lt_length_iff.mpr inside
    omega
  · omega

end Rounds

end SharedChannel
