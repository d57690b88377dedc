import DistroSync.Lib.Trace

/-!
# Length-prefixed frames over a byte stream

A frame is a payload behind its length in four bytes, most significant first.  Frames
need no separator: a stream of frames can be cut in one way only (`frames_unique`).

A `Receiver` reads frames from a stream that arrives in chunks.  It reads the prefix,
then the payload, and waits wherever there are not enough bytes yet.  Its state accounts
for every byte that has arrived (`Accounts`): those of the payloads it has delivered, and
a residue.  So what it delivers depends on the bytes alone, and not on the chunks or on
when it gets its turns (`received_eq`).
-/

namespace Framing

/-- Bytes on the wire. -/
abbrev Bytes := List UInt8

/-! ## Numbers as bytes -/

/-- The number that the bytes spell, most significant first. -/
def fromBytes (bytes : Bytes) : Nat := bytes.foldl (fun n byte => n * 256 + byte.toNat) 0

/-- The `width` lowest bytes of a number, most significant first. -/
def toBytes : Nat → Nat → Bytes
  | 0, _ => []
  | width + 1, n => toBytes width (n / 256) ++ [UInt8.ofNat n]

@[simp] theorem length_toBytes (width n : Nat) : (toBytes width n).length = width := by
  induction width generalizing n with
  | zero => rfl
  | succ width ih => simp [toBytes, ih]

theorem fromBytes_concat (bytes : Bytes) (byte : UInt8) :
    fromBytes (bytes ++ [byte]) = fromBytes bytes * 256 + byte.toNat := by
  simp [fromBytes]

/-- A length that fits its width is read back. -/
theorem fromBytes_toBytes {width n : Nat} (small : n < 256 ^ width) :
    fromBytes (toBytes width n) = n := by
  induction width generalizing n with
  | zero =>
    obtain rfl : n = 0 := by simpa using small
    rfl
  | succ width ih =>
    have high : n / 256 < 256 ^ width := by
      rw [Nat.div_lt_iff_lt_mul (by norm_num)]
      rwa [pow_succ] at small
    have low : (UInt8.ofNat n).toNat = n % 256 := rfl
    rw [toBytes, fromBytes_concat, ih high, low]
    omega

theorem toBytes_fromBytes (bytes : Bytes) : toBytes bytes.length (fromBytes bytes) = bytes := by
  induction bytes using List.reverseRecOn with
  | nil => rfl
  | append_singleton bytes byte ih =>
    have small := byte.toNat_lt
    have high : (fromBytes bytes * 256 + byte.toNat) / 256 = fromBytes bytes := by omega
    have low : UInt8.ofNat (fromBytes bytes * 256 + byte.toNat) = byte := by
      apply UInt8.toNat_inj.mp
      rw [UInt8.toNat_ofNat']
      omega
    rw [List.length_append, List.length_singleton, fromBytes_concat, toBytes, high, ih, low]

theorem fromBytes_lt (bytes : Bytes) : fromBytes bytes < 256 ^ bytes.length := by
  induction bytes using List.reverseRecOn with
  | nil => simp [fromBytes]
  | append_singleton bytes byte ih =>
    have small := byte.toNat_lt
    rw [fromBytes_concat, List.length_append, List.length_singleton, pow_succ]
    omega

/-! ## Texts as bytes -/

/-- A text in UTF-8. -/
def encode (text : String) : Bytes := text.toUTF8.data.toList

/-- The text that the bytes are, if they are UTF-8. -/
def decode (bytes : Bytes) : Option String := String.fromUTF8? ⟨bytes.toArray⟩

/-- UTF-8 round trip. -/
theorem decode_encode (text : String) : decode (encode text) = some text := by
  have valid : (⟨(encode text).toArray⟩ : ByteArray).IsValidUTF8 := text.isValidUTF8
  unfold decode String.fromUTF8?
  rw [dif_pos valid]
  rfl

/-! ## Frames -/

/-- The payload behind its length. -/
def frame (payload : Bytes) : Bytes := toBytes 4 payload.length ++ payload

/-- The frame of a payload whose length has four bytes. -/
def frame? (payload : Bytes) : Option Bytes :=
  if payload.length < 2 ^ 32 then some (frame payload) else none

/-- The frames one after the other. -/
def frames (payloads : List Bytes) : Bytes := payloads.flatMap frame

@[simp] theorem frames_nil : frames [] = [] := rfl

@[simp] theorem frames_cons (payload : Bytes) (payloads : List Bytes) :
    frames (payload :: payloads) = frame payload ++ frames payloads := rfl

theorem frames_append (first second : List Bytes) :
    frames (first ++ second) = frames first ++ frames second := List.flatMap_append

theorem length_frame (payload : Bytes) : (frame payload).length = 4 + payload.length := by
  simp [frame]

theorem toBytes_inj {n k : Nat} (small : n < 2 ^ 32) (small' : k < 2 ^ 32)
    (same : toBytes 4 n = toBytes 4 k) : n = k := by
  rw [← fromBytes_toBytes (show n < 256 ^ 4 by omega), same,
    fromBytes_toBytes (show k < 256 ^ 4 by omega)]

/-- A frame ends where its prefix says. -/
theorem frame_append_inj {p q tail tail' : Bytes} (small : p.length < 2 ^ 32)
    (small' : q.length < 2 ^ 32) (same : frame p ++ tail = frame q ++ tail') :
    p = q ∧ tail = tail' := by
  simp only [frame, List.append_assoc] at same
  obtain ⟨lengths, rest⟩ := List.append_inj same (by simp)
  exact List.append_inj rest (toBytes_inj small small' lengths)

/-- No frame of an acceptable length stands at the front of the bytes. -/
def Stuck (limit : Nat) (bytes : Bytes) : Prop :=
  ∀ payload rest : Bytes, payload.length ≤ limit → bytes ≠ frame payload ++ rest

/-- A part of a frame that does not reach its end. -/
def Truncated (bytes : Bytes) : Prop :=
  ∃ payload : Bytes, payload.length < 2 ^ 32 ∧ ∃ k < (frame payload).length,
    bytes = (frame payload).take k

section Stuck

variable {limit : Nat}

/-- Less than a length prefix is no frame. -/
theorem stuck_of_short {bytes : Bytes} (short : bytes.length < 4) : Stuck limit bytes := by
  rintro payload rest - rfl
  simp only [List.length_append, length_frame] at short
  omega

/-- The payload is not complete. -/
theorem stuck_of_cut {length : Nat} {bytes : Bytes} (fits : limit < 2 ^ 32)
    (small : length < 2 ^ 32) (short : bytes.length < length) :
    Stuck limit (toBytes 4 length ++ bytes) := by
  intro payload rest fitting same
  simp only [frame, List.append_assoc] at same
  obtain ⟨lengths, later⟩ := List.append_inj same (by simp)
  have sized := toBytes_inj small (by omega) lengths
  have counted := congrArg List.length later
  rw [List.length_append] at counted
  omega

/-- The length is above the limit. -/
theorem stuck_of_oversized {length : Nat} {bytes : Bytes} (small : length < 2 ^ 32)
    (above : limit < length) : Stuck limit (toBytes 4 length ++ bytes) := by
  intro payload rest fitting same
  simp only [frame, List.append_assoc] at same
  have sized := toBytes_inj small (by omega) (List.append_inj same (by simp)).1
  omega

/-- A frame that is cut off is never delivered. -/
theorem Truncated.stuck {bytes : Bytes} (fits : limit < 2 ^ 32) (truncated : Truncated bytes) :
    Stuck limit bytes := by
  obtain ⟨payload, small, k, short, rfl⟩ := truncated
  by_cases header : k < 4
  · exact stuck_of_short (by simp; omega)
  · rw [length_frame] at short
    have split : (frame payload).take k =
        toBytes 4 payload.length ++ payload.take (k - 4) := by
      rw [frame, List.take_append, List.take_of_length_le (by simp; omega), length_toBytes]
    rw [split]
    exact stuck_of_cut fits small (by simp; omega)

/-- **A stream is cut into frames in one way.** -/
theorem frames_unique {ps qs : List Bytes} {tail tail' : Bytes} (fits : limit < 2 ^ 32)
    (small : ∀ p ∈ ps, p.length ≤ limit) (small' : ∀ q ∈ qs, q.length ≤ limit)
    (stuck : Stuck limit tail) (stuck' : Stuck limit tail')
    (same : frames ps ++ tail = frames qs ++ tail') : ps = qs ∧ tail = tail' := by
  induction ps generalizing qs with
  | nil =>
    cases qs with
    | nil => exact ⟨rfl, same⟩
    | cons q qs =>
      rw [frames_cons, List.append_assoc] at same
      exact absurd same (stuck q _ (small' q List.mem_cons_self))
  | cons p ps ih =>
    cases qs with
    | nil =>
      rw [frames_cons, List.append_assoc] at same
      exact absurd same.symm (stuck' p _ (small p List.mem_cons_self))
    | cons q qs =>
      simp only [frames_cons, List.append_assoc] at same
      have fitsP := small p List.mem_cons_self
      have fitsQ := small' q List.mem_cons_self
      obtain ⟨rfl, rest⟩ := frame_append_inj (by omega) (by omega) same
      obtain ⟨rfl, rfl⟩ := ih (fun p later => small p (List.mem_cons_of_mem _ later))
        (fun q later => small' q (List.mem_cons_of_mem _ later)) rest
      exact ⟨rfl, rfl⟩

/-- What was cut from the front of a stream is a part of what can be cut from all of it. -/
theorem isPrefix_of_frames {ps qs : List Bytes} {tail tail' : Bytes} (fits : limit < 2 ^ 32)
    (small : ∀ p ∈ ps, p.length ≤ limit) (small' : ∀ q ∈ qs, q.length ≤ limit)
    (stuck : Stuck limit tail') (same : frames ps ++ tail = frames qs ++ tail') : ps <+: qs := by
  induction ps generalizing qs with
  | nil => exact List.nil_prefix
  | cons p ps ih =>
    cases qs with
    | nil =>
      rw [frames_cons, List.append_assoc] at same
      exact absurd same.symm (stuck p _ (small p List.mem_cons_self))
    | cons q qs =>
      simp only [frames_cons, List.append_assoc] at same
      have fitsP := small p List.mem_cons_self
      have fitsQ := small' q List.mem_cons_self
      obtain ⟨rfl, rest⟩ := frame_append_inj (by omega) (by omega) same
      exact (List.prefix_cons_inj p).mpr
        (ih (fun p later => small p (List.mem_cons_of_mem _ later))
          (fun q later => small' q (List.mem_cons_of_mem _ later)) rest)

end Stuck

/-! ## The receiver -/

/-- Where a receiver is. -/
inductive Phase where
  /-- It waits for a prefix. -/
  | header
  /-- It waits for a payload. -/
  | body (length : Nat)
  /-- It stopped at a prefix above the limit. -/
  | oversized (length : Nat)
  /-- The stream ended, and these were the bytes of the last frame. -/
  | cutOff (bytes : Bytes)
  /-- It was stopped from outside. -/
  | abandoned
  deriving DecidableEq

/-- A receiver that has stopped. -/
def Phase.final : Phase → Bool
  | .header => false
  | .body _ => false
  | _ => true

/-- What has arrived and was not read, whether more can arrive, and the phase. -/
structure Receiver where
  buffer : Bytes := []
  ended : Bool := false
  phase : Phase := .header

/-- What comes of a turn. -/
inductive Signal where
  | idle
  | announced (length : Nat)
  | received (payload : Bytes)
  | oversized (length : Nat)
  | cutOff
  deriving DecidableEq

/-- The receiver stops. -/
def Signal.stops : Signal → Bool
  | .oversized _ => true
  | .cutOff => true
  | _ => false

/-- What can happen to a receiver. -/
inductive Event where
  | chunk (bytes : Bytes)
  | hangUp
  | turn

namespace Receiver

/-- More bytes arrive. -/
def arrive (r : Receiver) (bytes : Bytes) : Receiver :=
  if r.ended then r else { r with buffer := r.buffer ++ bytes }

/-- A turn of a receiver: one read, if there are enough bytes for it. -/
def advance (limit : Nat) (r : Receiver) : Signal × Receiver :=
  match r.phase with
  | .header =>
    if 4 ≤ r.buffer.length then
      let length := fromBytes (r.buffer.take 4)
      let r := { r with buffer := r.buffer.drop 4 }
      if limit < length then (.oversized length, { r with phase := .oversized length })
      else (.announced length, { r with phase := .body length })
    else if r.ended then (.cutOff, { r with buffer := [], phase := .cutOff r.buffer })
    else (.idle, r)
  | .body length =>
    if length ≤ r.buffer.length then
      (.received (r.buffer.take length),
        { r with buffer := r.buffer.drop length, phase := .header })
    else if r.ended then
      (.cutOff, { r with buffer := [], phase := .cutOff (toBytes 4 length ++ r.buffer) })
    else (.idle, r)
  | _ => (.idle, r)

/-- One event. -/
def step (limit : Nat) (r : Receiver) : Event → Signal × Receiver
  | .chunk bytes => (.idle, r.arrive bytes)
  | .hangUp => (.idle, { r with ended := true })
  | .turn => r.advance limit

/-- The bytes that arrived and belong to no payload that was received. -/
def residue (r : Receiver) : Bytes :=
  match r.phase with
  | .header | .abandoned => r.buffer
  | .body length | .oversized length => toBytes 4 length ++ r.buffer
  | .cutOff bytes => bytes ++ r.buffer

end Receiver

/-- The payload of a signal. -/
def Signal.payload? : Signal → Option Bytes
  | .received payload => some payload
  | _ => none

/-- The payloads that were received in a run. -/
def received (trace : List (Event × Signal)) : List Bytes :=
  trace.filterMap fun entry => entry.2.payload?

/-- The bytes that arrived in a run. -/
def arrived : List Event → Bytes
  | [] => []
  | .chunk bytes :: later => bytes ++ arrived later
  | .hangUp :: _ => []
  | .turn :: later => arrived later

/-- The number of turns in a run. -/
def turns : List Event → Nat
  | [] => 0
  | .turn :: later => turns later + 1
  | _ :: later => turns later

/-- The bytes that a run adds to a receiver. -/
def Receiver.feeds (r : Receiver) (events : List Event) : Bytes :=
  if r.ended then [] else arrived events

/-- The phases that a receiver gets to by itself. -/
def Receiver.Valid (limit : Nat) (r : Receiver) : Prop :=
  match r.phase with
  | .header => True
  | .body length => length ≤ limit
  | .oversized length => limit < length ∧ length < 2 ^ 32
  | .cutOff bytes => Stuck limit bytes ∧ r.buffer = [] ∧ r.ended = true
  | .abandoned => False

/-! ### One event -/

section Step

variable {limit : Nat} {r : Receiver}

theorem Receiver.residue_arrive (r : Receiver) (bytes : Bytes) (later : List Event) :
    r.residue ++ r.feeds (.chunk bytes :: later) =
      (r.arrive bytes).residue ++ (r.arrive bytes).feeds later := by
  obtain ⟨buffer, ended, phase⟩ := r
  cases ended <;> cases phase <;> simp [arrive, residue, feeds, arrived]

/-- A prefix that was read can be written again. -/
theorem toBytes_take {buffer : Bytes} (enough : 4 ≤ buffer.length) :
    toBytes 4 (fromBytes (buffer.take 4)) = buffer.take 4 := by
  have exactly : (buffer.take 4).length = 4 := by simp [enough]
  have again := toBytes_fromBytes (buffer.take 4)
  rwa [exactly] at again

theorem Receiver.ended_advance (limit : Nat) (r : Receiver) :
    (r.advance limit).2.ended = r.ended := by
  obtain ⟨buffer, ended, phase⟩ := r
  cases phase <;> simp only [advance] <;> split_ifs <;> rfl

/-- A receiver that has stopped does not go on. -/
theorem Receiver.advance_of_final (limit : Nat) {r : Receiver} (final : r.phase.final = true) :
    r.advance limit = (.idle, r) := by
  obtain ⟨buffer, ended, phase⟩ := r
  cases phase with
  | header => cases final
  | body length => cases final
  | _ => rfl

/-- A receiver that says so has stopped. -/
theorem Receiver.final_advance {limit : Nat} {r : Receiver}
    (stops : (r.advance limit).1.stops = true) : (r.advance limit).2.phase.final = true := by
  obtain ⟨buffer, ended, phase⟩ := r
  cases phase with
  | header =>
    simp only [advance] at stops ⊢
    split_ifs at stops ⊢ <;> first | rfl | cases stops
  | body length =>
    simp only [advance] at stops ⊢
    split_ifs at stops ⊢ <;> first | rfl | cases stops
  | _ => rfl

/-- A receiver stops in a turn exactly if it says so. -/
theorem Receiver.final_advance_eq (limit : Nat) (r : Receiver) :
    (r.advance limit).2.phase.final = (r.phase.final || (r.advance limit).1.stops) := by
  obtain ⟨buffer, ended, phase⟩ := r
  cases phase with
  | header =>
    simp only [advance]
    split_ifs <;> rfl
  | body length =>
    simp only [advance]
    split_ifs <;> rfl
  | _ => rfl

theorem Receiver.phase_arrive (r : Receiver) (bytes : Bytes) :
    (r.arrive bytes).phase = r.phase := by
  unfold arrive
  split <;> rfl

/-- No byte is lost or made up in a turn. -/
theorem Receiver.residue_advance (limit : Nat) (r : Receiver) :
    r.residue = frames (r.advance limit).1.payload?.toList ++ (r.advance limit).2.residue := by
  obtain ⟨buffer, ended, phase⟩ := r
  cases phase with
  | header =>
    simp only [advance, residue]
    split_ifs with enough above ended
    · simp [Signal.payload?, toBytes_take enough]
    · simp [Signal.payload?, toBytes_take enough]
    · simp [Signal.payload?]
    · simp [Signal.payload?]
  | body length =>
    simp only [advance, residue]
    split_ifs with enough ended
    · simp [Signal.payload?, frame, enough]
    · simp [Signal.payload?]
    · simp [Signal.payload?]
  | oversized length => rfl
  | cutOff bytes => rfl
  | abandoned => rfl

theorem Receiver.Valid.step (valid : r.Valid limit) (fits : limit < 2 ^ 32) (event : Event) :
    (r.step limit event).2.Valid limit := by
  obtain ⟨buffer, ended, phase⟩ := r
  cases event with
  | chunk bytes =>
    cases phase <;> cases ended <;> simp_all [Receiver.step, arrive, Valid]
  | hangUp => cases phase <;> simp_all [Receiver.step, Valid]
  | turn =>
    cases phase with
    | header =>
      simp only [Receiver.step, advance]
      split_ifs with enough above ended
      · have small := fromBytes_lt (buffer.take 4)
        have exactly : (buffer.take 4).length = 4 := by simp [enough]
        rw [exactly] at small
        exact ⟨above, by omega⟩
      · exact not_lt.mp above
      · exact ⟨stuck_of_short (not_le.mp enough), rfl, ended⟩
      · trivial
    | body length =>
      simp only [Receiver.step, advance]
      have short : length ≤ limit := valid
      split_ifs with enough ended
      · trivial
      · exact ⟨stuck_of_cut fits (by omega) (not_le.mp enough), rfl, ended⟩
      · exact short
    | oversized length => exact valid
    | cutOff bytes => exact valid
    | abandoned => exact valid

/-- A payload that is received is not too long. -/
theorem Receiver.Valid.length_le (valid : r.Valid limit) {payload : Bytes}
    (shown : (r.advance limit).1.payload? = some payload) : payload.length ≤ limit := by
  obtain ⟨buffer, ended, phase⟩ := r
  cases phase with
  | header =>
    simp only [advance] at shown
    split_ifs at shown <;> cases shown
  | body length =>
    simp only [advance] at shown
    have short : length ≤ limit := valid
    split_ifs at shown with enough ended
    · cases shown
      simp only [List.length_take]
      omega
    · cases shown
    · cases shown
  | oversized length => cases shown
  | cutOff bytes => cases shown
  | abandoned => cases shown

/-- One for a receiver that has read a prefix. -/
def Phase.weight : Phase → Nat
  | .body _ => 1
  | _ => 0

/-- A turn makes progress, or there is no frame to be read. -/
theorem Receiver.Valid.advance_progress (valid : r.Valid limit) (fits : limit < 2 ^ 32) :
    Stuck limit (r.advance limit).2.residue ∨
      r.phase.weight + 1 = 2 * (r.advance limit).1.payload?.toList.length +
        (r.advance limit).2.phase.weight := by
  obtain ⟨buffer, ended, phase⟩ := r
  cases phase with
  | header =>
    simp only [advance]
    split_ifs with enough above ended
    · have small := fromBytes_lt (buffer.take 4)
      have exactly : (buffer.take 4).length = 4 := by simp [enough]
      rw [exactly] at small
      exact Or.inl (stuck_of_oversized (by omega) above)
    · exact Or.inr rfl
    · refine Or.inl (stuck_of_short ?_)
      simpa [residue] using enough
    · exact Or.inl (stuck_of_short (not_le.mp enough))
  | body length =>
    simp only [advance]
    have short : length ≤ limit := valid
    split_ifs with enough ended
    · exact Or.inr rfl
    · refine Or.inl ?_
      simp only [residue, List.append_nil]
      exact stuck_of_cut fits (by omega) (not_le.mp enough)
    · exact Or.inl (stuck_of_cut fits (by omega) (not_le.mp enough))
  | oversized length => exact Or.inl (stuck_of_oversized valid.2 valid.1)
  | cutOff bytes =>
    obtain ⟨stuck, rfl, -⟩ := valid
    refine Or.inl ?_
    simpa [advance, residue] using stuck
  | abandoned => exact valid.elim

end Step

/-! ### Whole runs -/

section Runs

variable {limit : Nat} {r : Receiver} {events : List Event}

theorem received_cons (event : Event) (signal : Signal) (trace : List (Event × Signal)) :
    received ((event, signal) :: trace) = signal.payload?.toList ++ received trace := by
  unfold received
  rw [List.filterMap_cons]
  cases signal.payload? <;> rfl

/-- **Every byte is accounted for**: it belongs to a payload that was received, or to the
residue. -/
theorem accounts (limit : Nat) (r : Receiver) (events : List Event) :
    r.residue ++ r.feeds events =
      frames (received (Trace.trace (Receiver.step limit) r events)) ++
        (Trace.after (Receiver.step limit) r events).residue := by
  induction events generalizing r with
  | nil => simp [Receiver.feeds, arrived, received]
  | cons event later ih =>
    rw [Trace.trace, received_cons, frames_append, Trace.after_cons, List.append_assoc,
      ← ih]
    cases event with
    | chunk bytes => exact r.residue_arrive bytes later
    | hangUp => simp [Receiver.step, Signal.payload?, Receiver.feeds, arrived, Receiver.residue]
    | turn =>
      have same : (r.advance limit).2.ended = r.ended := r.ended_advance limit
      simp only [Receiver.step, Receiver.feeds, arrived, same]
      rw [← List.append_assoc, ← r.residue_advance limit]

theorem Receiver.Valid.after (valid : r.Valid limit) (fits : limit < 2 ^ 32) :
    (Trace.after (Receiver.step limit) r events).Valid limit := by
  induction events generalizing r with
  | nil => exact valid
  | cons event later ih => exact ih (valid.step fits event)

/-- No payload is longer than the limit. -/
theorem Receiver.Valid.received_le (valid : r.Valid limit) (fits : limit < 2 ^ 32) :
    ∀ payload ∈ received (Trace.trace (Receiver.step limit) r events), payload.length ≤ limit := by
  induction events generalizing r with
  | nil => simp [received]
  | cons event later ih =>
    intro payload inside
    rw [Trace.trace, received_cons] at inside
    rcases List.mem_append.mp inside with now | then'
    · cases event with
      | chunk bytes => cases now
      | hangUp => cases now
      | turn => exact valid.length_le (Option.mem_toList.mp now)
    · exact ih (valid.step fits event) payload then'

/-- Without more bytes there is no more to read. -/
theorem Stuck.after (stuck : Stuck limit r.residue) (valid : r.Valid limit) (fits : limit < 2 ^ 32)
    (quiet : r.feeds events = []) :
    Stuck limit (Trace.after (Receiver.step limit) r events).residue := by
  have account := accounts limit r events
  rw [quiet, List.append_nil] at account
  cases taken : received (Trace.trace (Receiver.step limit) r events) with
  | nil =>
    rw [taken, frames_nil, List.nil_append] at account
    exact account ▸ stuck
  | cons payload rest =>
    have inside : payload ∈ received (Trace.trace (Receiver.step limit) r events) := by
      simp [taken]
    have short := valid.received_le fits payload inside
    rw [taken, frames_cons, List.append_assoc] at account
    exact absurd account (stuck payload _ short)

/-- A receiver that gets no more bytes has read every frame after two turns for each of them. -/
theorem Receiver.Valid.progress (valid : r.Valid limit) (fits : limit < 2 ^ 32)
    (quiet : r.feeds events = []) :
    Stuck limit (Trace.after (Receiver.step limit) r events).residue ∨
      turns events + r.phase.weight ≤
        2 * (received (Trace.trace (Receiver.step limit) r events)).length +
          (Trace.after (Receiver.step limit) r events).phase.weight := by
  induction events generalizing r with
  | nil => exact Or.inr (by simp [turns, received])
  | cons event later ih =>
    rw [Trace.trace, received_cons, Trace.after_cons]
    cases event with
    | chunk bytes =>
      obtain ⟨same, quiet⟩ : r.arrive bytes = r ∧ r.feeds later = [] := by
        obtain ⟨buffer, ended, phase⟩ := r
        cases ended <;> simp_all [Receiver.feeds, Receiver.arrive, arrived]
      simp only [Receiver.step, same]
      exact ih valid quiet
    | hangUp => exact ih (valid.step fits .hangUp) (by simp [Receiver.step, Receiver.feeds])
    | turn =>
      have quiet : (r.advance limit).2.feeds later = [] := by
        unfold Receiver.feeds at quiet ⊢
        rw [r.ended_advance limit]
        exact quiet
      rcases valid.advance_progress fits with stuck | moves
      · exact Or.inl (stuck.after (valid.step fits .turn) fits quiet)
      · rcases ih (valid.step fits .turn) quiet with stuck | further
        · exact Or.inl stuck
        · refine Or.inr ?_
          simp only [turns, Receiver.step, List.length_append] at further ⊢
          omega

/-- At any time, what was received are the first payloads of the stream. -/
theorem received_isPrefix {payloads : List Bytes} {tail : Bytes} (fits : limit < 2 ^ 32)
    (small : ∀ payload ∈ payloads, payload.length ≤ limit) (stuck : Stuck limit tail)
    (stream : ∃ later, arrived events ++ later = frames payloads ++ tail) :
    received (Trace.trace (Receiver.step limit) {} events) <+: payloads := by
  obtain ⟨later, stream⟩ := stream
  have valid : ({} : Receiver).Valid limit := trivial
  have account := accounts limit {} events
  have same : frames (received (Trace.trace (Receiver.step limit) {} events)) ++
      ((Trace.after (Receiver.step limit) {} events).residue ++ later) =
        frames payloads ++ tail := by
    rw [← List.append_assoc, ← account, ← stream]
    rfl
  exact isPrefix_of_frames fits (valid.received_le fits) small stuck same

/-- **What is received are the payloads of the stream**, in any division into chunks and with
turns at any time, once there were enough of them after the last chunk. -/
theorem received_eq {payloads : List Bytes} {tail : Bytes} {early late : List Event}
    (fits : limit < 2 ^ 32) (small : ∀ payload ∈ payloads, payload.length ≤ limit)
    (stuck : Stuck limit tail) (stream : arrived (early ++ late) = frames payloads ++ tail)
    (quiet : (Trace.after (Receiver.step limit) {} early).feeds late = [])
    (enough : 2 * payloads.length + 2 ≤ turns late) :
    received (Trace.trace (Receiver.step limit) {} (early ++ late)) = payloads := by
  have valid : ({} : Receiver).Valid limit := trivial
  have account := accounts limit {} (early ++ late)
  rw [show ({} : Receiver).residue = [] from rfl, List.nil_append,
    show ({} : Receiver).feeds (early ++ late) = arrived (early ++ late) from rfl,
    stream] at account
  have done : Stuck limit (Trace.after (Receiver.step limit) {} (early ++ late)).residue := by
    rw [Trace.after_append]
    have reached : (Trace.after (Receiver.step limit) {} early).Valid limit := valid.after fits
    refine (reached.progress fits quiet).resolve_right fun slow => ?_
    have some : (received (Trace.trace (Receiver.step limit) {} (early ++ late))).length ≤
        payloads.length :=
      (received_isPrefix fits small stuck ⟨[], by simpa using stream⟩).length_le
    rw [Trace.trace_append] at some
    have weight (phase : Phase) : phase.weight ≤ 1 := by cases phase <;> simp [Phase.weight]
    have light := weight (Trace.after (Receiver.step limit)
      (Trace.after (Receiver.step limit) {} early) late).phase
    simp only [received, List.filterMap_append, List.length_append] at some slow
    omega
  exact (frames_unique fits (valid.received_le fits) small done stuck account.symm).1

/-- A run without chunks adds no bytes. -/
theorem Receiver.feeds_eq_nil (r : Receiver) (quiet : ∀ bytes, .chunk bytes ∉ events) :
    r.feeds events = [] := by
  have nothing : arrived events = [] := by
    induction events with
    | nil => rfl
    | cons event later ih =>
      have rest := ih fun bytes inside => quiet bytes (List.mem_cons_of_mem _ inside)
      cases event with
      | chunk bytes => exact absurd List.mem_cons_self (quiet bytes)
      | hangUp => rfl
      | turn => exact rest
  unfold feeds
  rw [nothing, ite_self]

theorem Receiver.ended_after (connected : .hangUp ∉ events) :
    (Trace.after (Receiver.step limit) r events).ended = r.ended := by
  induction events generalizing r with
  | nil => rfl
  | cons event later ih =>
    rw [Trace.after_cons, ih fun inside => connected (List.mem_cons_of_mem _ inside)]
    cases event with
    | chunk bytes =>
      show (r.arrive bytes).ended = r.ended
      unfold arrive
      split <;> rfl
    | hangUp => exact absurd List.mem_cons_self connected
    | turn => exact r.ended_advance limit

/-- A receiver with no bytes left over waits for the next prefix. -/
theorem Receiver.Valid.waits (valid : r.Valid limit) (connected : r.ended = false)
    (empty : r.residue = []) : r.phase = .header ∧ r.buffer = [] := by
  obtain ⟨buffer, ended, phase⟩ := r
  cases phase with
  | header => exact ⟨rfl, empty⟩
  | body length =>
    have counted := congrArg List.length empty
    simp [residue] at counted
  | oversized length =>
    have counted := congrArg List.length empty
    simp [residue] at counted
  | cutOff bytes =>
    obtain ⟨-, -, done⟩ := valid
    rw [connected] at done
    cases done
  | abandoned => exact valid.elim

end Runs

end Framing
