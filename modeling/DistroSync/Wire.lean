import DistroSync.Lib.Framing
import DistroSync.WalStore

/-!
# Messages on the wire

What the ends of a connection write and read: `_send_response` of `broker/server.py`, and the
`_send` methods of the two clients, which write their frames the same way.

A message is written by `json.dumps`, encoded, and put behind its length.  Two of these steps
can fail.  `json.dumps` runs out of stack on a value that is nested too deeply, and
`to_bytes` has no four bytes for a length of 2³² and more.  How much stack is left depends on
the call: a response is written from deeper in the broker than its request was read, and it
holds the payload of a task one level deeper than the request did that brought it.  So the
broker can accept a task that it cannot hand out.  `Wire.Sendable` is what `_send_response`
gets through with.
-/

namespace DistroSync

open Py Framing

/-- What the ends of a connection take from Python, besides what the broker does. -/
structure Wire where
  platform : Platform
  /-- `json.loads` raises, and not a `JSONDecodeError`: the text is nested too deeply or has
  an integer of too many digits. -/
  refuses : String → Bool
  /-- How deep a value may be nested for `json.loads` to get to its end, at either end of a
  connection. -/
  readDepth : Nat
  /-- A dictionary without another one in it is read. -/
  readDepth_pos : 0 < readDepth
  /-- `json.loads` undoes `json.dumps`. -/
  reads_jsonText : ∀ value, value.depth ≤ readDepth →
    refuses (platform.jsonText value) = false ∧
      platform.loads (platform.jsonText value) = some value
  /-- How deep a response may be nested for `json.dumps` to get to its end in
  `_send_response`. -/
  replyDepth : Nat
  /-- A dictionary without another one in it is written. -/
  replyDepth_pos : 0 < replyDepth
  /-- How deep a message may be nested for `json.dumps` to get to its end in a client's
  `_send`. -/
  requestDepth : Nat
  /-- The replies that the loop makes up itself are short. -/
  jsonText_reason : ∀ reason ∈ ["Invalid JSON", "Message too large"],
    (encode (platform.jsonText
      (.obj [("status", .str "error"), ("reason", .str reason)]))).length < 2 ^ 32
  /-- And so is the response to a CONSUME that finds nothing. -/
  jsonText_empty : (encode (platform.jsonText (.obj [("status", .str "empty")]))).length < 2 ^ 32
  /-- The text that `json.dumps` makes of a dictionary key.  Of equal keys a dictionary keeps
  the first spelling, which is not recorded here. -/
  keyText : Key → String
  /-- The `db_path` that STATS reports. -/
  dbPath : String

/-- The replies of the loop, as the platform that can be run writes them. -/
theorem Platform.plain_reason : ∀ reason ∈ ["Invalid JSON", "Message too large"],
    (encode (Platform.plain.jsonText
      (.obj [("status", .str "error"), ("reason", .str reason)]))).length < 2 ^ 32 := by
  decide +kernel

theorem Platform.plain_empty :
    (encode (Platform.plain.jsonText (.obj [("status", .str "empty")]))).length < 2 ^ 32 := by
  decide +kernel

/-- A wire that can be run. -/
def Wire.plain : Wire where
  platform := .plain
  refuses _ := false
  readDepth := 986
  readDepth_pos := by decide
  reads_jsonText value _ := ⟨rfl, Json.ofText_toText value⟩
  replyDepth := 986
  replyDepth_pos := by decide
  requestDepth := 990
  jsonText_reason := Platform.plain_reason
  jsonText_empty := Platform.plain_empty
  keyText
    | .null => "null"
    | .num q => (Json.float q).toText
    | .nonFinite x => (Json.nonFinite x).toText
    | .str s => s
  dbPath := "distrosync.db"

/-- What `json.loads(raw.decode("utf-8"))` does. -/
inductive Parsed where
  | value (value : Json)
  /-- `JSONDecodeError` or `UnicodeDecodeError`. -/
  | invalid
  /-- Any other exception. -/
  | raised

namespace Wire

/-- `json.loads(raw.decode("utf-8"))`. -/
def parse (wire : Wire) (raw : Bytes) : Parsed :=
  match decode raw with
  | none => .invalid
  | some text =>
    if wire.refuses text then .raised
    else
      match wire.platform.loads text with
      | none => .invalid
      | some value => .value value

/-- `json.dumps(data).encode("utf-8")`, where `json.dumps` gets to its end. -/
def encoded (wire : Wire) (data : Json) : Bytes := encode (wire.platform.jsonText data)

/-- `length_prefix + encoded` at a call where the stack has frames for `depth` levels.
`json.dumps` raises `RecursionError` when there are more, and `to_bytes` raises
`OverflowError` for a length of 2³² and more. -/
def framed (wire : Wire) (depth : Nat) (data : Json) : Option Bytes :=
  match wire.platform.dumps depth data with
  | .error _ => none
  | .ok text => frame? (encode text)

/-- What `_send_response` writes. -/
def sendResponse (wire : Wire) (data : Json) : Option Bytes := wire.framed wire.replyDepth data

/-- What `ProducerClient._send` writes. -/
def producerSend (wire : Wire) (message : Json) : Option Bytes :=
  wire.framed wire.requestDepth message

/-- What `BaseWorker._send` writes. -/
def workerSend (wire : Wire) (message : Json) : Option Bytes :=
  wire.framed wire.requestDepth message

/-- The value can be written with this much stack, and its text has less than 2³² bytes. -/
def Writable (wire : Wire) (depth : Nat) (data : Json) : Prop :=
  data.depth ≤ depth ∧ (wire.encoded data).length < 2 ^ 32

instance (wire : Wire) (depth : Nat) (data : Json) : Decidable (wire.Writable depth data) :=
  inferInstanceAs (Decidable (_ ∧ _))

/-- `_send_response` gets to its end with the response. -/
def Sendable (wire : Wire) (data : Json) : Prop := wire.Writable wire.replyDepth data

instance (wire : Wire) (data : Json) : Decidable (wire.Sendable data) :=
  inferInstanceAs (Decidable (wire.Writable _ _))

section Frames

variable {wire : Wire} {depth : Nat} {data : Json}

/-- What is not nested too deeply is read as it was written. -/
theorem parse_encoded (shallow : data.depth ≤ wire.readDepth) :
    wire.parse (wire.encoded data) = .value data := by
  obtain ⟨taken, back⟩ := wire.reads_jsonText data shallow
  unfold parse encoded
  rw [decode_encode]
  simp [taken, back]

theorem framed_of_writable (writable : wire.Writable depth data) :
    wire.framed depth data = some (frame (wire.encoded data)) := by
  obtain ⟨shallow, short⟩ := writable
  have written : wire.platform.dumps depth data = .ok (wire.platform.jsonText data) :=
    Platform.dumps_eq_ok.mpr ⟨shallow, rfl⟩
  simp only [framed, written]
  exact if_pos short

theorem framed_of_not_writable (unwritable : ¬wire.Writable depth data) :
    wire.framed depth data = none := by
  unfold framed Platform.dumps
  by_cases shallow : data.depth ≤ depth
  · rw [if_pos shallow]
    exact if_neg fun short => unwritable ⟨shallow, short⟩
  · rw [if_neg shallow]

/-- `_send_response` writes a frame exactly for what is sendable. -/
theorem sendResponse_of_sendable (sendable : wire.Sendable data) :
    wire.sendResponse data = some (frame (wire.encoded data)) := framed_of_writable sendable

theorem sendResponse_of_not_sendable (unsendable : ¬wire.Sendable data) :
    wire.sendResponse data = none := framed_of_not_writable unsendable

end Frames

end Wire

end DistroSync
