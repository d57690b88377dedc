import Mathlib

/-!
# Python values that arrive as JSON

The values `json.loads` can produce, with the parts of Python's data model that code
handling unchecked messages runs into: truthiness, hashing, slicing, iteration, and
the equality that dictionary keys are compared by.

Hashing is where most unchecked values fail: a list or a dictionary cannot be a
dictionary key.  `Json.scalar?` returns the hashable values as a type of their own,
`Scalar`, so that a name that has been used as a key is known to be hashable from
its type.  Python compares keys by value across the numeric types (`1`, `1.0` and
`True` are one key); `Scalar.key` is the value a key is compared by.

A number with a fraction or an exponent is the rational value of the double it denotes, or
one of the three `NonFinite` values: `json.loads` reads `1e999` as infinity, and it accepts
`Infinity`, `-Infinity` and `NaN`.

Text is `String`.  A Python string may also hold surrogates that have no partner, which
`json.loads` makes of an escape such as `\ud800` and which no `Char` is.  The code at hand
passes text on, compares it and cuts it, and none of that depends on which characters a text
is made of; so the surrogates of a run can be represented by characters that the run does
not use otherwise.  Where they do make a difference, in the encodings that refuse them, the
models have a function of the text.

`Json.depth` is how deeply lists and objects are nested.  Writing a value down costs the
interpreter a frame for each level, and it raises `RecursionError` when it runs out of them.
-/

namespace Py

/-- The doubles that are no numbers. -/
inductive NonFinite where
  | inf
  | negInf
  | nan
  deriving DecidableEq

/-- A value returned by `json.loads`. -/
inductive Json where
  | null
  | bool (value : Bool)
  | int (value : Int)
  | float (value : Rat)
  | nonFinite (value : NonFinite)
  | str (value : String)
  | arr (items : List Json)
  | obj (fields : List (String × Json))

instance : Inhabited Json := ⟨.null⟩

/-- A hashable value: one that can be a dictionary key. -/
inductive Scalar where
  | null
  | bool (value : Bool)
  | int (value : Int)
  | float (value : Rat)
  | nonFinite (value : NonFinite)
  | str (value : String)
  deriving DecidableEq

/-- What dictionary keys are compared by.  A dictionary asks whether a key is the same object
before it asks whether it is equal, and `json.loads` returns the same object for every `NaN`:
as a key, `NaN` is found again. -/
inductive Key where
  | null
  | num (value : Rat)
  | nonFinite (value : NonFinite)
  | str (value : String)
  deriving DecidableEq

/-- The exceptions raised on values of the wrong kind and by the database driver. -/
inductive Error where
  | typeError
  | jsonDecodeError
  | overflowError
  | programmingError
  | operationalError
  | integrityError
  | unicodeEncodeError
  | recursionError
  deriving DecidableEq

namespace Scalar

/-- `True`, `1` and `1.0` are one key. -/
def key : Scalar → Key
  | null => .null
  | bool b => .num (if b then 1 else 0)
  | int i => .num i
  | float q => .num q
  | nonFinite x => .nonFinite x
  | str s => .str s

@[simp] theorem key_str (s : String) : (Scalar.str s).key = .str s := rfl

/-- A hashable value, as a value. -/
def toJson : Scalar → Json
  | null => .null
  | bool b => .bool b
  | int i => .int i
  | float q => .float q
  | nonFinite x => .nonFinite x
  | str s => .str s

end Scalar

/-- `bool(key)`. -/
def Key.truthy : Key → Bool
  | .null => false
  | .num q => q ≠ 0
  | .nonFinite _ => true
  | .str s => s ≠ ""

namespace Json

/-- `bool(value)`. -/
def truthy : Json → Bool
  | null => false
  | bool b => b
  | int i => i ≠ 0
  | float q => q ≠ 0
  | nonFinite _ => true
  | str s => s ≠ ""
  | arr items => !items.isEmpty
  | obj fields => !fields.isEmpty

/-- `value is None`. -/
def isNone : Json → Bool
  | null => true
  | _ => false

/-- The value as a dictionary key, or `none` where `hash(value)` raises `TypeError`. -/
def scalar? : Json → Option Scalar
  | null => some .null
  | bool b => some (.bool b)
  | int i => some (.int i)
  | float q => some (.float q)
  | nonFinite x => some (.nonFinite x)
  | str s => some (.str s)
  | arr _ => none
  | obj _ => none

/-- What a key equal to the value is stored under. -/
def key? (value : Json) : Option Key := value.scalar?.map Scalar.key

@[simp] theorem scalar?_str (s : String) : (Json.str s).scalar? = some (.str s) := rfl

theorem eq_str_of_scalar? {value : Json} {s : String} (hashed : value.scalar? = some (.str s)) :
    value = .str s := by
  cases value with
  | str text =>
    simp only [scalar?_str, Option.some.injEq, Scalar.str.injEq] at hashed
    rw [hashed]
  | _ => simp [scalar?] at hashed

/-- `value == scalar`.  Unlike the lookup of a key, the comparison finds `NaN` equal to
nothing. -/
def equals (value : Json) (scalar : Scalar) : Bool :=
  value.key? = some scalar.key && scalar.key ≠ .nonFinite .nan

@[simp] theorem equals_str (s : String) (scalar : Scalar) :
    (Json.str s).equals scalar = decide (Key.str s = scalar.key) := by
  cases scalar <;> simp [equals, key?, Scalar.key]

/-- Whether `value[:8]` is defined; it raises `TypeError` otherwise. -/
def sliceable : Json → Bool
  | str _ => true
  | arr _ => true
  | _ => false

/-- The values `for x in value` runs over, or `none` where it raises `TypeError`. -/
def items? : Json → Option (List Json)
  | str s => some (s.toList.map fun c => .str (String.singleton c))
  | arr items => some items
  | obj fields => some (fields.map fun field => .str field.1)
  | _ => none

end Json

/-! ## Nesting -/

mutual

/-- How deeply lists and objects are nested in a value. -/
def Json.depth : Json → Nat
  | .arr items => depthItems items + 1
  | .obj fields => depthFields fields + 1
  | _ => 0

/-- The depth of the deepest item. -/
def depthItems : List Json → Nat
  | [] => 0
  | value :: rest => max value.depth (depthItems rest)

/-- The depth of the deepest field. -/
def depthFields : List (String × Json) → Nat
  | [] => 0
  | (_, value) :: rest => max value.depth (depthFields rest)

end

@[simp] theorem Json.depth_str (s : String) : (Json.str s).depth = 0 := rfl

/-- What can be a key is not nested. -/
@[simp] theorem Scalar.depth_toJson (scalar : Scalar) : scalar.toJson.depth = 0 := by
  cases scalar <;> rfl

/-- A JSON object, as the dictionary `json.loads` makes of it. -/
abbrev Message := List (String × Json)

/-- `message.get(field, default)`. -/
def Message.get (message : Message) (field : String) (default : Json) : Json :=
  (message.lookup field).getD default

/-- `xs[:limit]` for an integer limit: a negative one counts from the end. -/
def sliceTo {α : Type*} (xs : List α) (limit : Int) : List α :=
  if 0 ≤ limit then xs.take limit.toNat else xs.take (xs.length - limit.natAbs)

@[simp] theorem sliceTo_natCast {α : Type*} (xs : List α) (n : Nat) :
    sliceTo xs (n : Int) = xs.take n := by
  simp [sliceTo]

theorem sliceTo_sublist {α : Type*} (xs : List α) (limit : Int) :
    (sliceTo xs limit).Sublist xs := by
  unfold sliceTo
  split <;> exact List.take_sublist _ xs

/-- `round(x, digits)`: ties go to the even neighbour. -/
def roundTo (x : Rat) (digits : Nat) : Rat :=
  let scaled := x * 10 ^ digits
  let below := scaled.floor
  let rest := scaled - below
  let rounded :=
    if rest < 1 / 2 then below
    else if 1 / 2 < rest then below + 1
    else if below % 2 = 0 then below
    else below + 1
  (rounded : Rat) / 10 ^ digits

end Py
