import DistroSync.Lib.PyValue

/-!
# A text form of JSON values

A writer and a reader with the property that `json.dumps` and `json.loads` are
trusted to have: reading undoes writing.  Every value starts with a tag and tells
where it ends, so the reader needs no lookahead past it; in strings the quotation
mark and the backslash are escaped.

The text is not the one the json module writes.  What it is for is to run programs
that only rely on the round trip.
-/

namespace Py

namespace JsonText

/-! ## Numbers -/

/-- A decimal digit. -/
def digit (d : Nat) : Char := Char.ofNat (48 + d)

/-- The value of a decimal digit. -/
def digitValue (c : Char) : Nat := c.toNat - 48

/-- The digits of a number, units first, and a terminator. -/
def writeNat (n : Nat) : List Char := (Nat.digits 10 n).map digit ++ [';']

/-- Read digits up to the terminator. -/
def readNat : List Char → Option (Nat × List Char)
  | [] => none
  | c :: rest =>
    if c = ';' then some (0, rest)
    else (readNat rest).map fun (n, rest) => (digitValue c + 10 * n, rest)

theorem digitValue_digit {d : Nat} (small : d < 10) : digitValue (digit d) = d ∧ digit d ≠ ';' := by
  interval_cases d <;> decide

theorem readNat_digits (digits : List Nat) (small : ∀ d ∈ digits, d < 10) (rest : List Char) :
    readNat (digits.map digit ++ ';' :: rest) = some (Nat.ofDigits 10 digits, rest) := by
  induction digits with
  | nil => simp [readNat, Nat.ofDigits]
  | cons d more ih =>
    obtain ⟨value, notEnd⟩ := digitValue_digit (small d (by simp))
    have later := ih fun x inside => small x (List.mem_cons_of_mem _ inside)
    simp [readNat, notEnd, later, value, Nat.ofDigits_cons]

theorem readNat_writeNat (n : Nat) (rest : List Char) :
    readNat (writeNat n ++ rest) = some (n, rest) := by
  have read := readNat_digits (Nat.digits 10 n)
    (fun d inside => Nat.digits_lt_base (by norm_num) inside) rest
  rw [Nat.ofDigits_digits] at read
  simpa [writeNat] using read

/-- A sign and the digits. -/
def writeInt : Int → List Char
  | .ofNat n => '+' :: writeNat n
  | .negSucc n => '-' :: writeNat n

/-- Read a sign and digits. -/
def readInt : List Char → Option (Int × List Char)
  | '+' :: rest => (readNat rest).map fun (n, rest) => (.ofNat n, rest)
  | '-' :: rest => (readNat rest).map fun (n, rest) => (.negSucc n, rest)
  | _ => none

theorem readInt_writeInt (i : Int) (rest : List Char) :
    readInt (writeInt i ++ rest) = some (i, rest) := by
  cases i with
  | ofNat n => simp [writeInt, readInt, readNat_writeNat]
  | negSucc n => simp [writeInt, readInt, readNat_writeNat]

/-- Numbers are written in ASCII. -/
theorem ascii_writeNat (n : Nat) : ∀ c ∈ writeNat n, c.toNat < 128 := by
  intro c inside
  rcases List.mem_append.mp inside with isDigit | isEnd
  · obtain ⟨d, listed, rfl⟩ := List.mem_map.mp isDigit
    have small : d < 10 := Nat.digits_lt_base (by norm_num) listed
    interval_cases d <;> decide
  · obtain rfl := List.mem_singleton.mp isEnd
    decide

theorem ascii_writeInt (i : Int) : ∀ c ∈ writeInt i, c.toNat < 128 := by
  intro c inside
  cases i with
  | ofNat n =>
    rcases List.mem_cons.mp inside with rfl | digits
    · decide
    · exact ascii_writeNat n c digits
  | negSucc n =>
    rcases List.mem_cons.mp inside with rfl | digits
    · decide
    · exact ascii_writeNat n c digits

/-! ## Strings -/

/-- The quotation mark that ends a string. -/
def quote : Char := '\x22'

/-- The backslash that stands before a quotation mark or a backslash of the string. -/
def escape : Char := '\x5c'

/-- The characters of a string, escaped, and the closing quotation mark. -/
def writeChars : List Char → List Char
  | [] => [quote]
  | c :: rest =>
    if c = quote ∨ c = escape then escape :: c :: writeChars rest else c :: writeChars rest

/-- Read characters up to the closing quotation mark. -/
def readChars : List Char → Option (List Char × List Char)
  | [] => none
  | [c] => if c = quote then some ([], []) else none
  | c :: d :: rest =>
    if c = quote then some ([], d :: rest)
    else if c = escape then (readChars rest).map fun (cs, rest) => (d :: cs, rest)
    else (readChars (d :: rest)).map fun (cs, rest) => (c :: cs, rest)

theorem writeChars_ne_nil (cs : List Char) : writeChars cs ≠ [] := by
  cases cs with
  | nil => simp [writeChars]
  | cons c rest =>
    unfold writeChars
    split <;> simp

theorem readChars_writeChars (cs rest : List Char) :
    readChars (writeChars cs ++ rest) = some (cs, rest) := by
  induction cs with
  | nil => cases rest <;> simp [writeChars, readChars]
  | cons c more ih =>
    by_cases escaped : c = quote ∨ c = escape
    · have notQuote : escape ≠ quote := by decide
      simp [writeChars, escaped, readChars, notQuote, ih]
    · obtain ⟨notQuote, notEscape⟩ := not_or.mp escaped
      obtain ⟨d, tail, shape⟩ := List.exists_cons_of_ne_nil (writeChars_ne_nil more)
      rw [shape, List.cons_append] at ih
      simp [writeChars, readChars, notQuote, notEscape, shape, ih]

/-! ## Values -/

mutual

/-- A tag, and what the tag announces. -/
def write : Json → List Char
  | .null => ['n']
  | .bool true => ['t']
  | .bool false => ['f']
  | .int i => 'i' :: writeInt i
  | .float q => 'd' :: (writeInt q.num ++ writeNat q.den)
  | .nonFinite .inf => ['p']
  | .nonFinite .negInf => ['m']
  | .nonFinite .nan => ['u']
  | .str s => 's' :: writeChars s.toList
  | .arr items => 'a' :: writeItems items
  | .obj fields => 'o' :: writeFields fields

/-- The items of an array and an end mark. -/
def writeItems : List Json → List Char
  | [] => ['.']
  | value :: rest => write value ++ writeItems rest

/-- The fields of an object and an end mark. -/
def writeFields : List (String × Json) → List Char
  | [] => ['.']
  | (name, value) :: rest => ',' :: (writeChars name.toList ++ (write value ++ writeFields rest))

end

mutual

/-- Read one value; `fuel` bounds the number of calls. -/
def read : Nat → List Char → Option (Json × List Char)
  | 0, _ => none
  | _ + 1, [] => none
  | fuel + 1, tag :: cs =>
    if tag = 'n' then some (.null, cs)
    else if tag = 't' then some (.bool true, cs)
    else if tag = 'f' then some (.bool false, cs)
    else if tag = 'i' then (readInt cs).map fun (i, cs) => (.int i, cs)
    else if tag = 'd' then
      (readInt cs).bind fun (num, cs) =>
        (readNat cs).map fun (den, cs) => (.float (mkRat num den), cs)
    else if tag = 'p' then some (.nonFinite .inf, cs)
    else if tag = 'm' then some (.nonFinite .negInf, cs)
    else if tag = 'u' then some (.nonFinite .nan, cs)
    else if tag = 's' then (readChars cs).map fun (s, cs) => (.str (String.ofList s), cs)
    else if tag = 'a' then (readItems fuel cs).map fun (items, cs) => (.arr items, cs)
    else if tag = 'o' then (readFields fuel cs).map fun (fields, cs) => (.obj fields, cs)
    else none

/-- Read values up to the end mark. -/
def readItems : Nat → List Char → Option (List Json × List Char)
  | 0, _ => none
  | _ + 1, [] => none
  | fuel + 1, c :: cs =>
    if c = '.' then some ([], cs)
    else
      (read fuel (c :: cs)).bind fun (value, cs) =>
        (readItems fuel cs).map fun (rest, cs) => (value :: rest, cs)

/-- Read fields up to the end mark. -/
def readFields : Nat → List Char → Option (List (String × Json) × List Char)
  | 0, _ => none
  | _ + 1, [] => none
  | fuel + 1, c :: cs =>
    if c = '.' then some ([], cs)
    else if c = ',' then
      (readChars cs).bind fun (name, cs) =>
        (read fuel cs).bind fun (value, cs) =>
          (readFields fuel cs).map fun (rest, cs) => ((String.ofList name, value) :: rest, cs)
    else none

end

theorem ascii_write_float (q : Rat) : ∀ c ∈ write (.float q), c.toNat < 128 := by
  intro c inside
  simp only [write] at inside
  rcases List.mem_cons.mp inside with rfl | digits
  · decide
  · rcases List.mem_append.mp digits with num | den
    · exact ascii_writeInt _ c num
    · exact ascii_writeNat _ c den

theorem write_head (value : Json) : ∃ tag rest, write value = tag :: rest ∧ tag ≠ '.' := by
  cases value with
  | bool b => cases b <;> exact ⟨_, _, rfl, by decide⟩
  | nonFinite x => cases x <;> exact ⟨_, _, rfl, by decide⟩
  | _ => exact ⟨_, _, rfl, by decide⟩

theorem length_write_pos (value : Json) : 0 < (write value).length := by
  obtain ⟨tag, rest, shape, -⟩ := write_head value
  simp [shape]

mutual

/-- Reading undoes writing, whatever follows. -/
theorem read_write (value : Json) (fuel : Nat) (enough : (write value).length ≤ fuel)
    (after : List Char) : read fuel (write value ++ after) = some (value, after) := by
  obtain ⟨fuel, rfl⟩ : ∃ n, fuel = n + 1 :=
    ⟨fuel - 1, by have := length_write_pos value; omega⟩
  cases value with
  | null => simp [write, read]
  | bool b => cases b <;> simp [write, read]
  | int i => simp [write, read, readInt_writeInt]
  | float q => simp [write, read, readInt_writeInt, readNat_writeNat, Rat.mkRat_self]
  | nonFinite x => cases x <;> simp [write, read]
  | str s => simp [write, read, readChars_writeChars]
  | arr items =>
    have inner := readItems_writeItems items fuel (by simpa [write] using enough) after
    simp [write, read, inner]
  | obj fields =>
    have inner := readFields_writeFields fields fuel (by simpa [write] using enough) after
    simp [write, read, inner]

theorem readItems_writeItems (items : List Json) (fuel : Nat)
    (enough : (writeItems items).length ≤ fuel) (after : List Char) :
    readItems fuel (writeItems items ++ after) = some (items, after) := by
  cases items with
  | nil =>
    obtain ⟨fuel, rfl⟩ : ∃ n, fuel = n + 1 := ⟨fuel - 1, by simp [writeItems] at enough; omega⟩
    simp [writeItems, readItems]
  | cons value rest =>
    have positive := length_write_pos value
    simp only [writeItems, List.length_append] at enough
    obtain ⟨fuel, rfl⟩ : ∃ n, fuel = n + 1 := ⟨fuel - 1, by omega⟩
    have last : 0 < (writeItems rest).length := by
      cases rest with
      | nil => simp [writeItems]
      | cons next more =>
        have := length_write_pos next
        simp only [writeItems, List.length_append]
        omega
    have head := read_write value fuel (by omega) (writeItems rest ++ after)
    have tail := readItems_writeItems rest fuel (by omega) after
    obtain ⟨tag, more, shape, notEnd⟩ := write_head value
    simp only [shape, List.cons_append] at head
    simp [writeItems, readItems, shape, notEnd, head, tail]

theorem readFields_writeFields (fields : List (String × Json)) (fuel : Nat)
    (enough : (writeFields fields).length ≤ fuel) (after : List Char) :
    readFields fuel (writeFields fields ++ after) = some (fields, after) := by
  cases fields with
  | nil =>
    obtain ⟨fuel, rfl⟩ : ∃ n, fuel = n + 1 := ⟨fuel - 1, by simp [writeFields] at enough; omega⟩
    simp [writeFields, readFields]
  | cons field rest =>
    obtain ⟨name, value⟩ := field
    have positive := length_write_pos value
    simp only [writeFields, List.length_cons, List.length_append] at enough
    obtain ⟨fuel, rfl⟩ : ∃ n, fuel = n + 1 := ⟨fuel - 1, by omega⟩
    have head := read_write value fuel (by omega) (writeFields rest ++ after)
    have tail := readFields_writeFields rest fuel (by omega) after
    simp [writeFields, readFields, readChars_writeChars, head, tail]

end

end JsonText

/-- A value as text. -/
def Json.toText (value : Json) : String := String.ofList (JsonText.write value)

/-- The value a text stands for. -/
def Json.ofText (text : String) : Option Json :=
  match JsonText.read text.toList.length text.toList with
  | some (value, []) => some value
  | _ => none

theorem Json.ofText_toText (value : Json) : Json.ofText value.toText = some value := by
  have back := JsonText.read_write value (JsonText.write value).length le_rfl []
  rw [List.append_nil] at back
  simp [Json.ofText, Json.toText, back]

end Py
