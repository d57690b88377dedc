import DistroSync.Lib.Framing

/-!
# HTTP responses as bytes

A response is a status line, field lines, an empty line and the body.  `Response.write` is
the response as a server sends it.  `read` is a client: it takes lines up to the empty one,
and then as many bytes as the field `Content-Length` says, or all there are where no such
field stands.

Where the texts of the head are printable ASCII and no name has a colon, the head can be read
back (`readHead_write`).  If the length that it declares is that of the body, so can the
response, and the bytes behind it are left alone (`read_write`).
-/

namespace Http

open Framing

/-! ## Printable text -/

/-- Printable ASCII. -/
def Printable (text : String) : Prop := ∀ c ∈ text.toList, 32 ≤ c.toNat ∧ c.toNat < 127

theorem Printable.append {first second : String} (printable : Printable first)
    (printable' : Printable second) : Printable (first ++ second) := by
  intro c inside
  rw [String.toList_append, List.mem_append] at inside
  exact inside.elim (printable c) (printable' c)

theorem encode_eq_flatMap (text : String) :
    encode text = text.toList.flatMap String.utf8EncodeChar := by
  show text.toByteArray.data.toList = _
  rw [← String.utf8Encode_toList, List.utf8Encode, List.data_toByteArray]

theorem encode_append (first second : String) :
    encode (first ++ second) = encode first ++ encode second := by
  simp [encode_eq_flatMap]

/-- The bytes of a printable text are its characters. -/
theorem encode_of_printable {text : String} (printable : Printable text) :
    encode text = text.toList.map fun c => UInt8.ofNat c.toNat := by
  rw [encode_eq_flatMap, ← List.flatMap_pure_eq_map]
  refine List.flatMap_congr fun c inside => ?_
  exact if_pos (Nat.le_of_lt (printable c inside).2)

/-- The characters that the bytes of a head stand for. -/
def latin1 (bytes : Bytes) : List Char := bytes.map fun byte => Char.ofNat byte.toNat

/-- Printable text is ASCII, which reads the same in Latin-1. -/
theorem latin1_encode {text : String} (printable : Printable text) :
    latin1 (encode text) = text.toList := by
  rw [encode_of_printable printable, latin1, List.map_map]
  refine (List.map_congr_left fun c inside => ?_).trans (List.map_id _)
  have small : c.toNat % 256 = c.toNat := Nat.mod_eq_of_lt (by grind [printable c inside])
  show Char.ofNat (UInt8.ofNat c.toNat).toNat = c
  rw [UInt8.toNat_ofNat', small, Char.ofNat_toNat]

/-! ## Lines -/

/-- What a line ends with. -/
def lineEnd : Bytes := [13, 10]

/-- The first line, without its end, and what comes after. -/
def readLine : Bytes → Option (Bytes × Bytes)
  | [] => none
  | byte :: rest =>
    if lineEnd <+: byte :: rest then some ([], rest.drop 1)
    else (readLine rest).map (Prod.map (byte :: ·) id)

theorem readLine_append {line : Bytes} (inside : 13 ∉ line) (rest : Bytes) :
    readLine (line ++ lineEnd ++ rest) = some (line, rest) := by
  induction line with
  | nil => rfl
  | cons byte line ih =>
    rw [List.mem_cons, not_or] at inside
    have goesOn : ¬lineEnd <+: byte :: (line ++ lineEnd ++ rest) := by
      intro ends
      exact inside.1 (List.cons_prefix_cons.mp ends).1
    show readLine (byte :: (line ++ lineEnd ++ rest)) = _
    rw [readLine, if_neg goesOn, ih inside.2]
    rfl

/-- The lines up to the first empty one, and what comes after; one line for each unit of
fuel. -/
def readLines : Nat → Bytes → Option (List Bytes × Bytes)
  | 0, _ => none
  | fuel + 1, bytes =>
    match readLine bytes with
    | none => none
    | some ([], rest) => some ([], rest)
    | some (line, rest) => (readLines fuel rest).map (Prod.map (line :: ·) id)

/-- The lines of a head, with its empty line. -/
def headBytes (lines : List Bytes) : Bytes := lines.flatMap (· ++ lineEnd) ++ lineEnd

theorem length_headBytes (lines : List Bytes) : lines.length < (headBytes lines).length := by
  induction lines with
  | nil => decide
  | cons line lines ih =>
    simp only [headBytes, List.flatMap_cons, List.length_append, List.length_cons] at ih ⊢
    have two : lineEnd.length = 2 := rfl
    omega

/-- **The lines of a head are read back.** -/
theorem readLines_headBytes {lines : List Bytes} (inside : ∀ line ∈ lines, line ≠ [] ∧ 13 ∉ line)
    {fuel : Nat} (enough : lines.length < fuel) (rest : Bytes) :
    readLines fuel (headBytes lines ++ rest) = some (lines, rest) := by
  induction lines generalizing fuel with
  | nil =>
    obtain ⟨fuel, rfl⟩ := Nat.exists_eq_add_one_of_ne_zero (Nat.ne_zero_of_lt enough)
    rfl
  | cons line lines ih =>
    obtain ⟨fuel, rfl⟩ := Nat.exists_eq_add_one_of_ne_zero (Nat.ne_zero_of_lt enough)
    obtain ⟨isLine, noEnd⟩ := inside line List.mem_cons_self
    have first : readLine (headBytes (line :: lines) ++ rest) =
        some (line, headBytes lines ++ rest) := by
      rw [← readLine_append noEnd]
      simp [headBytes]
    have others := ih (fun other isOther => inside other (List.mem_cons_of_mem _ isOther))
      (Nat.lt_of_succ_lt_succ enough)
    unfold readLines
    rw [first]
    split
    · contradiction
    · grind
    · grind

/-! ## Responses -/

structure Response where
  status : Nat
  reason : String
  /-- The names of the fields and their values, in the order of the lines. -/
  fields : List (String × String)
  body : Bytes

/-- The value of the first field of this name; case does not matter in names. -/
def Response.field (r : Response) (name : String) : Option String :=
  (r.fields.find? fun field => field.1.toLower = name.toLower).map Prod.snd

def version : String := "HTTP/1.1 "

def statusLine (status : Nat) (reason : String) : String :=
  version ++ toString status ++ " " ++ reason

def fieldLine (field : String × String) : String := field.1 ++ ": " ++ field.2

/-- The lines of the head. -/
def Response.lines (r : Response) : List String :=
  statusLine r.status r.reason :: r.fields.map fieldLine

/-- The head as text, with the empty line. -/
def Response.head (r : Response) : String :=
  r.lines.foldr (fun line rest => line ++ "\r\n" ++ rest) "\r\n"

/-- The response as it is sent. -/
def Response.write (r : Response) : Bytes := encode r.head ++ r.body

theorem encode_lineEnd : encode "\r\n" = lineEnd := by decide +kernel

theorem encode_head (r : Response) : encode r.head = headBytes (r.lines.map encode) := by
  unfold Response.head
  induction r.lines with
  | nil => exact encode_lineEnd
  | cons line lines ih =>
    rw [List.foldr_cons, encode_append, encode_append, ih, encode_lineEnd]
    simp [headBytes]

/-! ## Reading -/

def parseStatusLine (line : List Char) : Option (Nat × String) :=
  if version.toList <+: line then
    let rest := line.drop version.toList.length
    match rest.dropWhile Char.isDigit with
    | ' ' :: reason =>
      some (Nat.ofDigitChars 10 (rest.takeWhile Char.isDigit) 0, String.ofList reason)
    | _ => none
  else none

/-- Blanks after the colon are not part of the value. -/
def parseField (line : List Char) : Option (String × String) :=
  match line.dropWhile (· ≠ ':') with
  | [] => none
  | _ :: value =>
    some (String.ofList (line.takeWhile (· ≠ ':')), String.ofList (value.dropWhile (· = ' ')))

/-- The head of a response, and what comes after. -/
def readHead (bytes : Bytes) : Option (Response × Bytes) :=
  match readLines bytes.length bytes with
  | some (line :: lines, rest) => do
    let (status, reason) ← parseStatusLine (latin1 line)
    let fields ← lines.mapM fun line => parseField (latin1 line)
    return (⟨status, reason, fields, []⟩, rest)
  | _ => none

/-- A response, and what comes after. -/
def read (bytes : Bytes) : Option (Response × Bytes) := do
  let (head, rest) ← readHead bytes
  match head.field "Content-Length" with
  | none => return ({ head with body := rest }, [])
  | some value =>
    let length ← value.toNat?
    if length ≤ rest.length then
      return ({ head with body := rest.take length }, rest.drop length)
    else none

/-! ## The round trip -/

/-- A field whose name ends at the colon, and whose value starts after the blank. -/
structure Clean (field : String × String) : Prop where
  name : Printable field.1
  colon : ':' ∉ field.1.toList
  value : Printable field.2
  blank : field.2.toList.head? ≠ some ' '

/-- The texts of the head can be read back. -/
structure Response.Sendable (r : Response) : Prop where
  reason : Printable r.reason
  fields : ∀ field ∈ r.fields, Clean field

theorem toList_toString (n : Nat) : (toString n).toList = Nat.toDigits 10 n := by
  rw [Nat.toString_eq_repr, Nat.repr, String.toList_ofList]

theorem isDigit_of_mem_toString {n : Nat} {c : Char} (inside : c ∈ (toString n).toList) :
    c.isDigit := by
  rw [toList_toString] at inside
  exact Nat.isDigit_of_mem_toDigits (by decide) (by decide) inside

theorem printable_toString (n : Nat) : Printable (toString n) := by
  intro c inside
  have digit := isDigit_of_mem_toString inside
  simp only [Char.isDigit, Bool.and_eq_true, decide_eq_true_eq, UInt32.le_iff_toNat_le] at digit
  have low : 48 ≤ c.toNat := digit.1
  have high : c.toNat ≤ 57 := digit.2
  omega

theorem parseStatusLine_statusLine (status : Nat) (reason : String) :
    parseStatusLine (statusLine status reason).toList = some (status, reason) := by
  have text : (statusLine status reason).toList =
      version.toList ++ ((toString status).toList ++ ' ' :: reason.toList) := by
    simp [statusLine]
  have digits : ∀ c ∈ (toString status).toList, c.isDigit :=
    fun c inside => isDigit_of_mem_toString inside
  have blank : Char.isDigit ' ' = false := by decide
  unfold parseStatusLine
  rw [text, if_pos (List.prefix_append _ _)]
  simp only [List.drop_left, List.dropWhile_append_of_pos digits,
    List.takeWhile_append_of_pos digits, List.dropWhile_cons, List.takeWhile_cons, blank]
  simp [Nat.ofDigitChars_ten_toDigits]

/-- A clean name has no colon, so the first one ends it. -/
theorem parseField_fieldLine {field : String × String} (clean : Clean field) :
    parseField (fieldLine field).toList = some field := by
  have text : (fieldLine field).toList = field.1.toList ++ ':' :: ' ' :: field.2.toList := by
    simp [fieldLine]
  have before : ∀ c ∈ field.1.toList, decide (c ≠ ':') = true := by
    intro c inside
    exact decide_eq_true fun isColon => clean.colon (isColon ▸ inside)
  have kept : field.2.toList.dropWhile (· = ' ') = field.2.toList := by
    cases chars : field.2.toList with
    | nil => rfl
    | cons c rest =>
      have first := clean.blank
      rw [chars] at first
      exact List.dropWhile_cons_of_neg (by simpa using first)
  unfold parseField
  rw [text, List.dropWhile_append_of_pos before, List.takeWhile_append_of_pos before]
  simp [kept]

variable {r : Response}

theorem Response.Sendable.printable (sendable : r.Sendable) {line : String}
    (inside : line ∈ r.lines) : Printable line ∧ line ≠ "" := by
  have versionText : Printable version := by simp [Printable, version]
  have blank : Printable " " := by simp [Printable]
  have colon : Printable ": " := by simp [Printable]
  rcases List.mem_cons.mp inside with rfl | isLine
  · refine ⟨((versionText.append (printable_toString _)).append blank).append sendable.reason, ?_⟩
    intro empty
    have := congrArg String.length empty
    simp [statusLine, version] at this
  · obtain ⟨field, isField, rfl⟩ := List.mem_map.mp isLine
    have clean := sendable.fields field isField
    refine ⟨(clean.name.append colon).append clean.value, ?_⟩
    intro empty
    have := congrArg String.length empty
    simp [fieldLine] at this

/-- A printable line is not cut. -/
theorem whole_of_printable {line : String} (printable : Printable line) (isLine : line ≠ "") :
    encode line ≠ [] ∧ 13 ∉ encode line := by
  rw [encode_of_printable printable]
  refine ⟨by simpa using isLine, ?_⟩
  intro inside
  obtain ⟨c, isChar, ends⟩ := List.mem_map.mp inside
  have code := congrArg UInt8.toNat ends
  rw [UInt8.toNat_ofNat'] at code
  have range := printable c isChar
  have : (13 : UInt8).toNat = 13 := rfl
  omega

theorem mapM_parseField {fields : List (String × String)}
    (parsed : ∀ field ∈ fields, parseField (latin1 (encode (fieldLine field))) = some field) :
    (fields.map (encode ∘ fieldLine)).mapM (fun line => parseField (latin1 line)) =
      some fields := by
  induction fields with
  | nil => rfl
  | cons field fields ih =>
    have others := ih fun other isOther => parsed other (List.mem_cons_of_mem _ isOther)
    rw [List.map_cons, List.mapM_cons, others]
    simp [parsed field List.mem_cons_self]

theorem Response.Sendable.parseField_encode (sendable : r.Sendable) {field : String × String}
    (isField : field ∈ r.fields) :
    parseField (latin1 (encode (fieldLine field))) = some field := by
  have isLine : fieldLine field ∈ r.lines := List.mem_cons_of_mem _ (List.mem_map_of_mem isField)
  rw [latin1_encode (sendable.printable isLine).1]
  exact parseField_fieldLine (sendable.fields field isField)

/-- **The head of a response is read back.** -/
theorem readHead_write (sendable : r.Sendable) (rest : Bytes) :
    readHead (r.write ++ rest) = some ({ r with body := [] }, r.body ++ rest) := by
  have lines : readLines (r.write ++ rest).length (r.write ++ rest) =
      some (r.lines.map encode, r.body ++ rest) := by
    unfold Response.write
    rw [encode_head, List.append_assoc]
    refine readLines_headBytes ?_ ?_ _
    · intro line inside
      obtain ⟨text, isLine, rfl⟩ := List.mem_map.mp inside
      exact whole_of_printable (sendable.printable isLine).1 (sendable.printable isLine).2
    · have := length_headBytes (r.lines.map encode)
      rw [List.length_append]
      omega
  have status : latin1 (encode (statusLine r.status r.reason)) =
      (statusLine r.status r.reason).toList :=
    latin1_encode (sendable.printable List.mem_cons_self).1
  have fields := mapM_parseField fun field isField => sendable.parseField_encode isField
  unfold readHead
  rw [lines]
  simp [Response.lines, status, parseStatusLine_statusLine, fields]

/-- **What a client reads of a response is the response**, up to where it ends. -/
theorem read_write (sendable : r.Sendable)
    (declared : r.field "Content-Length" = some (toString r.body.length)) (rest : Bytes) :
    read (r.write ++ rest) = some (r, rest) := by
  have length : Response.field { r with body := [] } "Content-Length" =
      some (toString r.body.length) := declared
  unfold read
  simp [readHead_write sendable rest, length, Nat.toNat?_repr]

/-- Without a length, the body is all that is sent. -/
theorem read_write_undeclared (sendable : r.Sendable)
    (undeclared : r.field "Content-Length" = none) : read r.write = some (r, []) := by
  have length : Response.field { r with body := [] } "Content-Length" = none := undeclared
  have head := readHead_write sendable []
  rw [List.append_nil, List.append_nil] at head
  unfold read
  simp [head, length]

end Http
