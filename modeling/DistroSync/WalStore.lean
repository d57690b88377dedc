import DistroSync.Lib.JsonText
import DistroSync.QueueManager

/-!
# The write-ahead-log store

`persistence/wal_store.py`: the two tables, as the committed statements leave them, and
the conversions between Python values and columns.

A `Database` is the durable state: it survives the broker process.  What the open
connection remembers (whether a statement has implicitly begun a transaction that
nobody committed) is not part of it and belongs to the process.

`Platform` collects what the store takes from Python and SQLite: the texts of `json.dumps`
and their reading by `json.loads`, of which only the round trip is assumed, `str()`, and
SQLite's renderings of a REAL as TEXT and of a TEXT as a LIMIT.

Neither library takes every value that a message can hold.  `json.dumps` needs a frame of
the interpreter's stack for each level of nesting, and how many are left depends on the
call; `Platform.dumps` raises `RecursionError` beyond them.  `sqlite3` encodes a text before
it binds it, and `Platform.bindError` is what it raises when it cannot.
-/

namespace DistroSync

open Keyed Py

variable {platform : Platform} {s text : String}

/-- The library functions the broker and its store rely on. -/
structure Platform where
  /-- The text that `json.dumps` makes of a value, where it gets to its end. -/
  jsonText : Json → String
  /-- `json.loads`, `none` where it raises `JSONDecodeError`. -/
  loads : String → Option Json
  /-- How deep a payload may be nested for the store's `json.dumps` to get to its end. -/
  storeDepth : Nat
  /-- `json.loads` undoes the store's `json.dumps`. -/
  loads_jsonText : ∀ value, value.depth ≤ storeDepth → loads (jsonText value) = some value
  /-- `str(value)`, as format strings insert it. -/
  str : Json → String
  /-- How deep a list may be nested for a format string of a handler to get to its end. -/
  strDepth : Nat
  /-- The text a TEXT column holds after a REAL was stored in it. -/
  realText : Rat → String
  /-- SQLite prints a REAL with 15 significant digits and a short exponent. -/
  realText_short : ∀ q, (realText q).length < 36
  /-- And it prints it in ASCII. -/
  realText_ascii : ∀ q, ∀ c ∈ (realText q).toList, c.toNat < 128
  /-- What `sqlite3` raises when it is given a text to bind, if anything: it encodes the text
  as UTF-8, which has no code for a surrogate. -/
  bindError : String → Option Error
  /-- ASCII has a code for each of its characters. -/
  bindError_ascii : ∀ text, text.length < 36 → (∀ c ∈ text.toList, c.toNat < 128) →
    bindError text = none
  /-- A dictionary with nothing in it can be stored. -/
  storeDepth_pos : 0 < storeDepth
  bindError_empty : bindError (jsonText (.obj [])) = none
  /-- The integer a text is taken for in a LIMIT clause, if any. -/
  limitOfText : String → Option Int

/-- `json.dumps(value)`, where the stack has frames for this many levels. -/
def Platform.dumps (platform : Platform) (depth : Nat) (value : Json) : Except Error String :=
  if value.depth ≤ depth then .ok (platform.jsonText value) else .error .recursionError

/-- `json.dumps` fails by depth only. -/
theorem Platform.dumps_eq_ok {depth : Nat} {value : Json} :
    platform.dumps depth value = .ok text ↔
      value.depth ≤ depth ∧ text = platform.jsonText value := by
  unfold dumps
  split
  · rename_i within
    simp [within, eq_comm]
  · rename_i deep
    simp [deep]

/-- The character that stands for the surrogate U+D800 where a platform is run. -/
def surrogate : Char := Char.ofNat 0xFFFF

/-- A platform that can be run, with its own text form of JSON values. -/
def Platform.plain : Platform where
  jsonText := Json.toText
  loads := Json.ofText
  storeDepth := 983
  loads_jsonText value _ := Json.ofText_toText value
  str
    | .str s => s
    | value => value.toText
  strDepth := 983
  realText q := String.ofList ((JsonText.write (.float q)).take 24)
  realText_short q := by simp
  realText_ascii q c inside := by
    rw [String.toList_ofList] at inside
    exact JsonText.ascii_write_float q c (List.mem_of_mem_take inside)
  bindError text :=
    if text.toList.contains surrogate then some .unicodeEncodeError else none
  bindError_ascii text _ ascii := by
    have absent : text.toList.contains surrogate = false := by
      rw [Bool.eq_false_iff, Ne, List.contains_iff_mem]
      intro inside
      exact absurd (ascii surrogate inside) (by decide)
    rw [absent]
    rfl
  storeDepth_pos := by decide
  bindError_empty := by decide +kernel
  limitOfText := String.toInt?

/-- A row of `tasks`. -/
structure TaskRow where
  taskId : String
  queueName : String
  payload : String
  status : TaskStatus
  attempts : Nat
  assignedWorker : Option String
  createdAt : Rat
  updatedAt : Rat
  deriving DecidableEq

/-- A row of `dead_letter_queue`. -/
structure DlqRow where
  taskId : String
  queueName : String
  payload : String
  finalError : String
  attempts : Nat
  deadLetteredAt : Rat
  deriving DecidableEq

/-- The committed content of the database file.  `broker_metadata` is left out: the broker
never writes it. -/
structure Database where
  tasks : Table TaskRow.taskId := Table.empty
  deadLetterQueue : Table DlqRow.taskId := Table.empty

/-- A task that recovery has to bring back: `status IN ('pending', 'in_flight')`. -/
def TaskStatus.live : TaskStatus → Bool
  | .pending => true
  | .inFlight => true
  | .done => false
  | .deadLettered => false

/-- `TaskRow`s that recovery brings back. -/
def TaskRow.live (row : TaskRow) : Bool := row.status.live

/-- The columns that `update_task_status` sets.  The worker's column is set only if one is
given; what is given may be NULL. -/
def TaskRow.mark (row : TaskRow) (status : TaskStatus) (attempts : Option Nat)
    (assignedWorker : Option (Option String)) (now : Rat) : TaskRow :=
  { row with
    status
    attempts := attempts.getD row.attempts
    assignedWorker := assignedWorker.getD row.assignedWorker
    updatedAt := now }

@[simp] theorem TaskRow.mark_taskId (row : TaskRow) (status : TaskStatus) (attempts : Option Nat)
    (worker : Option (Option String)) (now : Rat) :
    (row.mark status attempts worker now).taskId = row.taskId := rfl

/-! ## Binding values to statements -/

/-- The integers SQLite can store. -/
def sqliteInteger (i : Int) : Prop := -(2 ^ 63) ≤ i ∧ i < 2 ^ 63

instance (i : Int) : Decidable (sqliteInteger i) := inferInstanceAs (Decidable (_ ∧ _))

/-- A text bound to a parameter. -/
def Platform.bindText (platform : Platform) (text : String) : Except Error String :=
  match platform.bindError text with
  | none => .ok text
  | some e => .error e

/-- A value bound to a parameter and stored in, or compared with, a TEXT column; `none` is
NULL, which SQLite takes a NaN for. -/
def Platform.textOf (platform : Platform) : Json → Except Error (Option String)
  | .null => .ok none
  | .bool b => .ok (some (if b then "1" else "0"))
  | .int i => if sqliteInteger i then .ok (some (toString i)) else .error .overflowError
  | .float q => .ok (some (platform.realText q))
  | .nonFinite .inf => .ok (some "Inf")
  | .nonFinite .negInf => .ok (some "-Inf")
  | .nonFinite .nan => .ok none
  | .str s => (platform.bindText s).map some
  | .arr _ => .error .programmingError
  | .obj _ => .error .programmingError

/-- The same for a column that is NOT NULL. -/
def Platform.requiredTextOf (platform : Platform) (value : Json) : Except Error String :=
  match platform.textOf value with
  | .error e => .error e
  | .ok none => .error .integrityError
  | .ok (some text) => .ok text

/-- A value bound to `LIMIT ?`; a negative limit is no limit. -/
def Platform.limitOf (platform : Platform) : Json → Except Error Int
  | .null => .error .integrityError
  | .bool b => .ok (if b then 1 else 0)
  | .int i => if sqliteInteger i then .ok i else .error .overflowError
  | .float q => if q.den = 1 ∧ sqliteInteger q.num then .ok q.num else .error .integrityError
  | .nonFinite _ => .error .integrityError
  | .str s => do
    let text ← platform.bindText s
    match platform.limitOfText text with
    | some i => .ok i
    | none => .error .integrityError
  | .arr _ => .error .programmingError
  | .obj _ => .error .programmingError

/-- The value of an optional argument of `update_task_status`: `None` is not given. -/
def Platform.optionalTextOf (platform : Platform) (value : Json) :
    Except Error (Option (Option String)) :=
  if value.isNone then .ok none else (platform.textOf value).map some

@[simp] theorem Platform.optionalTextOf_null (platform : Platform) :
    platform.optionalTextOf .null = .ok none := rfl

/-- SQLite can bind the text. -/
def Platform.Binds (platform : Platform) (text : String) : Prop := platform.bindError text = none

instance (platform : Platform) (text : String) : Decidable (platform.Binds text) :=
  inferInstanceAs (Decidable (_ = _))

/-- A text is bound as it is, or not at all. -/
theorem Platform.bindText_eq_ok {bound : String} :
    platform.bindText text = .ok bound ↔ platform.Binds text ∧ bound = text := by
  unfold bindText Binds
  split
  · rename_i binds
    simp [binds, eq_comm]
  · rename_i e fails
    simp [fails]

theorem Platform.Binds.textOf (binds : platform.Binds s) :
    platform.textOf (.str s) = .ok (some s) := by
  have bound : platform.bindText s = .ok s := bindText_eq_ok.mpr ⟨binds, rfl⟩
  simp only [Platform.textOf, bound]
  rfl

theorem Platform.Binds.requiredTextOf (binds : platform.Binds s) :
    platform.requiredTextOf (.str s) = .ok s := by
  simp only [Platform.requiredTextOf, binds.textOf]

/-- A text is bound as it is, if it is bound at all. -/
theorem Platform.eq_of_textOf_str {bound : Option String}
    (binds : platform.textOf (.str s) = .ok bound) : platform.Binds s ∧ bound = some s := by
  simp only [textOf] at binds
  cases text : platform.bindText s with
  | error e =>
    rw [text] at binds
    cases binds
  | ok s' =>
    rw [text] at binds
    obtain ⟨able, same⟩ := bindText_eq_ok.mp text
    cases binds
    exact ⟨able, congrArg some same⟩

theorem Platform.eq_of_requiredTextOf_str (binds : platform.requiredTextOf (.str s) = .ok text) :
    platform.Binds s ∧ text = s := by
  unfold requiredTextOf at binds
  split at binds
  · cases binds
  · cases binds
  · rename_i stored bound
    cases binds
    obtain ⟨able, same⟩ := eq_of_textOf_str bound
    exact ⟨able, Option.some.inj same⟩

/-! ### What was stored can be stored again

The texts that SQLite makes of numbers are short and in ASCII, and a text that was bound once
can be bound once more; so the name of a queue that was read from a table can be bound. -/

/-- An integer that SQLite can store has at most nineteen digits and a sign. -/
theorem length_toString_le {i : Int} (small : sqliteInteger i) : (toString i).length ≤ 21 := by
  obtain ⟨low, high⟩ := small
  cases i with
  | ofNat n =>
    have digits := Nat.repr_length n 20 (by norm_num) (by simp at high; omega)
    change (Nat.repr n).length ≤ 21
    omega
  | negSucc n =>
    have digits := Nat.repr_length (n + 1) 20 (by norm_num) (by omega)
    have sign : "-".length = 1 := rfl
    change ("-" ++ Nat.repr (n + 1)).length ≤ 21
    rw [String.length_append]
    omega

theorem ascii_repr (n : Nat) : ∀ c ∈ n.repr.toList, c.toNat < 128 := by
  intro c inside
  rw [Nat.toList_repr] at inside
  have isDigit := Nat.isDigit_of_mem_toDigits (by norm_num) (by norm_num) inside
  simp only [Char.isDigit, Bool.and_eq_true, decide_eq_true_eq] at isDigit
  have small : c.toNat ≤ 57 := isDigit.2
  omega

theorem ascii_toString (i : Int) : ∀ c ∈ (toString i).toList, c.toNat < 128 := by
  intro c inside
  cases i with
  | ofNat n => exact ascii_repr n c inside
  | negSucc n =>
    change c ∈ ("-" ++ Nat.repr (n + 1)).toList at inside
    rw [String.toList_append] at inside
    rcases List.mem_append.mp inside with sign | digits
    · obtain rfl := List.mem_singleton.mp sign
      decide
    · exact ascii_repr (n + 1) c digits

/-- **What was bound to a TEXT column can be bound again**, as the text it is now. -/
theorem Platform.binds_of_textOf {value : Json} (bound : platform.textOf value = .ok (some text)) :
    platform.Binds text := by
  cases value with
  | null => cases bound
  | bool b =>
    cases bound
    cases b <;> exact platform.bindError_ascii _ (by decide) (by simp)
  | int i =>
    simp only [Platform.textOf] at bound
    split at bound
    · rename_i small
      cases bound
      have short := length_toString_le small
      exact platform.bindError_ascii _ (by omega) (ascii_toString i)
    · cases bound
  | float q =>
    cases bound
    exact platform.bindError_ascii _ (platform.realText_short q) (platform.realText_ascii q)
  | nonFinite x =>
    cases x with
    | nan => cases bound
    | inf =>
      cases bound
      exact platform.bindError_ascii _ (by decide) (by simp)
    | negInf =>
      cases bound
      exact platform.bindError_ascii _ (by decide) (by simp)
  | str s =>
    obtain ⟨binds, same⟩ := eq_of_textOf_str bound
    cases same
    exact binds
  | arr items => cases bound
  | obj fields => cases bound

/-- What SQLite stores as a text it can bind again. -/
theorem Platform.binds_of_requiredTextOf {value : Json}
    (bound : platform.requiredTextOf value = .ok text) : platform.Binds text := by
  unfold requiredTextOf at bound
  split at bound
  · cases bound
  · cases bound
  · rename_i stored isText
    cases bound
    exact binds_of_textOf isText

/-- The store can write the payload down: `json.dumps` gets to its end, and SQLite can bind
its text. -/
def Platform.Writes (platform : Platform) (payload : Json) : Prop :=
  payload.depth ≤ platform.storeDepth ∧ platform.Binds (platform.jsonText payload)

instance (platform : Platform) (payload : Json) : Decidable (platform.Writes payload) :=
  inferInstanceAs (Decidable (_ ∧ _))

/-- What `_handle_nack` puts in the place of a payload that it does not find can be stored. -/
theorem Platform.writes_empty (platform : Platform) : platform.Writes (.obj []) :=
  ⟨platform.storeDepth_pos, platform.bindError_empty⟩

/-- The text is what the store wrote for the payload. -/
structure Platform.Encodes (platform : Platform) (payload : Json) (text : String) : Prop where
  writes : platform.Writes payload
  eq : text = platform.jsonText payload

/-- A payload that could be written is read back. -/
theorem Platform.Encodes.loads {payload : Json} (encodes : platform.Encodes payload text) :
    platform.loads text = some payload := by
  rw [encodes.eq]
  exact platform.loads_jsonText payload encodes.writes.1

/-- The texts of a row that the broker wrote. -/
def Platform.Stores (platform : Platform) (queueName payload : String) : Prop :=
  platform.Binds queueName ∧ ∃ value, platform.Encodes value payload

namespace Database

/-! ## Statements -/

/-- `save_task`: INSERT OR REPLACE. -/
def saveTask (db : Database) (row : TaskRow) : Database :=
  { db with tasks := db.tasks.upsert row }

/-- `update_task_status`: only the given columns change. -/
def updateTaskStatus (db : Database) (taskId : String) (status : TaskStatus)
    (attempts : Option Nat) (assignedWorker : Option (Option String)) (now : Rat) : Database :=
  { db with
    tasks := db.tasks.modify taskId (fun row => row.mark status attempts assignedWorker now)
      (fun row => row.mark_taskId status attempts assignedWorker now) }

/-- `load_pending_tasks`: the recoverable rows, oldest first. -/
def loadPendingTasks (db : Database) : List TaskRow :=
  (db.tasks.rows.filter TaskRow.live).insertionSort fun a b => a.createdAt ≤ b.createdAt

/-- `add_to_dlq`: both statements of the transaction. -/
def addToDlq (db : Database) (row : DlqRow) : Database :=
  { tasks := db.tasks.erase row.taskId
    deadLetterQueue := db.deadLetterQueue.upsert row }

/-- `get_dlq_tasks`: newest first.  Without a name there is no WHERE clause; with one it
compares the column with what was bound, and with NULL nothing is equal. -/
def getDlqTasks (db : Database) (queueName : Option (Option String)) (limit : Int) :
    List DlqRow :=
  let rows := match queueName with
    | none => db.deadLetterQueue.rows
    | some name => db.deadLetterQueue.rows.filter fun row => some row.queueName = name
  let sorted := rows.insertionSort fun a b => b.deadLetteredAt ≤ a.deadLetteredAt
  if limit < 0 then sorted else sorted.take limit.toNat

/-- The DELETE of `replay_dlq_task`. -/
def deleteDlq (db : Database) (taskId : String) : Database :=
  { db with deadLetterQueue := db.deadLetterQueue.erase taskId }

/-- `purge_dlq` for one queue, or for all of them. -/
def purgeDlq (db : Database) (queueName : Option (Option String)) : Database :=
  match queueName with
  | none => { db with deadLetterQueue := Table.empty }
  | some name =>
    { db with deadLetterQueue := db.deadLetterQueue.filter fun row => some row.queueName ≠ name }

/-- The row count that `purge_dlq` returns. -/
def purgeCount (db : Database) (queueName : Option (Option String)) : Nat :=
  match queueName with
  | none => db.deadLetterQueue.rows.length
  | some name => (db.deadLetterQueue.rows.filter fun row => some row.queueName = name).length

/-- `clear_all_data`. -/
def clearAllData (_ : Database) : Database := {}

/-- `get_stats`, without the file name. -/
structure Stats where
  pending : Nat
  inFlight : Nat
  done : Nat
  dlqCount : Nat
  deriving DecidableEq

/-- `get_stats`: tasks by status, and the size of the dead letter table. -/
def getStats (db : Database) : Stats where
  pending := (db.tasks.rows.filter fun row => row.status = .pending).length
  inFlight := (db.tasks.rows.filter fun row => row.status = .inFlight).length
  done := (db.tasks.rows.filter fun row => row.status = .done).length
  dlqCount := db.deadLetterQueue.rows.length

/-! ## The rows after a statement -/

section Rows

variable {db : Database} {taskId : String} {status : TaskStatus} {attempts : Option Nat}
  {worker : Option (Option String)} {now : Rat}

theorem mem_updateTaskStatus {row : TaskRow} :
    row ∈ (db.updateTaskStatus taskId status attempts worker now).tasks ↔
      (row ∈ db.tasks ∧ row.taskId ≠ taskId) ∨
        ∃ old ∈ db.tasks, old.taskId = taskId ∧ row = old.mark status attempts worker now :=
  Table.mem_modify fun row => row.mark_taskId status attempts worker now

end Rows

end Database

end DistroSync
