import Stellar8004.Indexer.Documents

/-!
# From a snapshot to SQL

`packages/d1/scripts/snapshot-to-sql.ts`: the tables and columns it copies, how
a value is written into a statement, and the statements of the script.  A text
of the snapshot comes from a UTF-8 database, so it has no lone surrogates.
-/

namespace Stellar8004.D1

open Indexer (Json)

/-! ## Tables -/

/-- The tables of the schema, and the two the script makes for itself. -/
inductive Table where
  | agents
  | agentMetadata
  | feedback
  | feedbackResponses
  | validations
  | indexerDeadLetter
  | indexerState
  | indexerLocks
  | copyGuard
  | loadPieces
  deriving DecidableEq

def Table.name : Table → String
  | .agents => "agents"
  | .agentMetadata => "agent_metadata"
  | .feedback => "feedback"
  | .feedbackResponses => "feedback_responses"
  | .validations => "validations"
  | .indexerDeadLetter => "indexer_dead_letter"
  | .indexerState => "indexer_state"
  | .indexerLocks => "indexer_locks"
  | .copyGuard => "copy_guard"
  | .loadPieces => "load_pieces"

/-! ## Rows -/

/-- A row of a file: an object, whose fields have distinct names. -/
structure Row where
  fields : List (String × Json)

def Row.get (row : Row) (name : String) : Option Json :=
  (Json.object row.fields).get name

/-- `row[name]`, where a missing field is written as null is. -/
def Row.field (row : Row) (name : String) : Json :=
  (row.get name).getD .null

mutual

/-- `String(value)`, as a template writes it. -/
def display : Json → String
  | .null => "null"
  | .bool value => if value then "true" else "false"
  | .number text => text
  | .text value => value
  | .array items => String.intercalate "," (displayAll items)
  | .object _ => "[object Object]"

def displayAll : List Json → List String
  | [] => []
  | .null :: items => "" :: displayAll items
  | item :: items => display item :: displayAll items

end

def displayField : Option Json → String
  | none => "undefined"
  | some value => display value

/-- `type Column`: the name and how its value is read. -/
structure Column where
  name : String
  read : Row → Except String Json

/-- A column read under its own name. -/
def Column.plain (name : String) : Column :=
  { name, read := fun row => .ok (row.field name) }

/-- The exact text where the snapshot has it, or else the document. -/
def jsonText (text value : String) (row : Row) : Json :=
  match Json.nullish (row.get text) with
  | some copy => copy
  | none =>
      match Json.nullish (row.get value) with
      | some document => .text document.stringify
      | none => .null

def supportedTrust (row : Row) : Json :=
  .text ((Json.nullish (row.get "supported_trust")).getD
    (.array [])).stringify

def services (row : Row) : Json :=
  match Json.nullish (row.get "services_text") with
  | some copy => copy
  | none =>
      .text ((Json.nullish (row.get "services")).getD (.array [])).stringify

def feedbackValue (row : Row) : Except String Json :=
  match row.get "value_text" with
  | some (.text value) => .ok (.text value)
  | _ =>
      .error ("feedback " ++ displayField (row.get "id") ++
        ": value_text missing")

/-- An entry of `TABLES`. -/
structure Source where
  table : Table
  key : List String
  columns : List Column

def agentsSource : Source where
  table := .agents
  key := ["id"]
  columns :=
    [.plain "id", .plain "owner", .plain "agent_uri",
      ⟨"agent_uri_data",
        fun row => .ok (jsonText "agent_uri_data_text" "agent_uri_data" row)⟩,
      .plain "wallet", .plain "created_at", .plain "updated_at",
      .plain "created_ledger", .plain "tx_hash", .plain "uri_resolve_attempts",
      .plain "resolve_uri_pending", .plain "last_resolve_attempt_at",
      ⟨"supported_trust", fun row => .ok (supportedTrust row)⟩,
      ⟨"services", fun row => .ok (services row)⟩,
      .plain "x402_enabled", .plain "mpp_enabled",
      .plain "uri_updated_ledger", .plain "transferred_ledger"]

def agentMetadataSource : Source where
  table := .agentMetadata
  key := ["agent_id", "key"]
  columns := [.plain "agent_id", .plain "key", .plain "value"]

def feedbackSource : Source where
  table := .feedback
  key := ["id"]
  columns :=
    [.plain "id", .plain "agent_id", .plain "client_address",
      .plain "feedback_index", ⟨"value", feedbackValue⟩,
      .plain "value_decimals", .plain "tag1", .plain "tag2",
      .plain "endpoint", .plain "feedback_uri", .plain "feedback_hash",
      .plain "is_revoked", .plain "created_at", .plain "created_ledger",
      .plain "tx_hash", .plain "revoked_ledger"]

def feedbackResponsesSource : Source where
  table := .feedbackResponses
  key := ["id"]
  columns :=
    [.plain "id", .plain "agent_id", .plain "client_address",
      .plain "feedback_index", .plain "response_index", .plain "responder",
      .plain "response_uri", .plain "response_hash", .plain "created_at",
      .plain "tx_hash", .plain "event_id"]

def validationsSource : Source where
  table := .validations
  key := ["request_hash"]
  columns :=
    [.plain "request_hash", .plain "agent_id", .plain "validator_address",
      .plain "request_uri", .plain "response", .plain "response_uri",
      .plain "response_hash", .plain "tag", .plain "has_response",
      .plain "created_at", .plain "responded_at", .plain "request_tx_hash",
      .plain "response_tx_hash", .plain "response_ledger"]

def indexerDeadLetterSource : Source where
  table := .indexerDeadLetter
  key := ["id"]
  columns :=
    [.plain "id", .plain "contract", .plain "reason", .plain "event_id",
      .plain "ledger", .plain "detail", .plain "created_at"]

def indexerStateSource : Source where
  table := .indexerState
  key := ["id"]
  columns :=
    [.plain "id", .plain "last_ledger", .plain "updated_at",
      .plain "expected_next_ledger", .plain "defer_attempts",
      .plain "last_advanced_at"]

/-- `TABLES`, children after their parents. -/
def TABLES : List Source :=
  [agentsSource, agentMetadataSource, feedbackSource, feedbackResponsesSource,
    validationsSource, indexerDeadLetterSource, indexerStateSource]

/-! ## Values -/

def PIECE_BYTES : Nat := 40000

def PLACEHOLDERS : List (String × String) :=
  [("agents.services", "'[]'"), ("agents.supported_trust", "'[]'")]

/-- The loop of `pieces`, from the piece begun and its bytes. -/
def piecesFrom : List Char → String → Nat → List String
  | [], current, _ => if current = "" then [] else [current]
  | char :: rest, current, bytes =>
      if PIECE_BYTES < bytes + char.utf8Size then
        current :: piecesFrom rest (String.singleton char) char.utf8Size
      else piecesFrom rest (current.push char) (bytes + char.utf8Size)

def pieces (text : String) : List String :=
  piecesFrom text.toList "" 0

/-- The character `'`. -/
def quoteMark : Char := Char.ofNat 39

/-- A text with its quotes doubled. -/
def doubled (text : String) : String :=
  String.ofList (text.toList.flatMap fun char =>
    if char = quoteMark then [quoteMark, quoteMark] else [char])

def textLiteral (text : String) : String :=
  "'" ++ doubled text ++ "'"

/-- Decimal digits, one at least. -/
def digitsNumber (digits : List Char) : Option Nat :=
  if digits ≠ [] ∧ digits.all Char.isDigit = true then
    some (Nat.ofDigitChars 10 digits 0)
  else none

/-- An integer in decimal, with a sign where it is negative. -/
def integerOf (digits : List Char) : Option Int :=
  match digits with
  | '-' :: rest => (digitsNumber rest).map fun number => -Int.ofNat number
  | _ => (digitsNumber digits).map Int.ofNat

/-- `Number.isSafeInteger`. -/
def isSafeInteger (number : String) : Bool :=
  match integerOf number.toList with
  | some value => value.natAbs < 2 ^ 53
  | none => false

def literal (value : Json) (location : String) : Except String String :=
  match value with
  | .null => .ok "NULL"
  | .bool value => .ok (if value then "1" else "0")
  | .number number =>
      if isSafeInteger number then .ok number
      else .error (location ++ ": " ++ number ++ " is not a safe integer")
  | .text text => .ok (textLiteral text)
  | _ => .error (location ++ ": unexpected object")

/-! ## Statements -/

/-- The statements of the script.  A value is the text it has there. -/
inductive Statement where
  | createCopyGuard
  | insertCopyGuard
  | createLoadPieces
  | dropTable (table : Table)
  | dropTableIfExists (table : Table)
  | deleteFrom (table : Table)
  | insert (table : Table) (names values : List String)
  | insertPiece (key : String) (index : Nat) (piece : String)
  | join (table : Table) (name key : String)
      (matching : List (String × String))

def equation (matched : String × String) : String :=
  matched.1 ++ " = " ++ matched.2

/-- The line of a statement. -/
def Statement.text : Statement → String
  | createCopyGuard =>
      "CREATE TABLE copy_guard (fence_present INTEGER NOT NULL CHECK (fence_present = 1));"
  | insertCopyGuard =>
      "INSERT INTO copy_guard SELECT EXISTS (SELECT 1 FROM indexer_locks WHERE lock_name = 'indexer' AND owner = 'copy-fence');"
  | createLoadPieces =>
      "CREATE TABLE load_pieces (k TEXT NOT NULL, i INTEGER NOT NULL, v TEXT NOT NULL, PRIMARY KEY (k, i));"
  | dropTable table => "DROP TABLE " ++ table.name ++ ";"
  | dropTableIfExists table => "DROP TABLE IF EXISTS " ++ table.name ++ ";"
  | deleteFrom table => "DELETE FROM " ++ table.name ++ ";"
  | insert table names values =>
      "INSERT INTO " ++ table.name ++ " (" ++ String.intercalate ", " names ++
        ") VALUES (" ++ String.intercalate ", " values ++ ");"
  | insertPiece key index piece =>
      "INSERT INTO load_pieces VALUES (" ++ key ++ ", " ++ toString index ++
        ", " ++ piece ++ ");"
  | join table name key matching =>
      "UPDATE " ++ table.name ++ " SET " ++ name ++
        " = (SELECT group_concat(v, '' ORDER BY i) FROM load_pieces WHERE k = " ++
        key ++ ") WHERE " ++
        String.intercalate " AND " (matching.map equation) ++ ";"

theorem Statement.text_insert (table : Table) (names values : List String) :
    (insert table names values).text =
      "INSERT INTO " ++ table.name ++ " (" ++ String.intercalate ", " names ++
        ") VALUES (" ++ String.intercalate ", " values ++ ");" := rfl

theorem Statement.text_insertPiece (key : String) (index : Nat)
    (piece : String) :
    (insertPiece key index piece).text =
      "INSERT INTO load_pieces VALUES (" ++ key ++ ", " ++ toString index ++
        ", " ++ piece ++ ");" := rfl

theorem Statement.text_join (table : Table) (name key : String)
    (matching : List (String × String)) :
    (join table name key matching).text =
      "UPDATE " ++ table.name ++ " SET " ++ name ++
        " = (SELECT group_concat(v, '' ORDER BY i) FROM load_pieces WHERE k = " ++
        key ++ ") WHERE " ++
        String.intercalate " AND " (matching.map equation) ++ ";" := rfl

/-- Where a value stands, for its pieces: `${table}.${name}.${index}`. -/
def pieceKey (table : Table) (name : String) (index : Nat) : String :=
  table.name ++ "." ++ name ++ "." ++ toString index

/-- The name of a column in errors and in `PLACEHOLDERS`. -/
def columnPath (table : Table) (name : String) : String :=
  table.name ++ "." ++ name

/-- `PLACEHOLDERS[path] ?? 'NULL'`. -/
def placeholder (table : Table) (name : String) : String :=
  ((PLACEHOLDERS.find? fun entry => entry.1 == columnPath table name).map
    Prod.snd).getD "NULL"

/-- What finishes a column whose text is loaded in pieces. -/
def finishColumn (table : Table) (name : String) (index : Nat) (text : String)
    (matching : List (String × String)) : List Statement :=
  let key := textLiteral (pieceKey table name index)
  ((pieces text).zipIdx.map fun (piece, i) =>
      .insertPiece key i (textLiteral piece)) ++
    [.join table name key matching]

/-- `key.map(…)`: the row's own key, for the `WHERE` of an `UPDATE`. -/
def keyOf (source : Source) (row : Row) :
    Except String (List (String × String)) :=
  source.key.mapM fun name => do
    let value ← literal (row.field name) (columnPath source.table name)
    return (name, value)

/-- A text that is not written into the row itself. -/
def isLong (text : String) : Bool := PIECE_BYTES < text.utf8ByteSize

/-- The value a column has in the `INSERT` of a row, and what finishes it. -/
def columnStatements (source : Source) (index : Nat) (row : Row)
    (column : Column) : Except String (String × List Statement) := do
  let value ← column.read row
  match value with
  | .text text =>
      if isLong text then
        let matching ← keyOf source row
        return (placeholder source.table column.name,
          finishColumn source.table column.name index text matching)
      else return (textLiteral text, [])
  | value =>
      let written ← literal value (columnPath source.table column.name)
      return (written, [])

def rowStatements (source : Source) (row : Row) (index : Nat) :
    Except String (List Statement) := do
  let written ← source.columns.mapM (columnStatements source index row)
  return .insert source.table (source.columns.map Column.name)
    (written.map Prod.fst) :: written.flatMap Prod.snd

/-! ## The script -/

/-- A snapshot: the manifest, and the rows of each file there is.  A
JavaScript array has fewer than `2 ^ 32` items, and a string fewer than
`2 ^ 53` units. -/
structure Snapshot where
  manifest : Json
  file : Table → Option (List Row)
  rows_lt : ∀ table rows, file table = some rows → rows.length < 2 ^ 32
  text_lt : ∀ source ∈ TABLES, ∀ rows, file source.table = some rows →
    ∀ row ∈ rows, ∀ column ∈ source.columns, ∀ text,
      column.read row = .ok (.text text) → text.length < 2 ^ 53

/-- `manifest.taken_at`, as the comment has it. -/
def Snapshot.takenAt (snapshot : Snapshot) : String :=
  displayField (snapshot.manifest.get "taken_at")

def tableStatements (snapshot : Snapshot) (source : Source) :
    Except String (List Statement) :=
  match snapshot.file source.table with
  | none => .error (source.table.name ++ ".json is missing from the snapshot")
  | some rows => do
      let each ← rows.zipIdx.mapM fun (row, index) =>
        rowStatements source row index
      return each.flatten

/-- The output: a comment, and then statements. -/
structure Output where
  comment : String
  statements : List Statement

/-- The lines of the output, each with its end. -/
def Output.text (output : Output) : String :=
  String.intercalate "\n"
    (output.comment :: output.statements.map Statement.text) ++ "\n"

/-- What comes before the rows. -/
def header : List Statement :=
  [.createCopyGuard, .insertCopyGuard, .dropTable .copyGuard,
    .dropTableIfExists .loadPieces, .createLoadPieces] ++
    TABLES.reverse.map fun source => .deleteFrom source.table

def snapshotToSql (snapshot : Snapshot) : Except String Output :=
  match snapshot.manifest.get "under_indexer_lock" with
  | some (.bool true) => do
      let loads ← TABLES.mapM (tableStatements snapshot)
      return {
        comment := "-- Loaded from the Supabase snapshot taken at " ++
          snapshot.takenAt ++ "."
        statements := header ++ loads.flatten ++ [.dropTable .loadPieces] }
  | _ => .error "snapshot was not taken under the indexer lock"

end Stellar8004.D1
