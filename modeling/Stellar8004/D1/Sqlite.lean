import Stellar8004.D1.Snapshot
import Stellar8004.Indexer.Tables
import Stellar8004.Library.Relations

/-!
# The database the script loads

The tables of `0001_init.sql` with their constraints and triggers, and what
SQLite does for each statement of the script.
-/

namespace Stellar8004.D1

open Indexer (sqlLength isDecimalText)
open Relations (Reference Schema Violation)

/-! ## Values -/

/-- A stored value.  A REAL or a BLOB can be in a table already, but no
statement of the script writes one. -/
inductive Value where
  | null
  | integer (value : Int)
  | text (value : String)
  | other (bytes : List UInt8)
  deriving DecidableEq

/-- A row of a table. -/
abbrev Record := Relations.Record String Value

/-- The JSON functions of SQLite, and how it reads a text as a number. -/
structure Sqlite where
  jsonValid : String → Bool
  jsonType : String → String
  field : String → String → Value
  number : String → Option Value
  emptyArray_valid : jsonValid "[]" = true
  emptyArray_type : jsonType "[]" = "array"

inductive Affinity where
  | integer
  | text
  deriving DecidableEq

/-- A CHECK of the schema.  The one of an `INTEGER PRIMARY KEY` is that it is
an integer; a row without one would be given it. -/
inductive Check where
  | rowid
  | atLeast (least : Int)
  | between (least most : Int)
  | equals (value : Int)
  | maxLength (most : Nat)
  | json
  | jsonArray
  | decimal
  deriving DecidableEq

/-- A CHECK that is not false, which it never is of a NULL. -/
def Check.passes (sqlite : Sqlite) : Check → Value → Bool
  | rowid, .integer _ => true
  | rowid, _ => false
  | _, .null => true
  | atLeast least, .integer value => least ≤ value
  | atLeast _, _ => true
  | between least most, .integer value => least ≤ value ∧ value ≤ most
  | between _ _, _ => false
  | equals expected, .integer value => value = expected
  | equals _, _ => false
  | maxLength most, .text value => sqlLength value ≤ most
  | maxLength most, .integer value => (toString value).length ≤ most
  | maxLength most, .other bytes => bytes.length ≤ most
  | json, .text value => sqlite.jsonValid value
  | json, .integer _ => true
  | json, .other _ => false
  | jsonArray, .text value =>
      sqlite.jsonValid value && sqlite.jsonType value == "array"
  | jsonArray, _ => false
  | decimal, .text value => isDecimalText value
  | decimal, .integer value => isDecimalText (toString value)
  | decimal, .other _ => false

/-! ## The schema -/

/-- A column of a `CREATE TABLE`. -/
structure ColumnDefinition where
  name : String
  affinity : Affinity
  notNull : Bool
  checks : List Check
  deriving DecidableEq

def definitions : Table → List ColumnDefinition
  | .agents =>
      [⟨"id", .integer, true, [.rowid, .atLeast 0]⟩,
        ⟨"owner", .text, true, [.maxLength 256]⟩,
        ⟨"agent_uri", .text, false, []⟩,
        ⟨"agent_uri_data", .text, false, [.json]⟩,
        ⟨"wallet", .text, false, [.maxLength 256]⟩,
        ⟨"created_at", .text, true, []⟩,
        ⟨"updated_at", .text, true, []⟩,
        ⟨"created_ledger", .integer, false, []⟩,
        ⟨"tx_hash", .text, false, []⟩,
        ⟨"uri_resolve_attempts", .integer, true, []⟩,
        ⟨"resolve_uri_pending", .integer, true, [.between 0 1]⟩,
        ⟨"last_resolve_attempt_at", .text, false, []⟩,
        ⟨"supported_trust", .text, true, [.jsonArray]⟩,
        ⟨"services", .text, true, [.jsonArray]⟩,
        ⟨"x402_enabled", .integer, true, [.between 0 1]⟩,
        ⟨"mpp_enabled", .integer, true, [.between 0 1]⟩,
        ⟨"uri_updated_ledger", .integer, false, []⟩,
        ⟨"transferred_ledger", .integer, false, []⟩]
  | .agentMetadata =>
      [⟨"agent_id", .integer, true, []⟩,
        ⟨"key", .text, true, []⟩,
        ⟨"value", .text, false, []⟩]
  | .feedback =>
      [⟨"id", .integer, true, [.rowid]⟩,
        ⟨"agent_id", .integer, true, []⟩,
        ⟨"client_address", .text, true, [.maxLength 256]⟩,
        ⟨"feedback_index", .integer, true, [.atLeast 1]⟩,
        ⟨"value", .text, true, [.decimal]⟩,
        ⟨"value_decimals", .integer, true, [.between 0 18]⟩,
        ⟨"tag1", .text, false, []⟩,
        ⟨"tag2", .text, false, []⟩,
        ⟨"endpoint", .text, false, []⟩,
        ⟨"feedback_uri", .text, false, []⟩,
        ⟨"feedback_hash", .text, false, []⟩,
        ⟨"is_revoked", .integer, true, [.between 0 1]⟩,
        ⟨"created_at", .text, true, []⟩,
        ⟨"created_ledger", .integer, false, []⟩,
        ⟨"tx_hash", .text, false, []⟩,
        ⟨"revoked_ledger", .integer, false, []⟩]
  | .feedbackResponses =>
      [⟨"id", .integer, true, [.rowid]⟩,
        ⟨"agent_id", .integer, true, []⟩,
        ⟨"client_address", .text, true, [.maxLength 256]⟩,
        ⟨"feedback_index", .integer, true, []⟩,
        ⟨"response_index", .integer, true, []⟩,
        ⟨"responder", .text, true, [.maxLength 256]⟩,
        ⟨"response_uri", .text, false, []⟩,
        ⟨"response_hash", .text, false, []⟩,
        ⟨"created_at", .text, true, []⟩,
        ⟨"tx_hash", .text, false, []⟩,
        ⟨"event_id", .text, false, []⟩]
  | .validations =>
      [⟨"request_hash", .text, true, []⟩,
        ⟨"agent_id", .integer, true, []⟩,
        ⟨"validator_address", .text, true, [.maxLength 256]⟩,
        ⟨"request_uri", .text, false, []⟩,
        ⟨"response", .integer, false, [.between 0 100]⟩,
        ⟨"response_uri", .text, false, []⟩,
        ⟨"response_hash", .text, false, []⟩,
        ⟨"tag", .text, false, []⟩,
        ⟨"has_response", .integer, true, [.between 0 1]⟩,
        ⟨"created_at", .text, true, []⟩,
        ⟨"responded_at", .text, false, []⟩,
        ⟨"request_tx_hash", .text, false, []⟩,
        ⟨"response_tx_hash", .text, false, []⟩,
        ⟨"response_ledger", .integer, false, []⟩]
  | .indexerDeadLetter =>
      [⟨"id", .integer, true, [.rowid]⟩,
        ⟨"contract", .text, true, []⟩,
        ⟨"reason", .text, true, []⟩,
        ⟨"event_id", .text, false, []⟩,
        ⟨"ledger", .integer, false, []⟩,
        ⟨"detail", .text, false, []⟩,
        ⟨"created_at", .text, true, []⟩]
  | .indexerState =>
      [⟨"id", .text, true, []⟩,
        ⟨"last_ledger", .integer, true, []⟩,
        ⟨"updated_at", .text, true, []⟩,
        ⟨"expected_next_ledger", .integer, false, []⟩,
        ⟨"defer_attempts", .integer, true, []⟩,
        ⟨"last_advanced_at", .text, false, []⟩]
  | .indexerLocks =>
      [⟨"lock_name", .text, true, []⟩,
        ⟨"acquired_at", .text, true, []⟩,
        ⟨"owner", .text, false, []⟩]
  | .copyGuard => [⟨"fence_present", .integer, true, [.equals 1]⟩]
  | .loadPieces =>
      [⟨"k", .text, true, []⟩,
        ⟨"i", .integer, true, []⟩,
        ⟨"v", .text, true, []⟩]

/-- PRIMARY KEY, and then UNIQUE. -/
def uniqueKeys : Table → List (List String)
  | .agents => [["id"]]
  | .agentMetadata => [["agent_id", "key"]]
  | .feedback => [["id"], ["agent_id", "client_address", "feedback_index"]]
  | .feedbackResponses =>
      [["id"], ["event_id"],
        ["agent_id", "client_address", "feedback_index", "response_index"]]
  | .validations => [["request_hash"]]
  | .indexerDeadLetter => [["id"]]
  | .indexerState => [["id"]]
  | .indexerLocks => [["lock_name"]]
  | .copyGuard => []
  | .loadPieces => [["k", "i"]]

/-- `REFERENCES agents (id) ON DELETE CASCADE`. -/
def agentReference : Reference Table String where
  columns := ["agent_id"]
  parent := .agents
  parentColumns := ["id"]

/-- `FOREIGN KEY`, each with `ON DELETE CASCADE`. -/
def foreignKeys : Table → List (Reference Table String)
  | .agentMetadata => [agentReference]
  | .feedback => [agentReference]
  | .feedbackResponses =>
      [{ columns := ["agent_id", "client_address", "feedback_index"]
         parent := .feedback
         parentColumns := ["agent_id", "client_address", "feedback_index"] }]
  | .validations => [agentReference]
  | _ => []

/-- The column is `NOT NULL`. -/
def requires (table : Table) (name : String) : Bool :=
  (definitions table).any fun definition =>
    definition.name == name && definition.notNull

/-- The CHECKs on a column. -/
def checksOf (table : Table) (name : String) : List Check :=
  (definitions table).flatMap fun definition =>
    if definition.name = name then definition.checks else []

/-- All tables, parents first. -/
def allTables : List Table :=
  [.agents, .agentMetadata, .feedback, .feedbackResponses, .validations,
    .indexerDeadLetter, .indexerState, .indexerLocks, .copyGuard, .loadPieces]

/-- `0001_init.sql`, and the two tables of the script. -/
def schema (sqlite : Sqlite) : Schema Table String Value where
  null := .null
  tables := allTables
  columns table := (definitions table).map ColumnDefinition.name
  required := requires
  check table name value :=
    (checksOf table name).all fun check => check.passes sqlite value
  keys := uniqueKeys
  references := foreignKeys

/-! ## Literals -/

/-- A text after its opening quote, up to the end. -/
def readText : List Char → Option (List Char)
  | [] => none
  | [last] => if last = quoteMark then some [] else none
  | char :: next :: rest =>
      if char = quoteMark then
        if next = quoteMark then (readText rest).map (quoteMark :: ·)
        else none
      else if char = Char.ofNat 0 then none
      else (readText (next :: rest)).map (char :: ·)

/-- A literal as SQLite reads it.  A NUL would end the statement. -/
def readLiteral (written : String) : Option Value :=
  match written.toList with
  | first :: rest =>
      if first = quoteMark then
        (readText rest).map fun text => .text (String.ofList text)
      else if written = "NULL" then some .null
      else (integerOf (first :: rest)).map .integer
  | [] => none

/-- A value as a column of some affinity stores it. -/
def Sqlite.store (sqlite : Sqlite) : Affinity → Value → Value
  | .text, .integer value => .text (toString value)
  | .integer, .text value => (sqlite.number value).getD (.text value)
  | _, value => value

def affinityOf (table : Table) (name : String) : Affinity :=
  (((definitions table).find? fun definition => definition.name == name).map
    ColumnDefinition.affinity).getD .text

/-- The row an `INSERT` makes of its names and values. -/
def insertedRow (sqlite : Sqlite) (table : Table) (names : List String)
    (values : List Value) : Record := fun name =>
  sqlite.store (affinityOf table name)
    ((((names.zip values).find? fun entry => entry.1 == name).map
      Prod.snd).getD .null)

/-! ## Statements -/

/-- A row of `agents_fts`. -/
structure SearchEntry where
  rowid : Value
  name : Value
  description : Value
  deriving DecidableEq

structure Database where
  tables : Table → List Record
  present : Table → Bool
  search : List SearchEntry

inductive Failure where
  | constraint (violation : Violation)
  | noSuchTable
  | tableExists
  | otherColumns
  | unreadable
  deriving DecidableEq

/-- `CAST(value ->> path AS TEXT)`. -/
def Sqlite.extract (sqlite : Sqlite) (value : Value) (path : String) : Value :=
  match value with
  | .text document => sqlite.field document path
  | _ => .null

def searchEntry (sqlite : Sqlite) (agent : Record) : SearchEntry where
  rowid := agent "id"
  name := sqlite.extract (agent "agent_uri_data") "$.name"
  description := sqlite.extract (agent "agent_uri_data") "$.description"

/-- The `INSERT INTO agents_fts` of the triggers. -/
def indexAgent (sqlite : Sqlite) (search : List SearchEntry) (agent : Record) :
    Except Failure (List SearchEntry) :=
  if ∃ entry ∈ search, entry.rowid = agent "id" then
    .error (.constraint .unique)
  else .ok (search ++ [searchEntry sqlite agent])

/-- Appends a row to a table, with the trigger `agents_fts_insert`. -/
def Database.insertRow (sqlite : Sqlite) (db : Database) (table : Table)
    (row : Record) : Except Failure Database :=
  if db.present table = false then .error .noSuchTable
  else
    match (schema sqlite).insert db.tables table row with
    | .error violation => .error (.constraint violation)
    | .ok tables =>
        if table = .agents then do
          let search ← indexAgent sqlite db.search row
          return { db with tables, search }
        else .ok { db with tables }

def Database.create (db : Database) (table : Table) :
    Except Failure Database :=
  if db.present table = true then .error .tableExists
  else .ok
    { db with
      tables := Function.update db.tables table []
      present := Function.update db.present table true }

def Database.drop (db : Database) (table : Table) : Database :=
  { db with
    tables := Function.update db.tables table []
    present := Function.update db.present table false }

/-- `DELETE` of all rows, with the trigger `agents_fts_delete`. -/
def Database.clear (sqlite : Sqlite) (db : Database) (table : Table) :
    Database :=
  let cleared := (schema sqlite).clear db.tables table
  { db with
    tables := cleared.1
    search := db.search.filter fun entry =>
      ¬ ∃ agent ∈ cleared.2 .agents, agent "id" = entry.rowid }

/-- The copy fence stands. -/
def Database.Fenced (db : Database) : Prop :=
  ∃ lock ∈ db.tables .indexerLocks,
    lock "lock_name" = .text "indexer" ∧ lock "owner" = .text "copy-fence"

instance (db : Database) : Decidable db.Fenced :=
  inferInstanceAs (Decidable (∃ lock ∈ db.tables .indexerLocks,
    lock "lock_name" = .text "indexer" ∧ lock "owner" = .text "copy-fence"))

/-- `ORDER BY i`, where `i` is an integer. -/
def pieceIndex (piece : Record) : Int :=
  match piece "i" with
  | .integer index => index
  | _ => 0

def pieceText (piece : Record) : String :=
  match piece "v" with
  | .text value => value
  | _ => ""

/-- `SELECT group_concat(v, '' ORDER BY i) FROM load_pieces WHERE k = …`. -/
def Database.concat (db : Database) (key : Value) : Value :=
  match (db.tables .loadPieces).filter fun piece =>
      piece "k" = key ∧ key ≠ .null with
  | [] => .null
  | found =>
      .text (String.join ((found.mergeSort fun first second =>
        pieceIndex first ≤ pieceIndex second).map pieceText))

/-- `name = value AND …`. -/
def found (sqlite : Sqlite) (table : Table)
    (matching : List (String × Value)) (row : Record) : Bool :=
  matching.all fun (name, value) =>
    row name = sqlite.store (affinityOf table name) value ∧ row name ≠ .null

/-- Sets a column of the rows that are found, with the triggers
`agents_fts_update` and `agents_transfer_clears_metadata`. -/
def Database.update (sqlite : Sqlite) (db : Database) (table : Table)
    (name : String) (value : Value) (matching : List (String × Value)) :
    Except Failure Database :=
  match (schema sqlite).update db.tables table (found sqlite table matching)
      (fun row => Function.update row name
        (sqlite.store (affinityOf table name) value)) with
  | .error violation => .error (.constraint violation)
  | .ok (tables, changed) =>
      if table = .agents ∧ name = "agent_uri_data" then do
        let search ← changed.foldlM (fun search agent =>
          indexAgent sqlite
            (search.filter fun entry => entry.rowid ≠ agent "id") agent)
          db.search
        return { db with tables, search }
      else if table = .agents ∧ name = "transferred_ledger" then .ok
        { db with
          tables := Function.update tables .agentMetadata
            ((tables .agentMetadata).filter fun row =>
              ¬ ∃ agent ∈ changed, row "agent_id" = agent "id") }
      else .ok { db with tables }

/-- A literal, or an error. -/
def readValue (written : String) : Except Failure Value :=
  match readLiteral written with
  | some value => .ok value
  | none => .error .unreadable

/-- An entry of a `WHERE`. -/
def readMatch (entry : String × String) : Except Failure (String × Value) := do
  let value ← readValue entry.2
  return (entry.1, value)

/-- One statement of the script.  Each `INSERT` of a row names all columns in
their order, so that no default is used. -/
def Database.run (sqlite : Sqlite) (db : Database) :
    Statement → Except Failure Database
  | .createCopyGuard => db.create .copyGuard
  | .insertCopyGuard =>
      db.insertRow sqlite .copyGuard
        (insertedRow sqlite .copyGuard ["fence_present"]
          [.integer (if db.Fenced then 1 else 0)])
  | .createLoadPieces => db.create .loadPieces
  | .dropTable table =>
      if db.present table = false then .error .noSuchTable
      else .ok (db.drop table)
  | .dropTableIfExists table => .ok (db.drop table)
  | .deleteFrom table =>
      if db.present table = false then .error .noSuchTable
      else .ok (db.clear sqlite table)
  | .insert table names written => do
      let values ← written.mapM readValue
      if names = (definitions table).map ColumnDefinition.name ∧
          names.length = values.length then
        db.insertRow sqlite table (insertedRow sqlite table names values)
      else .error .otherColumns
  | .insertPiece key index piece => do
      let key ← readValue key
      let piece ← readValue piece
      db.insertRow sqlite .loadPieces
        (insertedRow sqlite .loadPieces ["k", "i", "v"]
          [key, .integer index, piece])
  | .join table name key matching => do
      let key ← readValue key
      let matching ← matching.mapM readMatch
      if db.present table = false ∨ db.present .loadPieces = false then
        .error .noSuchTable
      else db.update sqlite table name (db.concat key) matching

def Database.runAll (sqlite : Sqlite) :
    List Statement → Database → Except Failure Database
  | [], db => .ok db
  | statement :: rest, db =>
      match db.run sqlite statement with
      | .error failure => .error failure
      | .ok next => Database.runAll sqlite rest next

/-- A file import: all its statements, or none of them. -/
def Database.importFile (sqlite : Sqlite) (db : Database)
    (statements : List Statement) : Database × Option Failure :=
  match Database.runAll sqlite statements db with
  | .ok after => (after, none)
  | .error failure => (db, some failure)

end Stellar8004.D1
