import Stellar8004.D1.Literals

/-!
# Rows of a snapshot as rows of the database

What a row of the snapshot is in the database, and the drafts of it that are
in the table until its long texts are there.
-/

namespace Stellar8004.D1

open Indexer (Json)
open Relations (Schema)

/-! ## Columns -/

theorem find?_named {columns : List Column}
    (distinct : (columns.map Column.name).Nodup) {column : Column}
    (inColumns : column ∈ columns) :
    (columns.find? fun other => other.name == column.name) = some column := by
  induction columns with
  | nil => cases inColumns
  | cons first columns induction =>
      rw [List.map_cons, List.nodup_cons] at distinct
      rw [List.find?_cons]
      rcases List.mem_cons.mp inColumns with rfl | later
      · rw [beq_self_eq_true]
      · have different : first.name ≠ column.name := by
          intro same
          apply distinct.1
          rw [same]
          exact List.mem_map_of_mem later
        rw [beq_eq_false_iff_ne.mpr different]
        exact induction distinct.2 later

theorem names_nodup {source : Source} (listed : source ∈ TABLES) :
    (source.columns.map Column.name).Nodup := by
  have all : (TABLES.all fun source =>
      decide (source.columns.map Column.name).Nodup) = true := by decide
  exact of_decide_eq_true (List.all_eq_true.mp all source listed)

/-- The script copies the columns of the schema, in their order. -/
theorem names_match {source : Source} (listed : source ∈ TABLES) :
    source.columns.map Column.name =
      (definitions source.table).map ColumnDefinition.name := by
  have all : (TABLES.all fun source =>
      decide (source.columns.map Column.name =
        (definitions source.table).map ColumnDefinition.name)) = true := by
    decide
  exact of_decide_eq_true (List.all_eq_true.mp all source listed)

/-- The script finds a row by the primary key. -/
theorem key_unique {source : Source} (listed : source ∈ TABLES) :
    source.key ∈ uniqueKeys source.table := by
  have all : (TABLES.all fun source =>
      decide (source.key ∈ uniqueKeys source.table)) = true := by decide
  exact of_decide_eq_true (List.all_eq_true.mp all source listed)

/-- What the schema asks of a column that the script may load in pieces. -/
structure Loadable (table : Table) (name : String) : Prop where
  optional : requires table name = false →
    Check.rowid ∉ checksOf table name ∧
      ∀ reference ∈ foreignKeys table, name ∉ reference.columns
  array : name = "services" ∨ name = "supported_trust" →
    placeholder table name = "'[]'" ∧ checksOf table name = [.jsonArray] ∧
      (∀ key ∈ uniqueKeys table, name ∉ key) ∧
        ∀ reference ∈ foreignKeys table, name ∉ reference.columns
  other : name ≠ "services" ∧ name ≠ "supported_trust" →
    placeholder table name = "NULL"

instance (table : Table) (name : String) : Decidable (Loadable table name) :=
  decidable_of_iff
    ((requires table name = false → Check.rowid ∉ checksOf table name ∧
        ∀ reference ∈ foreignKeys table, name ∉ reference.columns) ∧
      (name = "services" ∨ name = "supported_trust" →
        placeholder table name = "'[]'" ∧
          checksOf table name = [.jsonArray] ∧
          (∀ key ∈ uniqueKeys table, name ∉ key) ∧
          ∀ reference ∈ foreignKeys table, name ∉ reference.columns) ∧
      (name ≠ "services" ∧ name ≠ "supported_trust" →
        placeholder table name = "NULL"))
    ⟨fun ⟨optional, array, other⟩ => ⟨optional, array, other⟩,
      fun ⟨optional, array, other⟩ => ⟨optional, array, other⟩⟩

theorem loadable {source : Source} (listed : source ∈ TABLES)
    {column : Column} (inColumns : column ∈ source.columns) :
    Loadable source.table column.name := by
  have all : (TABLES.all fun source => source.columns.all fun column =>
      decide (Loadable source.table column.name)) = true := by
    decide +kernel
  have each := List.all_eq_true.mp all source listed
  exact of_decide_eq_true (List.all_eq_true.mp each column inColumns)

/-! ## Rows -/

/-- A row of the snapshot as a row of its table. -/
def Source.record (source : Source) (row : Row) : Record := fun name =>
  match source.columns.find? fun column => column.name == name with
  | some column => cell (column.value row)
  | none => .null

/-- The rows of a snapshot for a table. -/
def Snapshot.loaded (snapshot : Snapshot) (table : Table) : List Record :=
  match TABLES.find? fun source => source.table = table with
  | some source => (snapshot.rows table).map source.record
  | none => []

/-- A value of the type its column declares. -/
def Affinity.Holds : Affinity → Value → Prop
  | _, .null => True
  | integer, .integer _ => True
  | text, .text _ => True
  | _, _ => False

/-- The rows of a snapshot satisfy the schema: the values are of the types the
columns declare, and the tables satisfy their constraints.  A text that may
not be missing and has no placeholder is short enough to stand in its row, and
no text has a NUL in it. -/
structure Snapshot.Fits (sqlite : Sqlite) (snapshot : Snapshot) : Prop where
  typed : ∀ source ∈ TABLES, ∀ row ∈ snapshot.rows source.table,
    ∀ column ∈ source.columns,
      (affinityOf source.table column.name).Holds (cell (column.value row))
  satisfied : ∀ source ∈ TABLES,
    (schema sqlite).Satisfied snapshot.loaded source.table
  short : ∀ source ∈ TABLES, ∀ row ∈ snapshot.rows source.table,
    ∀ column ∈ source.columns, requires source.table column.name = true →
      column.name ≠ "services" → column.name ≠ "supported_trust" →
        ∀ text, column.value row = .text text →
          text.utf8ByteSize ≤ PIECE_BYTES
  clean : ∀ source ∈ TABLES, ∀ row ∈ snapshot.rows source.table,
    ∀ column ∈ source.columns, ∀ text, column.value row = .text text →
      NoNul text

theorem loaded_source (snapshot : Snapshot) {source : Source}
    (listed : source ∈ TABLES) :
    snapshot.loaded source.table =
      (snapshot.rows source.table).map source.record := by
  simp only [TABLES, List.mem_cons, List.not_mem_nil, or_false] at listed
  rcases listed with rfl | rfl | rfl | rfl | rfl | rfl | rfl <;> rfl

theorem record_column {source : Source} (listed : source ∈ TABLES)
    {column : Column} (inColumns : column ∈ source.columns) (row : Row) :
    source.record row column.name = cell (column.value row) := by
  unfold Source.record
  rw [find?_named (names_nodup listed) inColumns]

theorem record_key {source : Source} (listed : source ∈ TABLES)
    {name : String} (inKey : name ∈ source.key) (row : Row) :
    source.record row name = cell (row.field name) :=
  record_column listed (key_plain listed inKey) row

theorem Affinity.Holds.store {sqlite : Sqlite} {affinity : Affinity}
    {value : Value} (holds : affinity.Holds value) :
    sqlite.store affinity value = value := by
  cases affinity <;> cases value <;> first
    | rfl
    | exact holds.elim

/-! ## Drafts -/

/-- The value of a placeholder. -/
def placeholderValue (table : Table) (name : String) : Value :=
  (readLiteral (placeholder table name)).getD .null

/-- A column of a row whose text is loaded in pieces. -/
def longIn (row : Row) (column : Column) : Bool :=
  match column.value row with
  | .text text => isLong text
  | _ => false

/-- The names of the long columns among some. -/
def pendingOf (row : Row) (columns : List Column) : List String :=
  (columns.filter (longIn row)).map Column.name

/-- The row in the table while some of its columns are pending. -/
def draftRow (source : Source) (row : Row) (pending : List String) : Record :=
  fun name =>
    if name ∈ pending then placeholderValue source.table name
    else source.record row name

theorem longIn_iff {row : Row} {column : Column} :
    longIn row column = true ↔
      ∃ text, column.value row = .text text ∧ isLong text = true := by
  unfold longIn
  cases column.value row with
  | text text => simp
  | null => simp
  | bool value => simp
  | number number => simp
  | array items => simp
  | object fields => simp

theorem mem_pendingOf {row : Row} {columns : List Column} {name : String} :
    name ∈ pendingOf row columns ↔
      ∃ column ∈ columns, longIn row column = true ∧ column.name = name := by
  unfold pendingOf
  rw [List.mem_map]
  constructor
  · intro found
    obtain ⟨column, kept, named⟩ := found
    obtain ⟨inColumns, long⟩ := List.mem_filter.mp kept
    exact ⟨column, inColumns, long, named⟩
  · intro found
    obtain ⟨column, inColumns, long, named⟩ := found
    exact ⟨column, List.mem_filter.mpr ⟨inColumns, long⟩, named⟩

theorem readLiteral_placeholder (table : Table) (name : String) :
    readLiteral (placeholder table name) =
      some (placeholderValue table name) := by
  have read : ∃ value, readLiteral (placeholder table name) = some value := by
    unfold placeholder
    cases found : PLACEHOLDERS.find? fun entry =>
        entry.1 == columnPath table name with
    | none => exact ⟨.null, by decide⟩
    | some entry =>
        have known := List.mem_of_find?_eq_some found
        rcases List.mem_cons.mp known with rfl | other
        · exact ⟨.text "[]", by decide⟩
        · rw [List.mem_singleton.mp other]
          exact ⟨.text "[]", by decide⟩
  obtain ⟨value, isValue⟩ := read
  rw [placeholderValue, isValue, Option.getD_some]

section

variable {sqlite : Sqlite} {snapshot : Snapshot}
  (fits : snapshot.Fits sqlite) {source : Source} (listed : source ∈ TABLES)
  {row : Row} (inRows : row ∈ snapshot.rows source.table)

include fits listed inRows

/-- A long text is in a column of texts. -/
theorem affinity_long {column : Column} (inColumns : column ∈ source.columns)
    (long : longIn row column = true) :
    affinityOf source.table column.name = .text := by
  obtain ⟨text, isText, -⟩ := longIn_iff.mp long
  have holds := fits.typed source listed row inRows column inColumns
  rw [isText, cell] at holds
  cases affinity : affinityOf source.table column.name with
  | text => rfl
  | integer =>
      rw [affinity] at holds
      exact holds.elim

/-- No constraint needs a long text to be there. -/
theorem spare_placeholder {column : Column}
    (inColumns : column ∈ source.columns) (long : longIn row column = true) :
    (schema sqlite).Spare source.table column.name
      (placeholderValue source.table column.name) := by
  obtain ⟨optional, array, other⟩ := loadable listed inColumns
  by_cases isArray : column.name = "services" ∨
      column.name = "supported_trust"
  · obtain ⟨isPlaceholder, isCheck, keyless, unreferring⟩ := array isArray
    have isValue : placeholderValue source.table column.name =
        .text "[]" := by
      rw [placeholderValue, isPlaceholder]
      decide
    constructor
    · intro _
      rw [isValue]
      exact nofun
    · change (checksOf source.table column.name).all _ = true
      rw [isCheck, isValue, List.all_cons, List.all_nil, Check.passes,
        sqlite.emptyArray_valid, sqlite.emptyArray_type]
      rfl
    · intro key isKey inKey
      exact absurd inKey (keyless key isKey)
    · exact unreferring
  · obtain ⟨notServices, notTrust⟩ := not_or.mp isArray
    have isValue : placeholderValue source.table column.name = .null := by
      rw [placeholderValue, other ⟨notServices, notTrust⟩]
      decide
    have notRequired : requires source.table column.name = false := by
      obtain ⟨text, isText, isLong⟩ := longIn_iff.mp long
      apply Bool.eq_false_iff.mpr
      intro required
      have few := fits.short source listed row inRows column inColumns required
        notServices notTrust text isText
      exact absurd (of_decide_eq_true isLong) (Nat.not_lt.mpr few)
    obtain ⟨notRowid, unreferring⟩ := optional notRequired
    rw [isValue]
    constructor
    · intro required
      exact absurd required (Bool.eq_false_iff.mp notRequired)
    · apply List.all_eq_true.mpr
      intro check isCheck
      cases check with
      | rowid => exact absurd isCheck notRowid
      | _ => rfl
    · intro _ _ _
      rfl
    · exact unreferring

/-- What an `INSERT` has for a column is read as the value of its draft. -/
theorem readLiteral_inlined {column : Column}
    (inColumns : column ∈ source.columns)
    (writable : Writable (column.value row)) :
    readLiteral (inlined source row column) =
      some (if longIn row column then
          placeholderValue source.table column.name
        else cell (column.value row)) := by
  have read := readLiteral_literalText writable
    (fits.clean source listed row inRows column inColumns)
  unfold inlined longIn
  cases isValue : column.value row with
  | text text =>
      rw [isValue] at read
      simp only []
      split_ifs
      · exact readLiteral_placeholder _ _
      · exact read
  | _ =>
      rw [isValue] at read
      exact read

/-- The `INSERT` of a row makes its draft with all long texts pending. -/
theorem insertedRow_draft :
    insertedRow sqlite source.table (source.columns.map Column.name)
        (source.columns.map fun column =>
          if longIn row column then placeholderValue source.table column.name
          else cell (column.value row)) =
      draftRow source row (pendingOf row source.columns) := by
  funext name
  unfold insertedRow draftRow
  rw [List.zip_map', List.find?_map, Option.map_map, Source.record]
  change sqlite.store _ ((((source.columns.find? fun column =>
    column.name == name).map _).getD .null)) = _
  cases found : source.columns.find? fun column => column.name == name with
  | none =>
      have absent : name ∉ pendingOf row source.columns := by
        intro isPending
        obtain ⟨column, inColumns, -, named⟩ := mem_pendingOf.mp isPending
        have never := List.find?_eq_none.mp found column inColumns
        exact never (beq_iff_eq.mpr named)
      rw [if_neg absent]
      cases affinityOf source.table name <;> rfl
  | some column =>
      have inColumns := List.mem_of_find?_eq_some found
      have named : column.name = name := beq_iff_eq.mp
        (List.find?_some (p := fun column : Column => column.name == name)
          found)
      cases named
      rw [Option.map_some, Option.getD_some]
      by_cases long : longIn row column = true
      · have isPending : column.name ∈ pendingOf row source.columns :=
          mem_pendingOf.mpr ⟨column, inColumns, long, rfl⟩
        rw [if_pos isPending, Function.comp_apply, if_pos long,
          affinity_long fits listed inRows inColumns long]
        unfold placeholderValue placeholder
        cases isEntry : PLACEHOLDERS.find? fun entry =>
            entry.1 == columnPath source.table column.name with
        | none => rfl
        | some entry =>
            have known := List.mem_of_find?_eq_some isEntry
            rcases List.mem_cons.mp known with rfl | other
            · rfl
            · rw [List.mem_singleton.mp other]
              rfl
      · have absent : column.name ∉ pendingOf row source.columns := by
          intro isPending
          obtain ⟨other, inOthers, otherLong, named⟩ :=
            mem_pendingOf.mp isPending
          have same : other = column := by
            have isOther := find?_named (names_nodup listed) inOthers
            rw [named, found] at isOther
            exact (Option.some.inj isOther).symm
          exact long (same ▸ otherLong)
        rw [if_neg absent, Function.comp_apply, if_neg long]
        exact (fits.typed source listed row inRows column inColumns).store

/-- The row in the table is a draft of the row of the snapshot. -/
theorem draft_pending {columns : List Column}
    (subset : ∀ column ∈ columns, column ∈ source.columns) :
    (schema sqlite).Draft source.table
      (draftRow source row (pendingOf row columns)) (source.record row) := by
  intro name
  unfold draftRow
  split_ifs with isPending
  · right
    obtain ⟨column, inColumns, long, rfl⟩ := mem_pendingOf.mp isPending
    exact spare_placeholder fits listed inRows (subset column inColumns) long
  · exact .inl rfl

end

end Stellar8004.D1
