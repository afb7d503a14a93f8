import Stellar8004.D1.ScriptText

/-!
# The size of the statements

D1 rejects a statement longer than 100,000 bytes.  The script cuts each value
by itself, but a row's `INSERT` holds all its values that are not cut.
-/

namespace Stellar8004.D1

open Indexer (Json)

def MAX_STATEMENT_BYTES : Nat := 100000

/-! ## Texts -/

/-- The quotes in a text, each of which is written twice. -/
def quoteCount (text : String) : Nat := text.toList.count quoteMark

/-- The bytes of a text as a literal. -/
def textBytes (text : String) : Nat := text.utf8ByteSize + quoteCount text + 2

/-- The bytes of a value as a literal. -/
def literalBytes : Json → Nat
  | .null => 4
  | .bool _ => 1
  | .number number => number.utf8ByteSize
  | .text text => textBytes text
  | _ => 0

theorem utf8ByteSize_eq (text : String) :
    text.utf8ByteSize = String.utf8Len text.toList := by
  rw [← String.utf8ByteSize_ofList, String.ofList_toList]

theorem utf8Len_doubled (chars : List Char) :
    String.utf8Len (chars.flatMap fun char =>
        if char = quoteMark then [quoteMark, quoteMark] else [char]) =
      String.utf8Len chars + chars.count quoteMark := by
  have one : quoteMark.utf8Size = 1 := by decide
  induction chars with
  | nil => rfl
  | cons char chars induction =>
      rw [List.flatMap_cons, String.utf8Len_append, induction,
        String.utf8Len_cons]
      by_cases same : char = quoteMark
      · rw [if_pos same, same, List.count_cons_self]
        simp only [String.utf8Len_cons, String.utf8Len_nil, one]
        omega
      · rw [if_neg same, List.count_cons_of_ne same]
        simp only [String.utf8Len_cons, String.utf8Len_nil]
        omega

theorem bytes_textLiteral (text : String) :
    (textLiteral text).utf8ByteSize = textBytes text := by
  have quoteBytes : "'".utf8ByteSize = 1 := by decide
  have inside : (doubled text).utf8ByteSize =
      text.utf8ByteSize + quoteCount text := by
    rw [doubled, String.utf8ByteSize_ofList, utf8Len_doubled,
      ← utf8ByteSize_eq]
    rfl
  rw [textLiteral, String.utf8ByteSize_append, String.utf8ByteSize_append,
    inside, quoteBytes, textBytes]
  omega

theorem bytes_literalText (value : Json) :
    (literalText value).utf8ByteSize = literalBytes value := by
  cases value with
  | null => decide
  | bool value => cases value <;> decide
  | number number => rfl
  | text text => exact bytes_textLiteral text
  | array items => exact String.utf8ByteSize_empty
  | object fields => exact String.utf8ByteSize_empty

theorem length_le_utf8Len (chars : List Char) :
    chars.length ≤ String.utf8Len chars := by
  induction chars with
  | nil => exact Nat.le_refl 0
  | cons char chars induction =>
      have positive := char.utf8Size_pos
      rw [String.utf8Len_cons, List.length_cons]
      omega

/-- Quotes are at most all of a text. -/
theorem textBytes_le (text : String) :
    textBytes text ≤ 2 * text.utf8ByteSize + 2 := by
  have few : quoteCount text ≤ text.utf8ByteSize := by
    rw [utf8ByteSize_eq]
    exact List.count_le_length.trans (length_le_utf8Len _)
  unfold textBytes
  omega

theorem bytes_intercalate (separator : String) (texts : List String) :
    (String.intercalate separator texts).utf8ByteSize =
      (texts.map String.utf8ByteSize).sum +
        separator.utf8ByteSize * (texts.length - 1) := by
  induction texts with
  | nil => rw [String.intercalate_nil]; rfl
  | cons text texts induction =>
      cases texts with
      | nil => simp
      | cons next texts =>
          rw [String.intercalate_cons_cons, String.utf8ByteSize_append,
            String.utf8ByteSize_append, induction]
          simp only [List.map_cons, List.sum_cons, List.length_cons,
            Nat.add_sub_cancel, Nat.mul_add, Nat.mul_one]
          omega

theorem bytes_toString {number width : Nat} (positive : 0 < width)
    (small : number < 10 ^ width) :
    (toString number).utf8ByteSize ≤ width := by
  have digits : (toString number).toList = Nat.toDigits 10 number :=
    Nat.toList_repr
  have ascii (chars : List Char) (all : ∀ char ∈ chars, char.isDigit = true) :
      String.utf8Len chars = chars.length := by
    induction chars with
    | nil => rfl
    | cons char chars induction =>
        have isDigit := all char List.mem_cons_self
        have one : char.utf8Size = 1 := by
          apply Char.utf8Size_eq_one_iff.mpr
          have bounds : 48 ≤ char.toNat ∧ char.toNat ≤ 57 :=
            Char.isDigit_iff_toNat.mp isDigit
          apply UInt32.le_iff_toNat_le.mpr
          change char.toNat ≤ 127
          omega
        rw [String.utf8Len_cons, one, List.length_cons,
          induction fun other member => all other (List.mem_cons_of_mem _ member)]
  rw [utf8ByteSize_eq, digits, ascii _ fun char member =>
    Nat.isDigit_of_mem_toDigits (by omega) (by omega) member]
  exact (Nat.length_toDigits_le_iff (by omega) positive).mpr small

/-! ## Pieces -/

theorem pieces_short (chars : List Char) (current : String) (bytes : Nat)
    (isBytes : bytes = current.utf8ByteSize) (short : bytes ≤ PIECE_BYTES) :
    ∀ piece ∈ piecesFrom chars current bytes,
      piece.utf8ByteSize ≤ PIECE_BYTES := by
  induction chars generalizing current bytes with
  | nil =>
      intro piece member
      rw [piecesFrom] at member
      split_ifs at member with empty
      · cases member
      · rw [List.mem_singleton.mp member, ← isBytes]
        exact short
  | cons char chars induction =>
      intro piece member
      rw [piecesFrom] at member
      split_ifs at member with full
      · rcases List.mem_cons.mp member with rfl | later
        · rw [← isBytes]
          exact short
        · apply induction _ _ String.utf8ByteSize_singleton.symm ?_ piece later
          exact char.utf8Size_le_four.trans (by decide)
      · apply induction _ _ ?_ (Nat.le_of_not_lt full) piece member
        rw [String.utf8ByteSize_push, isBytes]

theorem length_piecesFrom (chars : List Char) (current : String)
    (bytes : Nat) :
    (piecesFrom chars current bytes).length ≤ chars.length + 1 := by
  induction chars generalizing current bytes with
  | nil =>
      rw [piecesFrom]
      split_ifs
      · exact Nat.zero_le _
      · exact Nat.le_refl _
  | cons char chars induction =>
      rw [piecesFrom]
      split_ifs
      · exact Nat.succ_le_succ (induction _ _)
      · exact (induction _ _).trans (Nat.le_succ _)

/-! ## Statements -/

/-- The bytes of a column in the `INSERT` of its row.  A placeholder has as
many as `NULL`. -/
def inlinedBytes : Json → Nat
  | .text text => if isLong text then 4 else textBytes text
  | value => literalBytes value

/-- The bytes of an `INSERT` around the values. -/
def insertBytes (source : Source) : Nat :=
  26 + source.table.name.utf8ByteSize +
    (source.columns.map fun column => column.name.utf8ByteSize).sum +
    4 * (source.columns.length - 1)

/-- The `INSERT` of a row has room for the values that are not cut. -/
def InsertFits (source : Source) (row : Row) : Prop :=
  insertBytes source +
      (source.columns.map fun column => inlinedBytes (column.value row)).sum ≤
    MAX_STATEMENT_BYTES

/-- The bytes of an `UPDATE` around the key of the row. -/
def joinBytes (source : Source) (name : String) (index : Nat) : Nat :=
  90 + source.table.name.utf8ByteSize + name.utf8ByteSize +
    textBytes (pieceKey source.table name index)

/-- The bytes of the key of a row in an `UPDATE`. -/
def keyBytes (source : Source) (row : Row) : Nat :=
  (source.key.map fun name =>
      name.utf8ByteSize + 3 + literalBytes (row.field name)).sum +
    5 * (source.key.length - 1)

/-- The `UPDATE` of each text that is cut has room for the key of the row. -/
def JoinsFit (source : Source) (row : Row) (index : Nat) : Prop :=
  ∀ column ∈ source.columns, ∀ text, column.value row = .text text →
    isLong text = true →
      joinBytes source column.name index + keyBytes source row ≤
        MAX_STATEMENT_BYTES

theorem bytes_placeholder (table : Table) (name : String) :
    (placeholder table name).utf8ByteSize = 4 := by
  unfold placeholder
  cases found : PLACEHOLDERS.find? fun entry =>
      entry.1 == columnPath table name with
  | none => decide
  | some entry =>
      have known := List.mem_of_find?_eq_some found
      rcases List.mem_cons.mp known with rfl | other
      · decide
      · rw [List.mem_singleton.mp other]
        decide

theorem bytes_inlined (source : Source) (row : Row) (column : Column) :
    (inlined source row column).utf8ByteSize =
      inlinedBytes (column.value row) := by
  unfold inlined inlinedBytes
  cases column.value row with
  | text text =>
      simp only []
      split_ifs
      · exact bytes_placeholder _ _
      · exact bytes_textLiteral text
  | null => exact bytes_literalText _
  | bool value => exact bytes_literalText _
  | number number => exact bytes_literalText _
  | array items => exact bytes_literalText _
  | object fields => exact bytes_literalText _

theorem bytes_insert (source : Source) (row : Row) :
    (Statement.insert source.table (source.columns.map Column.name)
        (source.columns.map (inlined source row))).text.utf8ByteSize =
      insertBytes source +
        (source.columns.map fun column =>
          inlinedBytes (column.value row)).sum := by
  have parts : "INSERT INTO ".utf8ByteSize = 12 ∧ " (".utf8ByteSize = 2 ∧
      ") VALUES (".utf8ByteSize = 10 ∧ ");".utf8ByteSize = 2 ∧
      ", ".utf8ByteSize = 2 := by decide
  obtain ⟨start, opening, values, closing, comma⟩ := parts
  have each : (source.columns.map (inlined source row)).map
        String.utf8ByteSize =
      source.columns.map fun column => inlinedBytes (column.value row) := by
    rw [List.map_map]
    exact List.map_congr_left fun column _ => bytes_inlined source row column
  have names : (source.columns.map Column.name).map String.utf8ByteSize =
      source.columns.map fun column => column.name.utf8ByteSize :=
    List.map_map
  rw [Statement.text_insert]
  simp only [String.utf8ByteSize_append, bytes_intercalate, each, names,
    List.length_map, start, opening, values, closing, comma, insertBytes]
  omega

theorem bytes_join (source : Source) (row : Row) (name : String)
    (index : Nat) :
    (Statement.join source.table name
        (textLiteral (pieceKey source.table name index))
        (keyTexts source row)).text.utf8ByteSize =
      joinBytes source name index + keyBytes source row := by
  have parts : "UPDATE ".utf8ByteSize = 7 ∧ " SET ".utf8ByteSize = 5 ∧
      " = (SELECT group_concat(v, '' ORDER BY i) FROM load_pieces WHERE k = ".utf8ByteSize =
        69 ∧
      ") WHERE ".utf8ByteSize = 8 ∧ ";".utf8ByteSize = 1 ∧
      " AND ".utf8ByteSize = 5 ∧ " = ".utf8ByteSize = 3 := by
    decide
  obtain ⟨start, set, concat, matching, closing, both, equals⟩ := parts
  have each : ((keyTexts source row).map equation).map String.utf8ByteSize =
      source.key.map fun name =>
        name.utf8ByteSize + 3 + literalBytes (row.field name) := by
    rw [keyTexts, List.map_map, List.map_map]
    apply List.map_congr_left
    intro name _
    simp only [Function.comp_apply, equation, String.utf8ByteSize_append,
      equals, bytes_literalText]
  have count : ((keyTexts source row).map equation).length =
      source.key.length := by
    rw [List.length_map, keyTexts, List.length_map]
  rw [Statement.text_join]
  simp only [String.utf8ByteSize_append, bytes_intercalate, each, count,
    bytes_textLiteral, start, set, concat, matching, closing, both, joinBytes,
    keyBytes]
  omega

/-- No name of a table or a column is long. -/
theorem names_short {source : Source} (listed : source ∈ TABLES) :
    source.table.name.utf8ByteSize ≤ 19 ∧
      ∀ column ∈ source.columns, column.name.utf8ByteSize ≤ 23 := by
  have tables : (TABLES.all fun source =>
      decide (source.table.name.utf8ByteSize ≤ 19)) = true := by decide
  have columns : (TABLES.all fun source => source.columns.all fun column =>
      decide (column.name.utf8ByteSize ≤ 23)) = true := by decide
  constructor
  · exact of_decide_eq_true (List.all_eq_true.mp tables source listed)
  · intro column member
    have each := List.all_eq_true.mp columns source listed
    exact of_decide_eq_true (List.all_eq_true.mp each column member)

/-- A piece has room in its statement, even if it is all quotes. -/
theorem insertPiece_fits {source : Source} (listed : source ∈ TABLES)
    {column : Column} (inColumns : column ∈ source.columns) {index i : Nat}
    (small : index < 2 ^ 32) (few : i < 2 ^ 53 + 1) {piece : String}
    (short : piece.utf8ByteSize ≤ PIECE_BYTES) :
    (Statement.insertPiece
        (textLiteral (pieceKey source.table column.name index)) i
        (textLiteral piece)).text.utf8ByteSize ≤ MAX_STATEMENT_BYTES := by
  obtain ⟨shortTable, shortColumns⟩ := names_short listed
  have shortColumn := shortColumns column inColumns
  have parts : "INSERT INTO load_pieces VALUES (".utf8ByteSize = 32 ∧
      ", ".utf8ByteSize = 2 ∧ ");".utf8ByteSize = 2 ∧
      ".".utf8ByteSize = 1 := by decide
  obtain ⟨start, comma, closing, dot⟩ := parts
  have indexDigits : (toString index).utf8ByteSize ≤ 10 :=
    bytes_toString (by decide) (small.trans (by decide))
  have pieceDigits : (toString i).utf8ByteSize ≤ 16 :=
    bytes_toString (by decide) (few.trans (by decide))
  have key := textBytes_le (pieceKey source.table column.name index)
  have shortKey : (pieceKey source.table column.name index).utf8ByteSize ≤
      54 := by
    simp only [pieceKey, String.utf8ByteSize_append, dot]
    omega
  have quoted := textBytes_le piece
  rw [Statement.text_insertPiece]
  simp only [String.utf8ByteSize_append, bytes_textLiteral, start, comma,
    closing]
  unfold PIECE_BYTES at short
  unfold MAX_STATEMENT_BYTES
  omega

/-- The statements that finish a column fit where its `UPDATE` does. -/
theorem finishColumn_fits_iff {source : Source} (listed : source ∈ TABLES)
    {column : Column} (inColumns : column ∈ source.columns) {row : Row}
    {index : Nat} (small : index < 2 ^ 32) {text : String}
    (bounded : text.length < 2 ^ 53) :
    (∀ statement ∈ finishColumn source.table column.name index text
        (keyTexts source row),
      statement.text.utf8ByteSize ≤ MAX_STATEMENT_BYTES) ↔
      joinBytes source column.name index + keyBytes source row ≤
        MAX_STATEMENT_BYTES := by
  rw [← bytes_join]
  constructor
  · intro fits
    exact fits _ (List.mem_append_right _ List.mem_cons_self)
  · intro fits statement member
    rcases List.mem_append.mp member with inPieces | isJoin
    · obtain ⟨⟨piece, i⟩, inZip, rfl⟩ := List.mem_map.mp inPieces
      have found := List.mk_mem_zipIdx_iff_getElem?.mp inZip
      have isPiece := List.mem_of_getElem? found
      apply insertPiece_fits listed inColumns small
      · have count : i < (pieces text).length :=
          (List.getElem?_eq_some_iff.mp found).1
        have most := length_piecesFrom text.toList "" 0
        rw [String.length_toList] at most
        exact count.trans_le (most.trans (Nat.succ_le_succ (Nat.le_of_lt bounded)))
      · exact pieces_short _ _ _ String.utf8ByteSize_empty.symm
          (Nat.zero_le _) piece isPiece
    · rw [List.mem_singleton.mp isJoin]
      exact fits

theorem header_fits :
    ∀ statement ∈ header ++ [Statement.dropTable .loadPieces],
      statement.text.utf8ByteSize ≤ MAX_STATEMENT_BYTES := by
  have all : ((header ++ [Statement.dropTable .loadPieces]).all
      fun statement =>
        decide (statement.text.utf8ByteSize ≤ MAX_STATEMENT_BYTES)) = true := by
    decide +kernel
  intro statement member
  exact of_decide_eq_true (List.all_eq_true.mp all statement member)

/-! ## Scripts -/

section

variable {snapshot : Snapshot} {source : Source} {row : Row} {index : Nat}

theorem Snapshot.rows_short (snapshot : Snapshot) (table : Table) :
    (snapshot.rows table).length < 2 ^ 32 := by
  unfold Snapshot.rows
  cases found : snapshot.file table with
  | none => decide
  | some rows => exact snapshot.rows_lt table rows found

theorem Snapshot.text_short (listed : source ∈ TABLES)
    (inRows : row ∈ snapshot.rows source.table)
    (accepts : source.Accepts row) {column : Column}
    (inColumns : column ∈ source.columns) {text : String}
    (isText : column.value row = .text text) : text.length < 2 ^ 53 := by
  unfold Snapshot.rows at inRows
  cases found : snapshot.file source.table with
  | none =>
      rw [found] at inRows
      cases inRows
  | some rows =>
      rw [found] at inRows
      obtain ⟨value, isRead, -⟩ := accepts column inColumns
      apply snapshot.text_lt source listed rows found row inRows column
        inColumns
      rw [isRead]
      simp only [Column.value, isRead] at isText
      rw [isText]

/-- The statements of a row fit where its `INSERT` and its `UPDATE`s do. -/
theorem rowScript_fits_iff (listed : source ∈ TABLES)
    (inRows : row ∈ snapshot.rows source.table)
    (accepts : source.Accepts row) (small : index < 2 ^ 32) :
    (∀ statement ∈ rowScript source row index,
      statement.text.utf8ByteSize ≤ MAX_STATEMENT_BYTES) ↔
      InsertFits source row ∧ JoinsFit source row index := by
  rw [rowScript, List.forall_mem_cons, bytes_insert, InsertFits]
  apply and_congr_right
  intro _
  constructor
  · intro fits column inColumns text isText long
    apply (finishColumn_fits_iff listed inColumns small
      (Snapshot.text_short listed inRows accepts inColumns isText)).mp
    intro statement member
    apply fits
    apply List.mem_flatMap.mpr
    refine ⟨column, inColumns, ?_⟩
    simp only [finishing, isText, long, if_true]
    exact member
  · intro fits statement member
    obtain ⟨column, inColumns, isFinishing⟩ := List.mem_flatMap.mp member
    unfold finishing at isFinishing
    split at isFinishing
    · rename_i text isText
      split_ifs at isFinishing with long
      · exact (finishColumn_fits_iff listed inColumns small
          (Snapshot.text_short listed inRows accepts inColumns isText)).mpr
          (fits column inColumns text isText long) statement isFinishing
      · cases isFinishing
    · cases isFinishing

theorem statements_fit_iff {output : Output}
    (accepted : snapshotToSql snapshot = .ok output) :
    (∀ statement ∈ output.statements,
      statement.text.utf8ByteSize ≤ MAX_STATEMENT_BYTES) ↔
      ∀ source ∈ TABLES, ∀ row index,
        (row, index) ∈ (snapshot.rows source.table).zipIdx →
          InsertFits source row ∧ JoinsFit source row index := by
  obtain ⟨isScript, accepts⟩ := snapshotToSql_ok accepted
  have each {source : Source} (listed : source ∈ TABLES) {row : Row}
      {index : Nat}
      (member : (row, index) ∈ (snapshot.rows source.table).zipIdx) :
      (∀ statement ∈ rowScript source row index,
        statement.text.utf8ByteSize ≤ MAX_STATEMENT_BYTES) ↔
        InsertFits source row ∧ JoinsFit source row index := by
    have found := List.mk_mem_zipIdx_iff_getElem?.mp member
    have inRows := List.mem_of_getElem? found
    have inside : index < (snapshot.rows source.table).length :=
      (List.getElem?_eq_some_iff.mp found).1
    exact rowScript_fits_iff listed inRows ((accepts source listed).2 row inRows)
      (inside.trans (snapshot.rows_short source.table))
  rw [isScript]
  constructor
  · intro fits source listed row index member
    apply (each listed member).mp
    intro statement inRow
    apply fits
    apply List.mem_append_left
    apply List.mem_append_right
    apply List.mem_flatMap.mpr
    exact ⟨source, listed, List.mem_flatMap.mpr ⟨(row, index), member, inRow⟩⟩
  · intro fits statement member
    rw [List.append_assoc, List.mem_append, List.mem_append] at member
    rcases member with inHeader | inTables | isLast
    · exact header_fits statement (List.mem_append_left _ inHeader)
    · obtain ⟨source, listed, inTable⟩ := List.mem_flatMap.mp inTables
      obtain ⟨⟨row, index⟩, inRows, inRow⟩ := List.mem_flatMap.mp inTable
      exact (each listed inRows).mpr (fits source listed row index inRows)
        statement inRow
    · exact header_fits statement (List.mem_append_right _ isLast)

/-- Where the time of the snapshot has no line break, the statements of the
text are short enough exactly if each row leaves room: for all its values that
are not cut, with their quotes doubled, in its `INSERT`, and for its key in
the `UPDATE` of a text that is. -/
theorem snapshotToSql_fits_iff {output : Output}
    (accepted : snapshotToSql snapshot = .ok output)
    (unbroken : '\n' ∉ snapshot.takenAt.toList) :
    (∀ statement ∈ sqlStatements output.text,
      statement.utf8ByteSize ≤ MAX_STATEMENT_BYTES) ↔
      ∀ source ∈ TABLES, ∀ row index,
        (row, index) ∈ (snapshot.rows source.table).zipIdx →
          InsertFits source row ∧ JoinsFit source row index := by
  rw [sqlStatements_text accepted unbroken, ← statements_fit_iff accepted]
  exact List.forall_mem_map

theorem snapshotToSql_fits_iff_small :
    ∃ output,
      snapshotToSql (oneAgent "https://example.com/agent.json" "\x7b\x7d" "[]"
        (by decide) (by decide) (by decide)) = .ok output ∧
      ∀ statement ∈ sqlStatements output.text,
        statement.utf8ByteSize ≤ MAX_STATEMENT_BYTES := by
  obtain ⟨output, accepted⟩ := oneAgent_accepts
    (by decide : "https://example.com/agent.json".length < 2 ^ 53)
    (by decide : "\x7b\x7d".length < 2 ^ 53) (by decide : "[]".length < 2 ^ 53)
  refine ⟨output, accepted,
    (snapshotToSql_fits_iff accepted (by decide)).mpr ?_⟩
  intro source listed row index member
  have inRows := List.mem_of_getElem?
    (List.mk_mem_zipIdx_iff_getElem?.mp member)
  rw [oneAgent_rows] at inRows
  split_ifs at inRows with isAgents
  · rw [List.mem_singleton.mp inRows, eq_agentsSource listed isAgents]
    constructor
    · unfold InsertFits
      decide +kernel
    · intro column inColumns text isText long
      have inMap := List.mem_map_of_mem (f := fun column : Column =>
        column.value (agentRow "https://example.com/agent.json" "\x7b\x7d"
          "[]")) inColumns
      rw [agentRow_value] at inMap
      simp only [isText, List.mem_cons, List.not_mem_nil, or_false,
        Json.text.injEq, reduceCtorEq, false_or] at inMap
      rcases inMap with rfl | rfl | rfl | rfl | rfl | rfl | rfl <;>
        exact absurd long (by decide)
  · cases inRows

/-! ## A row without room -/

/-- A text of so many bytes. -/
def filler (count : Nat) : String := String.ofList (List.replicate count 'a')

theorem bytes_filler (count : Nat) : (filler count).utf8ByteSize = count := by
  have one : 'a'.utf8Size = 1 := by decide
  rw [filler, String.utf8ByteSize_ofList]
  induction count with
  | zero => rfl
  | succ count induction =>
      rw [List.replicate_succ, String.utf8Len_cons, induction, one]

theorem length_filler (count : Nat) : (filler count).length = count := by
  rw [filler, String.length_ofList, List.length_replicate]

/-- A document of 40,000 bytes. -/
def wideData : String := "\"" ++ filler 39998 ++ "\""

/-- A list of services of 40,000 bytes. -/
def wideServices : String := "[\"" ++ filler 39996 ++ "\"]"

theorem wideData_short : wideData.length < 2 ^ 53 := by
  rw [wideData, String.length_append, String.length_append, length_filler]
  decide

theorem wideServices_short : wideServices.length < 2 ^ 53 := by
  rw [wideServices, String.length_append, String.length_append, length_filler]
  decide

theorem filler_short : (filler 40000).length < 2 ^ 53 := by
  rw [length_filler]
  decide

theorem bytes_wideData : wideData.utf8ByteSize = 40000 := by
  rw [wideData, String.utf8ByteSize_append, String.utf8ByteSize_append,
    bytes_filler]
  decide

theorem bytes_wideServices : wideServices.utf8ByteSize = 40000 := by
  rw [wideServices, String.utf8ByteSize_append, String.utf8ByteSize_append,
    bytes_filler]
  decide

theorem inlinedBytes_wide {text : String} (bytes : text.utf8ByteSize = 40000) :
    40000 ≤ inlinedBytes (.text text) := by
  have short : isLong text = false := by
    rw [isLong, bytes]
    decide
  rw [inlinedBytes, short, textBytes, bytes]
  exact (Nat.le_add_right _ _).trans (Nat.le_add_right _ _)

/-- Three columns that are not cut are too much together. -/
theorem wide_insert {uri data services : String}
    (wideUri : 40000 ≤ inlinedBytes (.text uri))
    (wideData : 40000 ≤ inlinedBytes (.text data))
    (wideServices : 40000 ≤ inlinedBytes (.text services)) :
    MAX_STATEMENT_BYTES < insertBytes agentsSource +
      (agentsSource.columns.map fun column =>
        inlinedBytes (column.value (agentRow uri data services))).sum := by
  have values := congrArg (List.map inlinedBytes)
    (agentRow_value uri data services)
  simp only [List.map_map, Function.comp_def] at values
  rw [values]
  simp only [List.map_cons, List.sum_cons, MAX_STATEMENT_BYTES]
  omega

theorem snapshotToSql_overflows :
    ¬ ∀ snapshot output, snapshotToSql snapshot = .ok output →
      ∀ statement ∈ sqlStatements output.text,
        statement.utf8ByteSize ≤ MAX_STATEMENT_BYTES := by
  intro claim
  obtain ⟨output, accepted⟩ :=
    oneAgent_accepts filler_short wideData_short wideServices_short
  have fits := claim _ output accepted
  have isScript := (snapshotToSql_ok accepted).1
  have first : Statement.insert agentsSource.table
        (agentsSource.columns.map Column.name)
        (agentsSource.columns.map (inlined agentsSource
          (agentRow (filler 40000) wideData wideServices))) ∈
      output.statements := by
    rw [isScript]
    apply List.mem_append_left
    apply List.mem_append_right
    apply List.mem_flatMap.mpr
    refine ⟨agentsSource, List.mem_cons_self, ?_⟩
    apply List.mem_flatMap.mpr
    refine ⟨(agentRow (filler 40000) wideData wideServices, 0), ?_, ?_⟩
    · exact List.mem_cons_self
    · exact List.mem_cons_self
  rw [sqlStatements_text accepted (by decide)] at fits
  have short := fits _ (List.mem_map_of_mem first)
  rw [bytes_insert] at short
  exact absurd (wide_insert (inlinedBytes_wide (bytes_filler 40000))
    (inlinedBytes_wide bytes_wideData)
    (inlinedBytes_wide bytes_wideServices)) (Nat.not_lt.mpr short)

end

end Stellar8004.D1
