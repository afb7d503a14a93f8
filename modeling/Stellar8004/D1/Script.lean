import Stellar8004.D1.Snapshot
import Stellar8004.Library.Failures

/-!
# The script of an accepted snapshot

What `snapshotToSql` writes when it does not throw, as a list of statements
that depends on the values of the rows alone.
-/

namespace Stellar8004.D1

open Indexer (Json)

/-- The value a column has in an accepted row. -/
def Column.value (column : Column) (row : Row) : Json :=
  match column.read row with
  | .ok value => value
  | .error _ => .null

/-- The text of a value in a statement. -/
def literalText : Json → String
  | .null => "NULL"
  | .bool value => if value then "1" else "0"
  | .number number => number
  | .text text => textLiteral text
  | _ => ""

/-- The values `literal` does not throw on. -/
def Writable : Json → Prop
  | .null => True
  | .bool _ => True
  | .number number => isSafeInteger number = true
  | .text _ => True
  | _ => False

theorem literal_ok_iff {value : Json} {location written : String} :
    literal value location = .ok written ↔
      Writable value ∧ written = literalText value := by
  cases value with
  | null => simp [literal, Writable, literalText, eq_comm]
  | bool value => simp [literal, Writable, literalText, eq_comm]
  | number number =>
      simp only [literal, Writable, literalText]
      split_ifs with safe
      · simp [safe, eq_comm]
      · simp [safe]
  | text text => simp [literal, Writable, literalText, eq_comm]
  | array items => simp [literal, Writable]
  | object fields => simp [literal, Writable]

/-! ## Rows -/

/-- The key of a row, as the `WHERE` of an `UPDATE` has it. -/
def keyTexts (source : Source) (row : Row) : List (String × String) :=
  source.key.map fun name => (name, literalText (row.field name))

/-- The text of a column in the `INSERT` of a row. -/
def inlined (source : Source) (row : Row) (column : Column) : String :=
  match column.value row with
  | .text text =>
      if isLong text then placeholder source.table column.name
      else textLiteral text
  | value => literalText value

/-- The statements that finish a column after the `INSERT`. -/
def finishing (source : Source) (row : Row) (index : Nat) (column : Column) :
    List Statement :=
  match column.value row with
  | .text text =>
      if isLong text then
        finishColumn source.table column.name index text (keyTexts source row)
      else []
  | _ => []

def rowScript (source : Source) (row : Row) (index : Nat) : List Statement :=
  .insert source.table (source.columns.map Column.name)
      (source.columns.map (inlined source row)) ::
    source.columns.flatMap (finishing source row index)

/-- The rows of a file. -/
def Snapshot.rows (snapshot : Snapshot) (table : Table) : List Row :=
  (snapshot.file table).getD []

def tableScript (snapshot : Snapshot) (source : Source) : List Statement :=
  (snapshot.rows source.table).zipIdx.flatMap fun (row, index) =>
    rowScript source row index

/-- A row on which nothing throws. -/
def Source.Accepts (source : Source) (row : Row) : Prop :=
  ∀ column ∈ source.columns, ∃ value,
    column.read row = .ok value ∧ Writable value

section

variable {source : Source} {row : Row} {index : Nat} {column : Column}

theorem keyOf_ok {matching : List (String × String)}
    (ran : keyOf source row = .ok matching) :
    matching = keyTexts source row := by
  apply mapM_ok_map _ ran
  intro name _ result made
  obtain ⟨value, isLiteral, rest⟩ := bind_ok_iff.mp made
  cases rest
  rw [(literal_ok_iff.mp isLiteral).2]

theorem columnStatements_ok {result : String × List Statement}
    (ran : columnStatements source index row column = .ok result) :
    result = (inlined source row column, finishing source row index column) ∧
      ∃ value, column.read row = .ok value ∧ Writable value := by
  obtain ⟨value, isRead, rest⟩ := bind_ok_iff.mp ran
  have isValue : column.value row = value := by
    simp only [Column.value, isRead]
  have plain (other : ∀ text, value ≠ .text text)
      (written : (literal value (columnPath source.table column.name) >>=
        fun text => pure (text, [])) = .ok result) :
      result = (literalText value, []) ∧ Writable value := by
    obtain ⟨text, isLiteral, together⟩ := bind_ok_iff.mp written
    cases together
    obtain ⟨writable, rfl⟩ := literal_ok_iff.mp isLiteral
    exact ⟨rfl, writable⟩
  unfold inlined finishing
  rw [isValue]
  cases value with
  | text text =>
      simp only [] at rest ⊢
      split_ifs at rest ⊢ with long
      · obtain ⟨matching, isKey, together⟩ := bind_ok_iff.mp rest
        cases together
        rw [keyOf_ok isKey]
        exact ⟨rfl, _, isRead, trivial⟩
      · cases rest
        exact ⟨rfl, _, isRead, trivial⟩
  | null =>
      obtain ⟨same, writable⟩ := plain nofun rest
      exact ⟨same, _, isRead, writable⟩
  | bool value =>
      obtain ⟨same, writable⟩ := plain nofun rest
      exact ⟨same, _, isRead, writable⟩
  | number number =>
      obtain ⟨same, writable⟩ := plain nofun rest
      exact ⟨same, _, isRead, writable⟩
  | array items =>
      obtain ⟨same, writable⟩ := plain nofun rest
      exact ⟨same, _, isRead, writable⟩
  | object fields =>
      obtain ⟨same, writable⟩ := plain nofun rest
      exact ⟨same, _, isRead, writable⟩

theorem rowStatements_ok {statements : List Statement}
    (ran : rowStatements source row index = .ok statements) :
    statements = rowScript source row index ∧ source.Accepts row := by
  obtain ⟨written, isWritten, rest⟩ := bind_ok_iff.mp ran
  cases rest
  have same : written = source.columns.map fun column =>
      (inlined source row column, finishing source row index column) :=
    mapM_ok_map (fun column _ result made => (columnStatements_ok made).1)
      isWritten
  constructor
  · rw [same, List.map_map, List.flatMap_map]
    rfl
  · intro column member
    obtain ⟨result, made⟩ := mapM_ok_mem isWritten member
    exact (columnStatements_ok made).2

end

section

variable {snapshot : Snapshot}

theorem tableStatements_ok {source : Source} {statements : List Statement}
    (ran : tableStatements snapshot source = .ok statements) :
    statements = tableScript snapshot source ∧
      snapshot.file source.table = some (snapshot.rows source.table) ∧
      ∀ row ∈ snapshot.rows source.table, source.Accepts row := by
  unfold tableStatements at ran
  cases found : snapshot.file source.table with
  | none =>
      rw [found] at ran
      cases ran
  | some rows =>
      rw [found] at ran
      have isRows : snapshot.rows source.table = rows := by
        rw [Snapshot.rows, found, Option.getD_some]
      obtain ⟨each, isEach, rest⟩ := bind_ok_iff.mp ran
      cases rest
      rw [tableScript, isRows]
      refine ⟨?_, rfl, ?_⟩
      · have same : each = rows.zipIdx.map fun (row, index) =>
            rowScript source row index :=
          mapM_ok_map (fun entry _ result made => (rowStatements_ok made).1)
            isEach
        rw [same, List.flatMap]
      · intro row member
        obtain ⟨index, inside⟩ := List.getElem?_of_mem member
        have inZip : (row, index) ∈ rows.zipIdx :=
          List.mk_mem_zipIdx_iff_getElem?.mpr inside
        obtain ⟨result, made⟩ := mapM_ok_mem isEach inZip
        exact (rowStatements_ok made).2

/-- The statements of an accepted snapshot. -/
theorem snapshotToSql_ok {output : Output}
    (ran : snapshotToSql snapshot = .ok output) :
    output.statements = header ++ TABLES.flatMap (tableScript snapshot) ++
        [.dropTable .loadPieces] ∧
      ∀ source ∈ TABLES,
        snapshot.file source.table = some (snapshot.rows source.table) ∧
        ∀ row ∈ snapshot.rows source.table, source.Accepts row := by
  unfold snapshotToSql at ran
  split at ran
  · obtain ⟨loads, isLoads, rest⟩ := bind_ok_iff.mp ran
    cases rest
    have same : loads = TABLES.map (tableScript snapshot) :=
      mapM_ok_map (fun source _ result made => (tableStatements_ok made).1)
        isLoads
    constructor
    · rw [same, List.flatMap]
    · intro source member
      obtain ⟨result, made⟩ := mapM_ok_mem isLoads member
      exact (tableStatements_ok made).2
  · cases ran

end

/-! ## What is accepted -/

/-- The columns of a key are read under their own names. -/
theorem key_plain {source : Source} (listed : source ∈ TABLES) {name : String}
    (inKey : name ∈ source.key) : .plain name ∈ source.columns := by
  simp only [TABLES, List.mem_cons, List.not_mem_nil, or_false] at listed
  rcases listed with rfl | rfl | rfl | rfl | rfl | rfl | rfl <;>
    simp only [agentsSource, agentMetadataSource, feedbackSource,
      feedbackResponsesSource, validationsSource, indexerDeadLetterSource,
      indexerStateSource, List.mem_cons, List.not_mem_nil, or_false] at inKey
  case inr.inl =>
    rcases inKey with rfl | rfl
    · exact List.mem_cons_self
    · exact List.mem_cons_of_mem _ List.mem_cons_self
  all_goals
    rw [inKey]
    exact List.mem_cons_self

section

variable {source : Source} {row : Row}

theorem keyOf_accepts (listed : source ∈ TABLES)
    (accepts : source.Accepts row) :
    ∃ matching, keyOf source row = .ok matching := by
  apply mapM_ok_exists
  intro name inKey
  obtain ⟨value, isRead, writable⟩ := accepts _ (key_plain listed inKey)
  cases isRead
  refine ⟨(name, literalText (row.field name)), ?_⟩
  rw [literal_ok_iff.mpr ⟨writable, rfl⟩]
  rfl

theorem columnStatements_accepts (listed : source ∈ TABLES)
    (accepts : source.Accepts row) (index : Nat) {column : Column}
    (inColumns : column ∈ source.columns) :
    ∃ result, columnStatements source index row column = .ok result := by
  obtain ⟨value, isRead, writable⟩ := accepts column inColumns
  obtain ⟨matching, isKey⟩ := keyOf_accepts listed accepts
  have written : literal value (columnPath source.table column.name) =
      .ok (literalText value) := literal_ok_iff.mpr ⟨writable, rfl⟩
  unfold columnStatements
  rw [isRead, ok_bind]
  cases value with
  | text text =>
      simp only []
      split_ifs with long
      · rw [isKey]
        exact ⟨_, rfl⟩
      · exact ⟨_, rfl⟩
  | null => exact ⟨_, rfl⟩
  | bool value => exact ⟨_, rfl⟩
  | number number =>
      simp only []
      rw [written]
      exact ⟨_, rfl⟩
  | array items => exact writable.elim
  | object fields => exact writable.elim

/-- A snapshot is accepted under the lock, with every file and nothing in the
rows on which a column throws. -/
theorem snapshotToSql_accepts {snapshot : Snapshot}
    (locked : snapshot.manifest.get "under_indexer_lock" =
      some (.bool true))
    (files : ∀ source ∈ TABLES, ∃ rows,
      snapshot.file source.table = some rows ∧
        ∀ row ∈ rows, source.Accepts row) :
    ∃ output, snapshotToSql snapshot = .ok output := by
  have tables : ∃ loads,
      TABLES.mapM (tableStatements snapshot) = .ok loads := by
    apply mapM_ok_exists
    intro source listed
    obtain ⟨rows, found, accepts⟩ := files source listed
    have each : ∃ statements, (rows.zipIdx.mapM fun (row, index) =>
        rowStatements source row index) = .ok statements := by
      apply mapM_ok_exists
      intro entry member
      obtain ⟨row, index⟩ := entry
      have inRows := List.mem_of_getElem?
        (List.mk_mem_zipIdx_iff_getElem?.mp member)
      have columns : ∃ written, source.columns.mapM
          (columnStatements source index row) = .ok written := by
        apply mapM_ok_exists
        intro column inColumns
        exact columnStatements_accepts listed (accepts row inRows) index
          inColumns
      obtain ⟨written, isWritten⟩ := columns
      simp only [rowStatements]
      rw [isWritten]
      exact ⟨_, rfl⟩
    obtain ⟨statements, isEach⟩ := each
    unfold tableStatements
    rw [found]
    simp only []
    rw [isEach]
    exact ⟨_, rfl⟩
  obtain ⟨loads, isLoads⟩ := tables
  unfold snapshotToSql
  rw [locked]
  simp only []
  rw [isLoads]
  exact ⟨_, rfl⟩

end

/-! ## One agent -/

/-- A row of an agent with no wallet, without what only later events set. -/
def agentRow (uri data services : String) : Row where
  fields :=
    [("id", .number "1"), ("owner", .text "GOWNER"), ("agent_uri", .text uri),
      ("agent_uri_data_text", .text data),
      ("created_at", .text "2026-04-12T13:10:59+00:00"),
      ("updated_at", .text "2026-04-12T13:10:59+00:00"),
      ("uri_resolve_attempts", .number "0"),
      ("resolve_uri_pending", .bool false), ("supported_trust", .array []),
      ("services_text", .text services), ("x402_enabled", .bool true),
      ("mpp_enabled", .bool false)]

section

variable {uri data services : String}

theorem agentRow_values (uri data services : String) :
    agentsSource.columns.map (fun column =>
        column.read (agentRow uri data services)) =
      ([.number "1", .text "GOWNER", .text uri, .text data, .null,
        .text "2026-04-12T13:10:59+00:00", .text "2026-04-12T13:10:59+00:00",
        .null, .null, .number "0", .bool false, .null, .text "[]",
        .text services, .bool true, .bool false, .null, .null]).map .ok := rfl

theorem agentRow_value (uri data services : String) :
    agentsSource.columns.map (fun column =>
        column.value (agentRow uri data services)) =
      [.number "1", .text "GOWNER", .text uri, .text data, .null,
        .text "2026-04-12T13:10:59+00:00", .text "2026-04-12T13:10:59+00:00",
        .null, .null, .number "0", .bool false, .null, .text "[]",
        .text services, .bool true, .bool false, .null, .null] := rfl

theorem agentRow_short (shortUri : uri.length < 2 ^ 53)
    (shortData : data.length < 2 ^ 53)
    (shortServices : services.length < 2 ^ 53) :
    ∀ column ∈ agentsSource.columns, ∀ text,
      column.read (agentRow uri data services) = .ok (.text text) →
        text.length < 2 ^ 53 := by
  intro column inColumns text isText
  have inMap : column.read (agentRow uri data services) ∈
      agentsSource.columns.map fun column =>
        column.read (agentRow uri data services) := List.mem_map_of_mem inColumns
  rw [agentRow_values, isText] at inMap
  simp only [List.map_cons, List.map_nil, List.mem_cons, Except.ok.injEq,
    Json.text.injEq, reduceCtorEq, false_or, or_false, List.not_mem_nil] at inMap
  rcases inMap with rfl | rfl | rfl | rfl | rfl | rfl | rfl 
  · decide
  · exact shortUri
  · exact shortData
  · decide
  · decide
  · decide
  · exact shortServices

theorem eq_agentsSource {source : Source} (listed : source ∈ TABLES)
    (isAgents : source.table = .agents) : source = agentsSource := by
  simp only [TABLES, List.mem_cons, List.not_mem_nil, or_false] at listed
  rcases listed with rfl | rfl | rfl | rfl | rfl | rfl | rfl
  · rfl
  all_goals cases isAgents

/-- A snapshot of one agent and nothing else. -/
def oneAgent (uri data services : String) (shortUri : uri.length < 2 ^ 53)
    (shortData : data.length < 2 ^ 53)
    (shortServices : services.length < 2 ^ 53) : Snapshot where
  manifest := .object
    [("taken_at", .text "2026-11-03T23:19:47Z"),
      ("under_indexer_lock", .bool true)]
  file := fun table => some
    (if table = .agents then [agentRow uri data services] else [])
  rows_lt := by
    intro table rows found
    cases found
    split_ifs
    · exact (by decide : 1 < 2 ^ 32)
    · exact (by decide : 0 < 2 ^ 32)
  text_lt := by
    intro source listed rows found row inRows
    cases found
    split_ifs at inRows with isAgents
    · rw [List.mem_singleton.mp inRows]
      rw [eq_agentsSource listed isAgents]
      exact agentRow_short shortUri shortData shortServices
    · cases inRows

theorem agentRow_accepts (uri data services : String) :
    agentsSource.Accepts (agentRow uri data services) := by
  intro column inColumns
  have inMap : column.read (agentRow uri data services) ∈
      agentsSource.columns.map fun column =>
        column.read (agentRow uri data services) :=
    List.mem_map_of_mem inColumns
  rw [agentRow_values] at inMap
  obtain ⟨value, inValues, isRead⟩ := List.mem_map.mp inMap
  refine ⟨value, isRead.symm, ?_⟩
  simp only [List.mem_cons, List.not_mem_nil, or_false] at inValues
  rcases inValues with rfl | rfl | rfl | rfl | rfl | rfl | rfl | rfl | rfl |
    rfl | rfl | rfl | rfl | rfl | rfl | rfl | rfl | rfl
  case inl => exact (by decide : isSafeInteger "1" = true)
  case inr.inr.inr.inr.inr.inr.inr.inr.inr.inl =>
    exact (by decide : isSafeInteger "0" = true)
  all_goals trivial

theorem oneAgent_rows (source : Source) (shortUri : uri.length < 2 ^ 53)
    (shortData : data.length < 2 ^ 53)
    (shortServices : services.length < 2 ^ 53) :
    (oneAgent uri data services shortUri shortData shortServices).rows
        source.table =
      if source.table = .agents then [agentRow uri data services] else [] :=
  rfl

theorem oneAgent_accepts (shortUri : uri.length < 2 ^ 53)
    (shortData : data.length < 2 ^ 53)
    (shortServices : services.length < 2 ^ 53) :
    ∃ output, snapshotToSql
      (oneAgent uri data services shortUri shortData shortServices) =
        .ok output := by
  apply snapshotToSql_accepts rfl
  intro source listed
  refine ⟨_, rfl, ?_⟩
  intro row inRows
  split_ifs at inRows with isAgents
  · rw [List.mem_singleton.mp inRows]
    rw [eq_agentsSource listed isAgents]
    exact agentRow_accepts uri data services
  · cases inRows

end

end Stellar8004.D1
