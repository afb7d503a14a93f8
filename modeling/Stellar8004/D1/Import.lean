import Stellar8004.D1.Loading
import Stellar8004.D1.ScriptText

/-!
# The import of a script

The rows of a table, each with its long texts, then the tables one after
another, and what stands before and behind them.
-/

namespace Stellar8004.D1

open Indexer (Json)
open Relations (Schema)

section

variable {sqlite : Sqlite} {snapshot : Snapshot} {start db : Database}
  {contents : Table → List Record} {used : String → Prop}

theorem Stage.mono (stage : Stage start contents used db)
    {others : String → Prop} (weaker : ∀ key, used key → others key) :
    Stage start contents others db := by
  constructor
  · exact stage.tables
  · exact stage.locks
  · exact stage.present
  · exact stage.piecesPresent
  · exact stage.search
  · intro piece inPieces
    obtain ⟨key, isKey, isUsed⟩ := stage.keyed piece inPieces
    exact ⟨key, isKey, weaker key isUsed⟩

/-- The pieces of one text are there. -/
theorem Stage.pieces_added (stage : Stage start contents used db)
    (key : String) (parts : List String) :
    Stage start contents (fun other => used other ∨ other = key)
      { db with
        tables := Function.update db.tables .loadPieces
          (db.tables .loadPieces ++ pieceRows sqlite key parts 0) } := by
  constructor
  · intro table isListed
    have different : table ≠ .loadPieces := by
      rintro rfl
      exact pieces_unlisted isListed
    exact (Function.update_of_ne different _ _).trans
      (stage.tables table isListed)
  · exact stage.locks
  · exact stage.present
  · exact stage.piecesPresent
  · exact stage.search
  · intro piece inPieces
    dsimp only at inPieces
    rw [Function.update_self] at inPieces
    rcases List.mem_append.mp inPieces with old | isNew
    · obtain ⟨other, isKey, isUsed⟩ := stage.keyed piece old
      exact ⟨other, isKey, .inl isUsed⟩
    · obtain ⟨⟨part, index⟩, -, rfl⟩ := List.mem_map.mp isNew
      exact ⟨key, rfl, .inr rfl⟩

/-! ## A long text -/

variable {source : Source} {row : Row} {before after : List Record}

theorem readMatches (fits : snapshot.Fits sqlite) (listed : source ∈ TABLES)
    (inRows : row ∈ snapshot.rows source.table)
    (accepts : source.Accepts row) :
    (keyTexts source row).mapM readMatch =
      .ok (source.key.map fun name => (name, source.record row name)) := by
  rw [mapM_ok_iff, keyTexts, List.map_map, List.map_map]
  apply List.map_congr_left
  intro name inKey
  have inColumns := key_plain listed inKey
  obtain ⟨value, isRead, writable⟩ := accepts _ inColumns
  cases isRead
  have read := readLiteral_literalText writable
    (fits.clean source listed row inRows _ inColumns)
  rw [Function.comp_apply, Function.comp_apply, readMatch, readValue, read,
    ok_bind, record_key listed inKey]
  rfl

theorem transferred_integer {source : Source} (listed : source ∈ TABLES)
    {column : Column} (inColumns : column ∈ source.columns)
    (named : column.name = "transferred_ledger") :
    affinityOf source.table column.name = .integer := by
  have all : (TABLES.all fun source => source.columns.all fun column =>
      decide (column.name = "transferred_ledger" →
        affinityOf source.table column.name = .integer)) = true := by
    decide +kernel
  have each := List.all_eq_true.mp all source listed
  exact of_decide_eq_true (List.all_eq_true.mp each column inColumns) named

theorem pendingOf_cons_long {column : Column} {rest : List Column}
    (long : longIn row column = true) :
    pendingOf row (column :: rest) = column.name :: pendingOf row rest := by
  rw [pendingOf, List.filter_cons_of_pos long, List.map_cons]
  rfl

theorem pendingOf_cons_short {column : Column} {rest : List Column}
    (short : longIn row column = false) :
    pendingOf row (column :: rest) = pendingOf row rest := by
  rw [pendingOf, List.filter_cons_of_neg (by rw [short]; exact nofun)]
  rfl

/-- A long text takes the place of its placeholder. -/
theorem update_draftRow (listed : source ∈ TABLES) {column : Column}
    (inColumns : column ∈ source.columns) {rest : List Column}
    (distinct : ((column :: rest).map Column.name).Nodup)
    (long : longIn row column = true) :
    Function.update (draftRow source row (pendingOf row (column :: rest)))
        column.name (cell (column.value row)) =
      draftRow source row (pendingOf row rest) := by
  have absent : column.name ∉ pendingOf row rest := by
    intro isPending
    obtain ⟨other, inRest, -, named⟩ := mem_pendingOf.mp isPending
    rw [List.map_cons, List.nodup_cons] at distinct
    exact distinct.1 (named ▸ List.mem_map_of_mem inRest)
  funext name
  rw [pendingOf_cons_long long]
  by_cases same : name = column.name
  · cases same
    rw [Function.update_self, draftRow, if_neg absent,
      record_column listed inColumns]
  · rw [Function.update_of_ne same]
    unfold draftRow
    simp only [List.mem_cons, same, false_or]

theorem pieces_ne_nil {text : String} (long : isLong text = true) :
    pieces text ≠ [] := by
  intro empty
  have noText := join_pieces text
  rw [empty] at noText
  rw [← noText] at long
  exact absurd long (by decide)

/-- The pieces of a long text are loaded under a fresh key. -/
theorem Stage.load_pieces (stage : Stage start contents used db)
    {key : String} (cleanKey : NoNul key) (fresh : ¬ used key)
    {text : String} (clean : NoNul text) (long : isLong text = true) :
    ∃ middle,
      Database.runAll sqlite ((pieces text).zipIdx.map fun (piece, i) =>
        .insertPiece (textLiteral key) i (textLiteral piece)) db =
          .ok middle ∧
      Stage start contents (fun other => used other ∨ other = key) middle ∧
      middle.concat (.text key) = .text text := by
  have apart : ∀ piece ∈ db.tables .loadPieces, piece "k" ≠ .text key := by
    intro piece inPieces isKey
    obtain ⟨other, hasKey, isUsed⟩ := stage.keyed piece inPieces
    rw [hasKey] at isKey
    exact fresh (Value.text.inj isKey ▸ isUsed)
  have isTable : Function.update db.tables .loadPieces
      (db.tables .loadPieces ++ pieceRows sqlite key (pieces text) 0)
        .loadPieces =
      db.tables .loadPieces ++ pieceRows sqlite key (pieces text) 0 :=
    Function.update_self _ _ _
  have added := @Stage.pieces_added sqlite _ _ _ _ stage key (pieces text)
  refine ⟨_, ?_, added, ?_⟩
  · apply runAll_pieces stage.piecesPresent cleanKey
    · exact fun piece isPiece => clean.piece isPiece
    · exact fun piece inPieces isKey => absurd isKey (apart piece inPieces)
  · rw [concat_pieces apart isTable (pieces_ne_nil long), join_pieces]

/-- The statements of one long text complete its column. -/
theorem Stage.finish (stage : Stage start contents used db)
    (fits : snapshot.Fits sqlite) (listed : source ∈ TABLES)
    (inRows : row ∈ snapshot.rows source.table)
    (accepts : source.Accepts row)
    (ready : Ready snapshot contents source.table)
    (isLoaded : snapshot.loaded source.table =
      before ++ source.record row :: after)
    {column : Column} {rest : List Column}
    (subset : ∀ other ∈ column :: rest, other ∈ source.columns)
    (distinct : ((column :: rest).map Column.name).Nodup)
    (stands : contents source.table =
      before ++ [draftRow source row (pendingOf row (column :: rest))])
    {text : String} (isText : column.value row = .text text)
    (long : isLong text = true) {index : Nat}
    (fresh : ¬ used (pieceKey source.table column.name index)) :
    ∃ next,
      Database.runAll sqlite (finishColumn source.table column.name index text
        (keyTexts source row)) db = .ok next ∧
      Stage start
        (Function.update contents source.table
          (before ++ [draftRow source row (pendingOf row rest)]))
        (fun key => used key ∨
          key = pieceKey source.table column.name index) next := by
  have inColumns := subset column List.mem_cons_self
  have isLongIn : longIn row column = true :=
    longIn_iff.mpr ⟨text, isText, long⟩
  have cleanKey := noNul_pieceKey source.table
    (plain_column listed inColumns) index
  obtain ⟨middle, ran, inserted, joined⟩ := @Stage.load_pieces sqlite _ _ _ _
    stage _ cleanKey fresh _ (fits.clean source listed row inRows column
      inColumns text isText) long
  have isNext : Function.update
        (draftRow source row (pendingOf row (column :: rest))) column.name
        (.text text) = draftRow source row (pendingOf row rest) := by
    have same := update_draftRow listed inColumns distinct isLongIn
    rwa [isText] at same
  have isTextColumn := affinity_long fits listed inRows inColumns isLongIn
  have noTransfer : column.name ≠ "transferred_ledger" := by
    intro named
    rw [transferred_integer listed inColumns named] at isTextColumn
    cases isTextColumn
  have isDraft := draft_pending fits listed inRows subset
  have isLater : (schema sqlite).Draft source.table
      (Function.update (draftRow source row (pendingOf row (column :: rest)))
        column.name (.text text)) (source.record row) := by
    rw [isNext]
    exact draft_pending fits listed inRows fun other member =>
      subset other (List.mem_cons_of_mem _ member)
  have stored : sqlite.store (affinityOf source.table column.name)
      (.text text) = .text text := by
    rw [isTextColumn]
    rfl
  obtain ⟨next, isUpdate, later⟩ := inserted.update fits listed inRows ready
    isLoaded stands isDraft isLater stored noTransfer
  rw [isNext] at later
  refine ⟨next, ?_, later⟩
  have readKey : readValue
      (textLiteral (pieceKey source.table column.name index)) =
        .ok (.text (pieceKey source.table column.name index)) := by
    rw [readValue, readLiteral_textLiteral cleanKey]
  apply runAll_append ran
  refine runAll_cons ?_ rfl
  rw [Database.run, readKey, ok_bind, readMatches fits listed inRows accepts,
    ok_bind, if_neg, joined]
  · exact isUpdate
  · simp [inserted.present _ (mem_listedTables listed),
      inserted.piecesPresent]

/-! ## A row -/

theorem finishing_long {index : Nat} {column : Column} {text : String}
    (isText : column.value row = .text text) (long : isLong text = true) :
    finishing source row index column =
      finishColumn source.table column.name index text
        (keyTexts source row) := by
  simp only [finishing, isText, long, if_true]

theorem finishing_short {index : Nat} {column : Column}
    (short : longIn row column = false) :
    finishing source row index column = [] := by
  unfold longIn at short
  unfold finishing
  split
  · rename_i text isText
    rw [isText] at short
    simp only [] at short
    rw [short, if_neg Bool.false_ne_true]
  · rfl

/-- The columns of a row are completed one after another. -/
theorem Stage.finishAll (stage : Stage start contents used db)
    (fits : snapshot.Fits sqlite) (listed : source ∈ TABLES)
    (inRows : row ∈ snapshot.rows source.table)
    (accepts : source.Accepts row)
    (ready : Ready snapshot contents source.table)
    (isLoaded : snapshot.loaded source.table =
      before ++ source.record row :: after)
    {columns : List Column}
    (subset : ∀ column ∈ columns, column ∈ source.columns)
    (distinct : (columns.map Column.name).Nodup)
    (stands : contents source.table =
      before ++ [draftRow source row (pendingOf row columns)])
    {index : Nat}
    (fresh : ∀ column ∈ columns,
      ¬ used (pieceKey source.table column.name index)) :
    ∃ next,
      Database.runAll sqlite (columns.flatMap (finishing source row index)) db =
        .ok next ∧
      Stage start
        (Function.update contents source.table
          (before ++ [source.record row]))
        (fun key => used key ∨ ∃ column ∈ columns,
          key = pieceKey source.table column.name index) next := by
  induction columns generalizing contents used db with
  | nil =>
      have isWhole : draftRow source row (pendingOf row []) =
          source.record row := rfl
      rw [isWhole] at stands
      rw [← stands, Function.update_eq_self]
      exact ⟨db, rfl, stage.mono fun key isUsed => .inl isUsed⟩
  | cons column columns induction =>
      have inColumns := subset column List.mem_cons_self
      have later : ∀ other ∈ columns, other ∈ source.columns :=
        fun other member => subset other (List.mem_cons_of_mem _ member)
      have named := distinct
      rw [List.map_cons, List.nodup_cons] at named
      rw [List.flatMap_cons]
      by_cases long : longIn row column = true
      · obtain ⟨text, isText, isLong⟩ := longIn_iff.mp long
        obtain ⟨middle, ran, completed⟩ := stage.finish fits listed inRows
          accepts ready isLoaded subset distinct stands isText isLong
          (fresh column List.mem_cons_self)
        have stillFresh : ∀ other ∈ columns,
            ¬ (used (pieceKey source.table other.name index) ∨
              pieceKey source.table other.name index =
                pieceKey source.table column.name index) := by
          intro other member isUsed
          rcases isUsed with old | same
          · exact fresh other (List.mem_cons_of_mem _ member) old
          · have sameName := (pieceKey_inj
              (plain_column listed (later other member))
              (plain_column listed inColumns) same).2.1
            exact named.1 (sameName ▸ List.mem_map_of_mem member)
        obtain ⟨next, ranLater, finished⟩ := induction completed
          (ready.update _) later named.2 (Function.update_self _ _ _)
          stillFresh
        rw [Function.update_idem] at finished
        refine ⟨next, ?_, finished.mono ?_⟩
        · rw [finishing_long isText isLong]
          exact runAll_append ran ranLater
        · intro key isUsed
          rcases isUsed with (old | same) | found
          · exact .inl old
          · exact .inr ⟨column, List.mem_cons_self, same⟩
          · obtain ⟨other, member, same⟩ := found
            exact .inr ⟨other, List.mem_cons_of_mem _ member, same⟩
      · have short := Bool.eq_false_iff.mpr long
        rw [pendingOf_cons_short short] at stands
        obtain ⟨next, ranLater, finished⟩ := induction stage ready later
          named.2 stands fun other member =>
            fresh other (List.mem_cons_of_mem _ member)
        refine ⟨next, ?_, finished.mono ?_⟩
        · rw [finishing_short short]
          exact ranLater
        · intro key isUsed
          rcases isUsed with old | found
          · exact .inl old
          · obtain ⟨other, member, same⟩ := found
            exact .inr ⟨other, List.mem_cons_of_mem _ member, same⟩

theorem readInlined (fits : snapshot.Fits sqlite) (listed : source ∈ TABLES)
    (inRows : row ∈ snapshot.rows source.table)
    (accepts : source.Accepts row) :
    (source.columns.map (inlined source row)).mapM readValue =
      .ok (source.columns.map fun column =>
        if longIn row column then placeholderValue source.table column.name
        else cell (column.value row)) := by
  rw [mapM_ok_iff, List.map_map, List.map_map]
  apply List.map_congr_left
  intro column inColumns
  obtain ⟨value, isRead, writable⟩ := accepts column inColumns
  have isValue : column.value row = value := by
    simp only [Column.value, isRead]
  rw [← isValue] at writable
  rw [Function.comp_apply, Function.comp_apply, readValue,
    readLiteral_inlined fits listed inRows inColumns writable]

/-- The statements of a row append the row. -/
theorem Stage.writeRow (stage : Stage start contents used db)
    (fits : snapshot.Fits sqlite) (listed : source ∈ TABLES)
    (inRows : row ∈ snapshot.rows source.table)
    (accepts : source.Accepts row)
    (ready : Ready snapshot contents source.table)
    (isLoaded : snapshot.loaded source.table =
      before ++ source.record row :: after)
    (stands : contents source.table = before) {index : Nat}
    (fresh : ∀ column ∈ source.columns,
      ¬ used (pieceKey source.table column.name index)) :
    ∃ next,
      Database.runAll sqlite (rowScript source row index) db = .ok next ∧
      Stage start
        (Function.update contents source.table
          (before ++ [source.record row]))
        (fun key => used key ∨ ∃ column ∈ source.columns,
          key = pieceKey source.table column.name index) next := by
  have isDraft := draft_pending fits listed inRows
    fun column (member : column ∈ source.columns) => member
  obtain ⟨middle, isInsert, inserted⟩ :=
    stage.insertRow fits listed ready isLoaded stands isDraft
  have ran : db.run sqlite (.insert source.table
      (source.columns.map Column.name)
      (source.columns.map (inlined source row))) = .ok middle := by
    rw [Database.run, readInlined fits listed inRows accepts, ok_bind,
      if_pos ⟨names_match listed, by rw [List.length_map, List.length_map]⟩,
      insertedRow_draft fits listed inRows]
    exact isInsert
  obtain ⟨next, ranLater, finished⟩ := inserted.finishAll fits listed inRows
    accepts (ready.update _) isLoaded (fun column member => member)
    (names_nodup listed) (Function.update_self _ _ _) fresh
  rw [Function.update_idem] at finished
  exact ⟨next, runAll_cons ran ranLater, finished⟩

/-! ## A table -/

/-- The statements of a table leave its rows. -/
theorem Stage.writeTable (stage : Stage start contents used db)
    (fits : snapshot.Fits sqlite) (listed : source ∈ TABLES)
    (accepts : ∀ row ∈ snapshot.rows source.table, source.Accepts row)
    (ready : Ready snapshot contents source.table) {done rest : List Row}
    (isRows : snapshot.rows source.table = done ++ rest)
    (stands : contents source.table = done.map source.record)
    (fresh : ∀ column ∈ source.columns, ∀ index, done.length ≤ index →
      ¬ used (pieceKey source.table column.name index)) :
    ∃ next,
      Database.runAll sqlite
          ((rest.zipIdx done.length).flatMap fun (row, index) =>
            rowScript source row index) db = .ok next ∧
      Stage start
        (Function.update contents source.table
          (snapshot.loaded source.table))
        (fun key => used key ∨ ∃ column ∈ source.columns, ∃ index,
          key = pieceKey source.table column.name index) next := by
  induction rest generalizing done contents used db with
  | nil =>
      have isLoaded : snapshot.loaded source.table =
          done.map source.record := by
        rw [loaded_source snapshot listed, isRows, List.append_nil]
      rw [isLoaded, ← stands, Function.update_eq_self]
      exact ⟨db, rfl, stage.mono fun key isUsed => .inl isUsed⟩
  | cons row rest induction =>
      have inRows : row ∈ snapshot.rows source.table := by
        rw [isRows]
        exact List.mem_append_right _ List.mem_cons_self
      have isLoaded : snapshot.loaded source.table =
          done.map source.record ++
            source.record row :: rest.map source.record := by
        rw [loaded_source snapshot listed, isRows, List.map_append,
          List.map_cons]
      obtain ⟨middle, ran, appended⟩ := stage.writeRow fits listed inRows
        (accepts row inRows) ready isLoaded stands fun column inColumns =>
          fresh column inColumns done.length (Nat.le_refl _)
      have isSplit : snapshot.rows source.table = (done ++ [row]) ++ rest := by
        rw [isRows, List.append_assoc, List.singleton_append]
      have longer : (done ++ [row]).length = done.length + 1 :=
        List.length_append
      have stillFresh : ∀ column ∈ source.columns, ∀ index,
          (done ++ [row]).length ≤ index →
            ¬ (used (pieceKey source.table column.name index) ∨
              ∃ other ∈ source.columns,
                pieceKey source.table column.name index =
                  pieceKey source.table other.name done.length) := by
        intro column inColumns index beyond isUsed
        rw [longer] at beyond
        rcases isUsed with old | found
        · exact fresh column inColumns index (by omega) old
        · obtain ⟨other, inOthers, same⟩ := found
          have sameIndex := (pieceKey_inj (plain_column listed inColumns)
            (plain_column listed inOthers) same).2.2
          omega
      have stoodLater : Function.update contents source.table
          (done.map source.record ++ [source.record row]) source.table =
            (done ++ [row]).map source.record := by
        rw [Function.update_self, List.map_append]
        rfl
      obtain ⟨next, ranLater, finished⟩ := induction appended
        (ready.update _) isSplit stoodLater stillFresh
      rw [Function.update_idem] at finished
      refine ⟨next, ?_, finished.mono ?_⟩
      · rw [List.zipIdx_cons, List.flatMap_cons]
        rw [longer] at ranLater
        exact runAll_append ran ranLater
      · intro key isUsed
        rcases isUsed with (old | found) | found
        · exact .inl old
        · obtain ⟨column, inColumns, same⟩ := found
          exact .inr ⟨column, inColumns, done.length, same⟩
        · exact .inr found

/-! ## The tables -/

/-- Some tables can be loaded one after another once others are: each after
its parents and before its children. -/
def inOrder : List Table → List Table → Bool
  | _, [] => true
  | done, table :: rest =>
      ((foreignKeys table).all fun reference =>
          decide (reference.parent ∈ done)) &&
        (allTables.all fun child => (foreignKeys child).all fun reference =>
          decide (reference.parent = table → child ∈ rest)) &&
        decide (table ∉ done ∧ table ∉ rest) &&
        inOrder (table :: done) rest

theorem inOrder_listed : inOrder [] listedTables = true := by decide

theorem mem_allTables (table : Table) : table ∈ allTables := by
  cases table <;> decide

section

variable {done rest : List Table} {table : Table}
  (order : inOrder done (table :: rest) = true)

include order

theorem inOrder_parents {reference : Relations.Reference Table String}
    (isReference : reference ∈ foreignKeys table) :
    reference.parent ∈ done := by
  simp only [inOrder, Bool.and_eq_true] at order
  exact of_decide_eq_true
    (List.all_eq_true.mp order.1.1.1 reference isReference)

theorem inOrder_children {child : Table}
    {reference : Relations.Reference Table String}
    (isReference : reference ∈ foreignKeys child)
    (toTable : reference.parent = table) : child ∈ rest := by
  simp only [inOrder, Bool.and_eq_true] at order
  have all := List.all_eq_true.mp order.1.1.2 child (mem_allTables child)
  exact of_decide_eq_true (List.all_eq_true.mp all reference isReference)
    toTable

theorem inOrder_new : table ∉ done ∧ table ∉ rest := by
  simp only [inOrder, Bool.and_eq_true] at order
  exact of_decide_eq_true order.1.2

theorem inOrder_rest : inOrder (table :: done) rest = true := by
  simp only [inOrder, Bool.and_eq_true] at order
  exact order.2

theorem Ready.of_inOrder (listedDone : ∀ other ∈ done, other ∈ listedTables)
    (listedRest : ∀ other ∈ rest, other ∈ listedTables)
    (loaded : ∀ other ∈ done, contents other = snapshot.loaded other)
    (empty : ∀ other ∈ rest, contents other = []) :
    Ready snapshot contents table := by
  obtain ⟨notDone, notRest⟩ := inOrder_new order
  constructor
  · intro reference isReference
    have isDone := inOrder_parents order isReference
    refine ⟨?_, listedDone _ isDone, loaded _ isDone⟩
    intro same
    exact notDone (same ▸ isDone)
  · intro child reference isReference toTable
    have isRest := inOrder_children order isReference toTable
    refine ⟨?_, listedRest child isRest, empty child isRest⟩
    rintro rfl
    exact notRest isRest

end

/-- How far the tables are written: those done hold the rows of the snapshot,
the rest nothing, and the keys used are of columns of those done. -/
structure Written (snapshot : Snapshot) (done rest : List Table)
    (contents : Table → List Record) (used : String → Prop) : Prop where
  listed : ∀ table ∈ done, table ∈ listedTables
  loaded : ∀ table ∈ done, contents table = snapshot.loaded table
  empty : ∀ table ∈ rest, contents table = []
  keys : ∀ key, used key → ∃ source ∈ TABLES, source.table ∈ done ∧
    ∃ column ∈ source.columns, ∃ index,
      key = pieceKey source.table column.name index

theorem Written.fresh {done rest : List Table}
    (written : Written snapshot done rest contents used)
    (isSource : source ∈ TABLES) (notDone : source.table ∉ done)
    {column : Column} (inColumns : column ∈ source.columns) (index : Nat) :
    ¬ used (pieceKey source.table column.name index) := by
  intro wasUsed
  obtain ⟨other, isOther, isDone, otherColumn, inOthers, otherIndex, same⟩ :=
    written.keys _ wasUsed
  have sameTable := (pieceKey_inj (plain_column isSource inColumns)
    (plain_column isOther inOthers) same).1
  exact notDone (sameTable ▸ isDone)

/-- One more table holds its rows. -/
theorem Written.next {done rest : List Table}
    (written : Written snapshot done (source.table :: rest) contents used)
    (isSource : source ∈ TABLES) (notRest : source.table ∉ rest) :
    Written snapshot (source.table :: done) rest
      (Function.update contents source.table (snapshot.loaded source.table))
      (fun key => used key ∨ ∃ column ∈ source.columns, ∃ index,
        key = pieceKey source.table column.name index) := by
  constructor
  · intro table isDone
    rcases List.mem_cons.mp isDone with rfl | isDone
    · exact mem_listedTables isSource
    · exact written.listed table isDone
  · intro table isDone
    by_cases same : table = source.table
    · rw [same, Function.update_self]
    · rw [Function.update_of_ne same]
      exact written.loaded table ((List.mem_cons.mp isDone).resolve_left same)
  · intro table isRest
    have different : table ≠ source.table := by
      rintro rfl
      exact notRest isRest
    rw [Function.update_of_ne different]
    exact written.empty table (List.mem_cons_of_mem _ isRest)
  · intro key wasUsed
    rcases wasUsed with old | isNew
    · obtain ⟨other, isOther, isDone, found⟩ := written.keys key old
      exact ⟨other, isOther, List.mem_cons_of_mem _ isDone, found⟩
    · exact ⟨source, isSource, List.mem_cons_self, isNew⟩

/-- The statements of the tables leave the rows of the snapshot. -/
theorem Stage.writeTables (stage : Stage start contents used db)
    (fits : snapshot.Fits sqlite)
    (accepts : ∀ source ∈ TABLES, ∀ row ∈ snapshot.rows source.table,
      source.Accepts row)
    {done : List Table} {sources : List Source}
    (listed : ∀ source ∈ sources, source ∈ TABLES)
    (order : inOrder done (sources.map Source.table) = true)
    (written : Written snapshot done (sources.map Source.table) contents
      used) :
    ∃ next,
      Database.runAll sqlite (sources.flatMap (tableScript snapshot)) db =
        .ok next ∧
      (∀ table ∈ done, next.tables table = snapshot.loaded table) ∧
      (∀ source ∈ sources,
        next.tables source.table = snapshot.loaded source.table) ∧
      next.tables .indexerLocks = start.tables .indexerLocks ∧
      next.present .loadPieces = true := by
  induction sources generalizing done contents used db with
  | nil =>
      refine ⟨db, rfl, ?_, nofun, stage.locks, stage.piecesPresent⟩
      intro table isDone
      rw [stage.tables table (written.listed table isDone),
        written.loaded table isDone]
  | cons source sources induction =>
      have isSource := listed source List.mem_cons_self
      have laterListed : ∀ other ∈ sources, other ∈ TABLES :=
        fun other member => listed other (List.mem_cons_of_mem _ member)
      obtain ⟨notDone, notRest⟩ := inOrder_new order
      have ready : Ready snapshot contents source.table := by
        apply Ready.of_inOrder order written.listed
        · intro other isRest
          obtain ⟨later, member, rfl⟩ := List.mem_map.mp isRest
          exact mem_listedTables (laterListed later member)
        · exact written.loaded
        · exact fun other isRest =>
            written.empty other (List.mem_cons_of_mem _ isRest)
      obtain ⟨middle, ran, filled⟩ := stage.writeTable fits isSource
        (accepts source isSource) ready (List.nil_append _).symm
        (written.empty _ List.mem_cons_self)
        fun column inColumns index _ =>
          written.fresh isSource notDone inColumns index
      obtain ⟨next, ranLater, doneLoaded, restLoaded, locks, present⟩ :=
        induction filled laterListed (inOrder_rest order)
          (written.next isSource notRest)
      refine ⟨next, ?_, ?_, ?_, locks, present⟩
      · rw [List.flatMap_cons]
        exact runAll_append ran ranLater
      · intro table isDone
        exact doneLoaded table (List.mem_cons_of_mem _ isDone)
      · intro other member
        rcases List.mem_cons.mp member with rfl | later
        · exact doneLoaded _ List.mem_cons_self
        · exact restLoaded other later

end

/-! ## Before the rows -/

/-- A database of the schema, whatever its tables hold: they are there, the
script's own guard is not, and the search index is of agents.  Pieces of an
earlier import may be there. -/
structure Database.Standing (db : Database) : Prop where
  present : ∀ table ∈ listedTables, db.present table = true
  noGuard : db.present .copyGuard = false
  indexed : ∀ entry ∈ db.search, ∃ agent ∈ db.tables .agents,
    agent "id" = entry.rowid

section

variable {sqlite : Sqlite} {db : Database}

/-- The guard holds the fence as 0 or 1. -/
def guardRow (sqlite : Sqlite) (db : Database) : Record :=
  insertedRow sqlite .copyGuard ["fence_present"]
    [.integer (if db.Fenced then 1 else 0)]

theorem guard_violation (tables : Table → List Record)
    (others : List Record) :
    (schema sqlite).violation? tables .copyGuard others (guardRow sqlite db) =
      if db.Fenced then none else some .check := by
  by_cases fenced : db.Fenced
  · rw [if_pos fenced]
    apply Relations.Schema.violation?_eq_none
    · intro name inColumns _
      rw [List.mem_singleton.mp inColumns]
      exact nofun
    · intro name inColumns
      rw [List.mem_singleton.mp inColumns]
      have isOne : guardRow sqlite db "fence_present" = .integer 1 := by
        change Value.integer (if db.Fenced then 1 else 0) = _
        rw [if_pos fenced]
      rw [isOne]
      rfl
    · intro key isKey
      cases isKey
    · intro reference isReference
      cases isReference
  · rw [if_neg fenced]
    have isZero : guardRow sqlite db "fence_present" = .integer 0 := by
      change Value.integer (if db.Fenced then 1 else 0) = _
      rw [if_neg fenced]
    unfold Relations.Schema.violation?
    rw [if_neg, if_pos]
    · refine ⟨"fence_present", List.mem_cons_self, ?_⟩
      rw [isZero]
      rfl
    · intro violated
      obtain ⟨name, inColumns, -, isNull⟩ := violated
      rw [List.mem_singleton.mp inColumns, isZero] at isNull
      cases isNull

theorem run_createCopyGuard (standing : db.Standing) :
    db.run sqlite .createCopyGuard = .ok { db with
      tables := Function.update db.tables .copyGuard []
      present := Function.update db.present .copyGuard true } := by
  rw [Database.run, Database.create, if_neg]
  simp [standing.noGuard]

theorem run_insertCopyGuard (present : db.present .copyGuard = true) :
    db.run sqlite .insertCopyGuard =
      if db.Fenced then .ok { db with
        tables := Function.update db.tables .copyGuard
          (db.tables .copyGuard ++ [guardRow sqlite db]) }
      else .error (.constraint .check) := by
  have inserted : (schema sqlite).insert db.tables .copyGuard
      (guardRow sqlite db) =
        if db.Fenced then .ok (Function.update db.tables .copyGuard
          (db.tables .copyGuard ++ [guardRow sqlite db]))
        else .error .check := by
    rw [Schema.insert, guard_violation]
    split_ifs <;> rfl
  change db.insertRow sqlite .copyGuard (guardRow sqlite db) = _
  rw [Database.insertRow, if_neg (by simp [present]), inserted]
  by_cases fenced : db.Fenced
  · rw [if_pos fenced, if_pos fenced]
    rfl
  · rw [if_neg fenced, if_neg fenced]

/-- The guard's table has no part in the fence. -/
theorem fenced_update (db : Database) (rows : List Record)
    (present : Table → Bool) :
    ({ db with
      tables := Function.update db.tables .copyGuard rows
      present } : Database).Fenced ↔ db.Fenced := Iff.rfl

/-- Without the fence the import stops at the guard. -/
theorem runAll_unfenced (standing : db.Standing) (unfenced : ¬ db.Fenced)
    (rest : List Statement) :
    Database.runAll sqlite (header ++ rest) db =
      .error (.constraint .check) := by
  have stops := @run_insertCopyGuard sqlite { db with
    tables := Function.update db.tables .copyGuard []
    present := Function.update db.present .copyGuard true } rfl
  rw [if_neg (mt (fenced_update db [] _).mp unfenced)] at stops
  rw [header, List.append_assoc, List.cons_append, Database.runAll,
    run_createCopyGuard standing]
  simp only [List.cons_append, Database.runAll]
  rw [stops]

/-- After the guard, with room for the pieces. -/
structure Prepared (start db : Database) : Prop where
  tables : ∀ table, table ≠ .copyGuard → table ≠ .loadPieces →
    db.tables table = start.tables table
  present : ∀ table, table ≠ .copyGuard → table ≠ .loadPieces →
    db.present table = start.present table
  search : db.search = start.search
  noPieces : db.tables .loadPieces = []
  piecesPresent : db.present .loadPieces = true

theorem runAll_guard (standing : db.Standing) (fenced : db.Fenced) :
    ∃ next,
      Database.runAll sqlite
        [.createCopyGuard, .insertCopyGuard, .dropTable .copyGuard,
          .dropTableIfExists .loadPieces, .createLoadPieces] db =
        .ok next ∧ Prepared db next := by
  have passes := @run_insertCopyGuard sqlite { db with
    tables := Function.update db.tables .copyGuard []
    present := Function.update db.present .copyGuard true } rfl
  rw [if_pos ((fenced_update db [] _).mpr fenced)] at passes
  refine ⟨_, runAll_cons (run_createCopyGuard standing)
    (runAll_cons passes (runAll_cons rfl (runAll_cons rfl
      (runAll_cons rfl rfl)))), ?_⟩
  constructor
  · intro table notGuard notPieces
    simp only [Database.drop, Function.update_of_ne notGuard,
      Function.update_of_ne notPieces]
  · intro table notGuard notPieces
    simp only [Database.drop, Function.update_of_ne notGuard,
      Function.update_of_ne notPieces]
  · rfl
  · rfl
  · rfl

/-- While the tables are emptied. -/
structure Clearing (start : Database) (done : List Table) (db : Database) :
    Prop where
  empty : ∀ table ∈ done, db.tables table = []
  locks : db.tables .indexerLocks = start.tables .indexerLocks
  present : ∀ table ∈ listedTables, db.present table = true
  noPieces : db.tables .loadPieces = []
  piecesPresent : db.present .loadPieces = true
  indexed : ∀ entry ∈ db.search, ∃ agent ∈ db.tables .agents,
    agent "id" = entry.rowid

/-- A table is emptied, and its search entries with it. -/
theorem Clearing.clear {start : Database} {done : List Table}
    (clearing : Clearing start done db) {table : Table}
    (isListed : table ∈ listedTables) :
    Clearing start (table :: done) (db.clear sqlite table) := by
  have notLocks : Table.indexerLocks ≠ table := by
    rintro rfl
    exact locks_unlisted isListed
  have isCleared : (db.clear sqlite table).tables =
      ((schema sqlite).clear db.tables table).1 := rfl
  have locksFree : (schema sqlite).references .indexerLocks = [] := rfl
  have agentsFree : (schema sqlite).references .agents = [] := rfl
  constructor
  · intro other isDone
    rw [isCleared]
    rcases List.mem_cons.mp isDone with rfl | isDone
    · exact Schema.clear_self
    · exact Schema.clear_empty (clearing.empty other isDone)
  · rw [isCleared, Schema.clear_free locksFree notLocks]
    exact clearing.locks
  · exact clearing.present
  · rw [isCleared]
    exact Schema.clear_empty clearing.noPieces
  · exact clearing.piecesPresent
  · intro entry inSearch
    obtain ⟨inOld, stays⟩ := List.mem_filter.mp inSearch
    obtain ⟨agent, inAgents, isRowid⟩ := clearing.indexed entry inOld
    by_cases isAgents : table = .agents
    · cases isAgents
      exact absurd ⟨agent, Schema.clear_removed inAgents, isRowid⟩
        (of_decide_eq_true stays)
    · refine ⟨agent, ?_, isRowid⟩
      rw [isCleared, Schema.clear_free agentsFree (Ne.symm isAgents)]
      exact inAgents

theorem Clearing.runAll {start : Database} {done : List Table}
    (clearing : Clearing start done db) {tables : List Table}
    (listed : ∀ table ∈ tables, table ∈ listedTables) :
    ∃ next, Database.runAll sqlite (tables.map .deleteFrom) db = .ok next ∧
      Clearing start (tables.reverse ++ done) next := by
  induction tables generalizing done db with
  | nil => exact ⟨db, rfl, clearing⟩
  | cons table tables induction =>
      have isListed := listed table List.mem_cons_self
      have first : Clearing start (table :: done) (db.clear sqlite table) :=
        clearing.clear isListed
      obtain ⟨next, ran, cleared⟩ := induction first fun other member =>
        listed other (List.mem_cons_of_mem _ member)
      refine ⟨next, ?_, ?_⟩
      · apply runAll_cons ?_ ran
        rw [Database.run, if_neg]
        simp [clearing.present table isListed]
      · rw [List.reverse_cons, List.append_assoc]
        exact cleared

/-- Before the rows the listed tables are empty. -/
theorem runAll_header (standing : db.Standing) (fenced : db.Fenced) :
    ∃ next, Database.runAll sqlite header db = .ok next ∧
      Stage db (fun _ => []) (fun _ => False) next := by
  obtain ⟨guarded, ranGuard, prepared⟩ := runAll_guard standing fenced
  have apart {table : Table} (isListed : table ∈ listedTables) :
      table ≠ .copyGuard ∧ table ≠ .loadPieces := by
    constructor
    · rintro rfl
      exact absurd isListed (by decide)
    · rintro rfl
      exact absurd isListed (by decide)
  have clearing : Clearing db [] guarded := by
    constructor
    · exact nofun
    · exact prepared.tables _ (by decide) (by decide)
    · intro table isListed
      obtain ⟨notGuard, notPieces⟩ := apart isListed
      rw [prepared.present table notGuard notPieces]
      exact standing.present table isListed
    · exact prepared.noPieces
    · exact prepared.piecesPresent
    · rw [prepared.search, prepared.tables .agents (by decide) (by decide)]
      exact standing.indexed
  have deletes : ∃ next,
      Database.runAll sqlite (listedTables.reverse.map .deleteFrom) guarded =
        .ok next ∧
      Clearing db (listedTables.reverse.reverse ++ []) next :=
    clearing.runAll fun table member => List.mem_reverse.mp member
  obtain ⟨next, ran, cleared⟩ := deletes
  rw [List.reverse_reverse, List.append_nil] at cleared
  refine ⟨next, ?_, ?_⟩
  · rw [header]
    apply runAll_append ranGuard
    rw [listedTables, ← List.map_reverse, List.map_map] at ran
    exact ran
  · constructor
    · exact cleared.empty
    · exact cleared.locks
    · exact cleared.present
    · exact cleared.piecesPresent
    · intro entry inSearch
      obtain ⟨agent, inAgents, -⟩ := cleared.indexed entry inSearch
      rw [cleared.empty .agents (by decide)] at inAgents
      cases inAgents
    · intro piece inPieces
      rw [cleared.noPieces] at inPieces
      cases inPieces

/-! ## The import -/

/-- The import of the script of an accepted snapshot whose rows satisfy the
schema and whose time has no line break: the text comes apart into the lines of
the statements.  While the copy fence stands, it replaces whatever the tables held by
the rows of the snapshot: each column has the row's own value, with booleans
as 0 and 1, or the exact text where there is a copy of it.  The locks stay,
and nothing of the script does.  Without the fence the first CHECK fails, and
nothing changes. -/
theorem importFile_exact {snapshot : Snapshot} {output : Output}
    (accepted : snapshotToSql snapshot = .ok output)
    (unbroken : '\n' ∉ snapshot.takenAt.toList)
    (fits : snapshot.Fits sqlite) (standing : db.Standing) :
    sqlStatements output.text = output.statements.map Statement.text ∧
    (db.Fenced → ∃ after,
      db.importFile sqlite output.statements = (after, none) ∧
        (∀ source ∈ TABLES, after.tables source.table =
          (snapshot.rows source.table).map source.record) ∧
        after.tables .indexerLocks = db.tables .indexerLocks ∧
        after.present .loadPieces = false) ∧
    (¬ db.Fenced → db.importFile sqlite output.statements =
      (db, some (.constraint .check))) ∧
    (∀ source ∈ TABLES, ∀ row name, .plain name ∈ source.columns →
      source.record row name = cell (row.field name)) ∧
    ∀ row copy,
      (row.get "agent_uri_data_text" = some (.text copy) →
        agentsSource.record row "agent_uri_data" = .text copy) ∧
      (row.get "services_text" = some (.text copy) →
        agentsSource.record row "services" = .text copy) ∧
      (row.get "value_text" = some (.text copy) →
        feedbackSource.record row "value" = .text copy) := by
  obtain ⟨isScript, accepts⟩ := snapshotToSql_ok accepted
  refine ⟨sqlStatements_text accepted unbroken, ?_, ?_, ?_, ?_⟩
  · intro fenced
    have headed : ∃ next, Database.runAll sqlite header db = .ok next ∧
        Stage db (fun _ => []) (fun _ => False) next :=
      runAll_header standing fenced
    obtain ⟨empty, ranHeader, stage⟩ := headed
    have noneDone {property : Table → Prop} :
        ∀ table ∈ ([] : List Table), property table :=
      fun _ member => absurd member List.not_mem_nil
    have unwritten : Written snapshot [] (TABLES.map Source.table)
        (fun _ => []) (fun _ => False) :=
      ⟨noneDone, noneDone, fun _ _ => rfl,
        fun _ isUsed => absurd isUsed not_false⟩
    obtain ⟨loaded, ranTables, -, isLoaded, locks, present⟩ :=
      stage.writeTables fits (fun source listed => (accepts source listed).2)
        (fun source listed => listed) inOrder_listed unwritten
    refine ⟨loaded.drop .loadPieces, ?_, ?_, ?_, ?_⟩
    · have ranLast : Database.runAll sqlite [.dropTable .loadPieces] loaded =
          .ok (loaded.drop .loadPieces) := by
        refine runAll_cons ?_ rfl
        rw [Database.run, if_neg]
        simp [present]
      rw [Database.importFile, isScript,
        runAll_append (runAll_append ranHeader ranTables) ranLast]
    · intro source listed
      have notPieces : source.table ≠ .loadPieces := by
        intro isPieces
        exact pieces_unlisted (isPieces ▸ mem_listedTables listed)
      rw [← loaded_source snapshot listed, ← isLoaded source listed]
      exact Function.update_of_ne notPieces _ _
    · exact locks
    · rfl
  · intro unfenced
    rw [Database.importFile, isScript, List.append_assoc,
      runAll_unfenced standing unfenced]
  · intro source listed row name inColumns
    exact record_column listed inColumns row
  · intro row copy
    refine ⟨?_, ?_, ?_⟩
    · intro isCopy
      change cell (jsonText "agent_uri_data_text" "agent_uri_data" row) = _
      rw [jsonText, isCopy]
      rfl
    · intro isCopy
      change cell (services row) = _
      rw [services, isCopy]
      rfl
    · intro isCopy
      have isRead : feedbackValue row = .ok (.text copy) := by
        unfold feedbackValue
        rw [isCopy]
      have isValue : (Column.mk "value" feedbackValue).value row =
          .text copy := by
        simp only [Column.value, isRead]
      change cell ((Column.mk "value" feedbackValue).value row) = _
      rw [isValue]
      rfl

end

/-- The JSON functions on the two documents of `agentRow`. -/
def plainSqlite : Sqlite where
  jsonValid text := text = "\x7b\x7d" ∨ text = "[]"
  jsonType text := if text = "[]" then "array" else "object"
  field _ _ := .null
  number _ := none
  emptyArray_valid := by decide
  emptyArray_type := by decide

section

variable {uri : String}

theorem agentRow_typed (uri : String) : ∀ column ∈ agentsSource.columns,
    (affinityOf .agents column.name).Holds
      (cell (column.value (agentRow uri "\x7b\x7d" "[]"))) := by
  intro column inColumns
  simp only [agentsSource, List.mem_cons, List.not_mem_nil, or_false]
    at inColumns
  rcases inColumns with rfl | rfl | rfl | rfl | rfl | rfl | rfl | rfl | rfl |
    rfl | rfl | rfl | rfl | rfl | rfl | rfl | rfl | rfl <;> exact trivial

theorem agentRow_constraints (uri : String) :
    (agentsSource.columns.all fun column =>
      (!requires .agents column.name ||
        decide (cell (column.value (agentRow uri "\x7b\x7d" "[]")) ≠ .null)) &&
      (checksOf .agents column.name).all fun check => check.passes plainSqlite
        (cell (column.value (agentRow uri "\x7b\x7d" "[]")))) = true := rfl

theorem agentRow_required (uri : String) :
    (agentsSource.columns.all fun column =>
      !requires .agents column.name || column.name == "services" ||
        column.name == "supported_trust" ||
        match column.value (agentRow uri "\x7b\x7d" "[]") with
        | .text text => decide (text.utf8ByteSize ≤ PIECE_BYTES)
        | _ => true) = true := rfl

theorem agentRow_clean (cleanUri : NoNul uri) :
    ∀ column ∈ agentsSource.columns, ∀ text,
      column.value (agentRow uri "\x7b\x7d" "[]") = .text text →
        NoNul text := by
  intro column inColumns text isText
  have inMap : column.value (agentRow uri "\x7b\x7d" "[]") ∈
      agentsSource.columns.map fun column =>
        column.value (agentRow uri "\x7b\x7d" "[]") :=
    List.mem_map_of_mem inColumns
  rw [agentRow_value, isText] at inMap
  simp only [List.mem_cons, Json.text.injEq, reduceCtorEq, false_or, or_false,
    List.not_mem_nil] at inMap
  rcases inMap with rfl | rfl | rfl | rfl | rfl | rfl | rfl
  case inr.inl => exact cleanUri
  all_goals
    unfold NoNul
    decide

/-- The row of an agent satisfies the schema, however long its URI is. -/
theorem oneAgent_fits (cleanUri : NoNul uri) (shortUri : uri.length < 2 ^ 53)
    (shortData : "\x7b\x7d".length < 2 ^ 53)
    (shortServices : "[]".length < 2 ^ 53) :
    (oneAgent uri "\x7b\x7d" "[]" shortUri shortData shortServices).Fits
      plainSqlite := by
  have ofAgents {source : Source} (listed : source ∈ TABLES) {row : Row}
      (inRows : row ∈ (oneAgent uri "\x7b\x7d" "[]" shortUri shortData
        shortServices).rows source.table) :
      source = agentsSource ∧ row = agentRow uri "\x7b\x7d" "[]" := by
    rw [oneAgent_rows] at inRows
    split_ifs at inRows with isAgents
    · exact ⟨eq_agentsSource listed isAgents, List.mem_singleton.mp inRows⟩
    · cases inRows
  have ofRecord {source : Source} (listed : source ∈ TABLES) {record : Record}
      (inLoaded : record ∈ (oneAgent uri "\x7b\x7d" "[]" shortUri shortData
        shortServices).loaded source.table) :
      source = agentsSource ∧
        record = agentsSource.record (agentRow uri "\x7b\x7d" "[]") := by
    rw [loaded_source _ listed] at inLoaded
    obtain ⟨row, inRows, rfl⟩ := List.mem_map.mp inLoaded
    obtain ⟨rfl, rfl⟩ := ofAgents listed inRows
    exact ⟨rfl, rfl⟩
  have inAgents : agentsSource ∈ TABLES := List.mem_cons_self
  have constraints := List.all_eq_true.mp (agentRow_constraints uri)
  constructor
  · intro source listed row inRows
    obtain ⟨rfl, rfl⟩ := ofAgents listed inRows
    exact agentRow_typed uri
  · intro source listed
    constructor
    · intro record inLoaded name inColumns required
      obtain ⟨rfl, rfl⟩ := ofRecord listed inLoaded
      change name ∈ (definitions agentsSource.table).map _ at inColumns
      rw [← names_match inAgents] at inColumns
      obtain ⟨column, isColumn, rfl⟩ := List.mem_map.mp inColumns
      rw [record_column inAgents isColumn]
      have both := constraints column isColumn
      rw [Bool.and_eq_true, Bool.or_eq_true] at both
      rcases both.1 with optional | present
      · change requires .agents column.name = true at required
        rw [required] at optional
        cases optional
      · exact of_decide_eq_true present
    · intro record inLoaded name inColumns
      obtain ⟨rfl, rfl⟩ := ofRecord listed inLoaded
      change name ∈ (definitions agentsSource.table).map _ at inColumns
      rw [← names_match inAgents] at inColumns
      obtain ⟨column, isColumn, rfl⟩ := List.mem_map.mp inColumns
      rw [record_column inAgents isColumn]
      have both := constraints column isColumn
      rw [Bool.and_eq_true] at both
      exact both.2
    · intro key isKey
      rw [loaded_source _ listed, oneAgent_rows]
      split_ifs
      · exact List.pairwise_singleton _ _
      · exact List.Pairwise.nil
    · intro reference isReference record inLoaded
      obtain ⟨rfl, rfl⟩ := ofRecord listed inLoaded
      cases isReference
  · intro source listed row inRows column inColumns required notServices
      notTrust text isText
    obtain ⟨rfl, rfl⟩ := ofAgents listed inRows
    have few := List.all_eq_true.mp (agentRow_required uri) column inColumns
    change requires .agents column.name = true at required
    rw [required, beq_eq_false_iff_ne.mpr notServices,
      beq_eq_false_iff_ne.mpr notTrust, isText] at few
    exact of_decide_eq_true few
  · intro source listed row inRows
    obtain ⟨rfl, rfl⟩ := ofAgents listed inRows
    exact agentRow_clean cleanUri

/-- A text of so many letters and a quote. -/
def longUri (count : Nat) : String :=
  String.ofList (quoteMark :: List.replicate count 'a')

theorem longUri_short {count : Nat} (small : count + 1 < 2 ^ 53) :
    (longUri count).length < 2 ^ 53 := by
  rwa [longUri, String.length_ofList, List.length_cons, List.length_replicate]

theorem longUri_clean (count : Nat) : NoNul (longUri count) := by
  unfold NoNul
  rw [longUri, String.toList_ofList]
  intro member
  rcases List.mem_cons.mp member with isQuote | filling
  · exact absurd isQuote (by decide)
  · exact absurd (List.eq_of_mem_replicate filling) (by decide)

/-- A database with another agent, and the fence. -/
def fencedDatabase : Database where
  tables := fun table =>
    match table with
    | .agents => [fun name => if name = "id" then .integer 7 else .null]
    | .indexerLocks =>
        [fun name =>
          if name = "lock_name" then .text "indexer"
          else if name = "owner" then .text "copy-fence"
          else .text "9999-12-31T00:00:00+00:00"]
    | _ => []
  present := fun table => table ≠ .copyGuard ∧ table ≠ .loadPieces
  search := [⟨.integer 7, .null, .null⟩]

theorem fencedDatabase_standing : fencedDatabase.Standing := by
  constructor
  · decide
  · decide
  · intro entry inSearch
    rw [List.mem_singleton.mp inSearch]
    exact ⟨_, List.mem_cons_self, rfl⟩

theorem fencedDatabase_fenced : fencedDatabase.Fenced :=
  ⟨_, List.mem_cons_self, rfl, rfl⟩

theorem importFile_exact_longUri :
    ∃ output after,
      snapshotToSql (oneAgent (longUri 50000) "\x7b\x7d" "[]"
        (longUri_short (by decide)) (by decide) (by decide)) = .ok output ∧
      sqlStatements output.text = output.statements.map Statement.text ∧
      fencedDatabase.importFile plainSqlite output.statements =
        (after, none) ∧
      after.tables .agents =
        [agentsSource.record (agentRow (longUri 50000) "\x7b\x7d" "[]")] ∧
      after.present .loadPieces = false := by
  obtain ⟨output, accepted⟩ := oneAgent_accepts
    (longUri_short (by decide : 50000 + 1 < 2 ^ 53))
    (by decide : "\x7b\x7d".length < 2 ^ 53) (by decide : "[]".length < 2 ^ 53)
  obtain ⟨reads, loads, -⟩ := importFile_exact accepted (by decide)
    (oneAgent_fits (longUri_clean 50000) _ _ _) fencedDatabase_standing
  obtain ⟨after, ran, tables, -, noPieces⟩ := loads fencedDatabase_fenced
  exact ⟨output, after, accepted, reads, ran,
    tables agentsSource List.mem_cons_self, noPieces⟩

/-! ## A time with a line break -/

/-- The snapshot of one agent, taken at a text that ends the comment. -/
def brokenComment : Snapshot :=
  { oneAgent "https://example.com/agent.json" "\x7b\x7d" "[]" (by decide)
      (by decide) (by decide) with
    manifest := .object
      [("taken_at", .text "T\nDELETE FROM indexer_locks;\n--"),
        ("under_indexer_lock", .bool true)] }

theorem brokenComment_fits : brokenComment.Fits plainSqlite := by
  have fits := oneAgent_fits
    (by unfold NoNul; decide : NoNul "https://example.com/agent.json")
    (by decide) (by decide : "\x7b\x7d".length < 2 ^ 53)
    (by decide : "[]".length < 2 ^ 53)
  exact ⟨fits.typed, fits.satisfied, fits.short, fits.clean⟩

theorem importFile_brokenComment :
    ∃ output,
      snapshotToSql brokenComment = .ok output ∧
      brokenComment.Fits plainSqlite ∧ fencedDatabase.Standing ∧
      fencedDatabase.Fenced ∧
      sqlStatements output.text =
        (Statement.deleteFrom .indexerLocks :: output.statements).map
          Statement.text ∧
      fencedDatabase.importFile plainSqlite
          (.deleteFrom .indexerLocks :: output.statements) =
        (fencedDatabase, some (.constraint .check)) := by
  have accepts : ∃ output, snapshotToSql brokenComment = .ok output := by
    apply snapshotToSql_accepts rfl
    intro source listed
    refine ⟨_, rfl, ?_⟩
    intro row inRows
    split_ifs at inRows with isAgents
    · rw [List.mem_singleton.mp inRows]
      rw [eq_agentsSource listed isAgents]
      exact agentRow_accepts _ _ _
    · cases inRows
  obtain ⟨output, accepted⟩ := accepts
  refine ⟨output, accepted, brokenComment_fits, fencedDatabase_standing,
    fencedDatabase_fenced, ?_, ?_⟩
  · apply @sqlStatements_lines _ ["DELETE FROM indexer_locks;"] _
      (whole_statements accepted)
    intro rest
    have isTime : brokenComment.takenAt.toList ++ '.' :: '\n' :: rest =
        ['T'] ++ '\n' :: ("DELETE FROM indexer_locks;".toList ++
          '\n' :: '-' :: '-' :: '.' :: '\n' :: rest) := by
      have isText : brokenComment.takenAt.toList =
          ['T'] ++ '\n' :: ("DELETE FROM indexer_locks;".toList ++
            ['\n', '-', '-']) := by decide
      rw [isText]
      simp
    have delete : Whole "DELETE FROM indexer_locks;" :=
      whole_delete .indexerLocks
    have ends := separated_comment (by decide : '\n' ∉ ['-', '.']) [] rest
    have comment : '\n' ∉ ['T'] := by decide
    rw [separated_comment_line accepted, isTime, separated_comment comment,
      delete.taken, separated_break, separated, if_neg (by decide),
      if_pos ⟨rfl, rfl⟩]
    exact congrArg _ ends
  · have cleared : ∃ next, fencedDatabase.run plainSqlite
        (.deleteFrom .indexerLocks) = .ok next ∧ next.Standing ∧
          ¬ next.Fenced := by
      refine ⟨fencedDatabase.clear plainSqlite .indexerLocks, rfl, ?_, ?_⟩
      · have agents : (fencedDatabase.clear plainSqlite .indexerLocks).tables
            .agents = fencedDatabase.tables .agents := by
          have other : Table.agents ≠ .indexerLocks := by decide
          change ((schema plainSqlite).clear fencedDatabase.tables
            .indexerLocks).1 .agents = _
          exact Schema.clear_free rfl other
        refine ⟨fencedDatabase_standing.present,
          fencedDatabase_standing.noGuard, ?_⟩
        intro entry inSearch
        simp only [Database.clear] at inSearch
        rw [agents]
        exact fencedDatabase_standing.indexed entry
          (List.mem_of_mem_filter inSearch)
      · rintro ⟨lock, inLocks, -⟩
        have none : (fencedDatabase.clear plainSqlite .indexerLocks).tables
            .indexerLocks = [] := by
          change ((schema plainSqlite).clear fencedDatabase.tables
            .indexerLocks).1 .indexerLocks = []
          exact Schema.clear_self
        rw [none] at inLocks
        cases inLocks
    obtain ⟨next, ran, standing, unfenced⟩ := cleared
    rw [Database.importFile, Database.runAll, ran]
    simp only []
    rw [(snapshotToSql_ok accepted).1, List.append_assoc,
      runAll_unfenced standing unfenced]

end

end Stellar8004.D1
