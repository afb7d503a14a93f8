import Stellar8004.D1.Drafts

/-!
# Loading a snapshot

The script of an accepted snapshot runs on the schema while the copy fence
stands, and leaves the rows of the snapshot and nothing of its own.
-/

namespace Stellar8004.D1

open Indexer (Json)
open Relations (Schema)

/-! ## Runs -/

section

variable {sqlite : Sqlite} {db middle after : Database}

theorem runAll_cons {statement : Statement} {rest : List Statement}
    (ran : db.run sqlite statement = .ok middle)
    (later : Database.runAll sqlite rest middle = .ok after) :
    Database.runAll sqlite (statement :: rest) db = .ok after := by
  rw [Database.runAll, ran]
  exact later

theorem runAll_append {first second : List Statement}
    (ran : Database.runAll sqlite first db = .ok middle)
    (later : Database.runAll sqlite second middle = .ok after) :
    Database.runAll sqlite (first ++ second) db = .ok after := by
  induction first generalizing db with
  | nil =>
      cases ran
      exact later
  | cons statement first induction =>
      rw [Database.runAll] at ran
      cases isNext : db.run sqlite statement with
      | error failure =>
          rw [isNext] at ran
          cases ran
      | ok next =>
          rw [isNext] at ran
          exact runAll_cons isNext (induction ran)

end

/-! ## Pieces -/

/-- A piece of a text as a row of `load_pieces`. -/
def pieceRow (sqlite : Sqlite) (key : String) (index : Nat) (piece : String) :
    Record :=
  insertedRow sqlite .loadPieces ["k", "i", "v"]
    [.text key, .integer index, .text piece]

/-- The rows of the pieces of a text, from an index on. -/
def pieceRows (sqlite : Sqlite) (key : String) (parts : List String)
    (first : Nat) : List Record :=
  (parts.zipIdx first).map fun (piece, index) =>
    pieceRow sqlite key index piece

section

variable {sqlite : Sqlite} {db : Database} {key : String}

theorem pieceRow_i (index : Nat) (piece : String) :
    pieceRow sqlite key index piece "i" = .integer index := rfl

/-- A piece is inserted where its place is free. -/
theorem run_insertPiece (present : db.present .loadPieces = true)
    (cleanKey : NoNul key) {index : Nat} {piece : String}
    (clean : NoNul piece)
    (free : ∀ row ∈ db.tables .loadPieces,
      row "k" = .text key → row "i" ≠ .integer index) :
    db.run sqlite (.insertPiece (textLiteral key) index (textLiteral piece)) =
      .ok { db with
        tables := Function.update db.tables .loadPieces
          (db.tables .loadPieces ++ [pieceRow sqlite key index piece]) } := by
  have noViolation : (schema sqlite).violation? db.tables .loadPieces
      (db.tables .loadPieces) (pieceRow sqlite key index piece) = none := by
    apply Relations.Schema.violation?_eq_none
    · intro name inColumns _ isNull
      rcases List.mem_cons.mp inColumns with rfl | inColumns
      · cases isNull
      · rcases List.mem_cons.mp inColumns with rfl | inColumns
        · cases isNull
        · rw [List.mem_singleton.mp inColumns] at isNull
          cases isNull
    · intro name inColumns
      rcases List.mem_cons.mp inColumns with rfl | inColumns
      · rfl
      · rcases List.mem_cons.mp inColumns with rfl | inColumns
        · rfl
        · rw [List.mem_singleton.mp inColumns]
          rfl
    · intro names isKey other inOthers same
      rw [List.mem_singleton.mp isKey] at same
      apply free other inOthers
      · exact (same "k" List.mem_cons_self).1.symm
      · exact (same "i" (List.mem_cons_of_mem _ List.mem_cons_self)).1.symm
    · intro reference isReference
      cases isReference
  have inserted : (schema sqlite).insert db.tables .loadPieces
      (pieceRow sqlite key index piece) = .ok (Function.update db.tables
        .loadPieces (db.tables .loadPieces ++
          [pieceRow sqlite key index piece])) := by
    rw [Schema.insert, noViolation]
  have readKey : readValue (textLiteral key) = .ok (.text key) := by
    rw [readValue, readLiteral_textLiteral cleanKey]
  have readPiece : readValue (textLiteral piece) = .ok (.text piece) := by
    rw [readValue, readLiteral_textLiteral clean]
  rw [Database.run, readKey, ok_bind, readPiece, ok_bind]
  change db.insertRow sqlite .loadPieces
    (pieceRow sqlite key index piece) = _
  rw [Database.insertRow, if_neg (by simp [present]), inserted]
  rfl

/-- The pieces of a text are inserted one after another. -/
theorem runAll_pieces (present : db.present .loadPieces = true)
    (cleanKey : NoNul key) {parts : List String}
    (clean : ∀ piece ∈ parts, NoNul piece) (first : Nat)
    (free : ∀ row ∈ db.tables .loadPieces, row "k" = .text key →
      ∀ index, first ≤ index → row "i" ≠ .integer (index : Nat)) :
    Database.runAll sqlite
        ((parts.zipIdx first).map fun (piece, index) =>
          .insertPiece (textLiteral key) index (textLiteral piece)) db =
      .ok { db with
        tables := Function.update db.tables .loadPieces
          (db.tables .loadPieces ++ pieceRows sqlite key parts first) } := by
  induction parts generalizing db first with
  | nil =>
      rw [pieceRows, List.zipIdx_nil, List.map_nil, List.map_nil,
        List.append_nil, Function.update_eq_self]
      rfl
  | cons piece parts induction =>
      rw [List.zipIdx_cons, List.map_cons]
      apply runAll_cons (run_insertPiece present cleanKey
        (clean piece List.mem_cons_self) fun row inRows isKey =>
          free row inRows isKey first (Nat.le_refl first))
      have later := @induction { db with
        tables := Function.update db.tables .loadPieces
          (db.tables .loadPieces ++ [pieceRow sqlite key first piece]) }
        present (fun other member => clean other (List.mem_cons_of_mem _ member))
        (first + 1) ?_
      · rw [later]
        simp only [Function.update_self, Function.update_idem, pieceRows,
          List.zipIdx_cons, List.map_cons, List.append_assoc,
          List.singleton_append]
      · intro row inRows isKey index next isIndex
        dsimp only at inRows
        rw [Function.update_self] at inRows
        rcases List.mem_append.mp inRows with before | isNew
        · exact free row before isKey index (by omega) isIndex
        · rw [List.mem_singleton.mp isNew, pieceRow_i] at isIndex
          have same : first = index :=
            Int.ofNat_inj.mp (Value.integer.inj isIndex)
          omega

/-- The pieces of a text are joined in their order, whatever else is there. -/
theorem concat_pieces {others : List Record}
    (apart : ∀ row ∈ others, row "k" ≠ .text key) {parts : List String}
    (isTable : db.tables .loadPieces =
      others ++ pieceRows sqlite key parts 0)
    (nonempty : parts ≠ []) :
    db.concat (.text key) = .text (String.join parts) := by
  have kept : ((db.tables .loadPieces).filter fun piece =>
      piece "k" = .text key ∧ Value.text key ≠ .null) =
        pieceRows sqlite key parts 0 := by
    rw [isTable, List.filter_append, List.filter_eq_nil_iff.mpr,
      List.nil_append, List.filter_eq_self.mpr]
    · intro row inRows
      obtain ⟨⟨piece, index⟩, -, rfl⟩ := List.mem_map.mp inRows
      rw [decide_eq_true_eq]
      exact ⟨rfl, nofun⟩
    · intro row inOthers
      rw [decide_eq_true_eq]
      intro found
      exact apart row inOthers found.1
  have sorted : (pieceRows sqlite key parts 0).Pairwise fun first second =>
      decide (pieceIndex first ≤ pieceIndex second) = true := by
    apply List.pairwise_map.mpr
    have increasing : ((parts.zipIdx 0).map Prod.snd).Pairwise (· < ·) := by
      rw [List.zipIdx_map_snd]
      exact List.pairwise_lt_range'
    apply (List.pairwise_map.mp increasing).imp
    intro first second less
    rw [decide_eq_true_eq]
    exact Int.ofNat_le.mpr (Nat.le_of_lt less)
  have texts : (pieceRows sqlite key parts 0).map pieceText = parts := by
    rw [pieceRows, List.map_map]
    exact List.zipIdx_map_fst 0 parts
  have notEmpty : pieceRows sqlite key parts 0 ≠ [] := by
    intro empty
    rw [empty] at texts
    exact nonempty texts.symm
  rw [Database.concat, kept]
  split
  · rename_i empty
    exact absurd empty notEmpty
  · rw [List.mergeSort_of_pairwise sorted, texts]

end

/-! ## Stages -/

/-- The tables the script loads. -/
def listedTables : List Table := TABLES.map Source.table

/-- Between two statements of a load that began with some database: what the
listed tables hold, and which texts have pieces. -/
structure Stage (start : Database) (contents : Table → List Record)
    (used : String → Prop) (db : Database) : Prop where
  tables : ∀ table ∈ listedTables, db.tables table = contents table
  locks : db.tables .indexerLocks = start.tables .indexerLocks
  present : ∀ table ∈ listedTables, db.present table = true
  piecesPresent : db.present .loadPieces = true
  search : ∀ entry ∈ db.search, ∃ agent ∈ contents .agents,
    agent "id" = entry.rowid
  keyed : ∀ piece ∈ db.tables .loadPieces,
    ∃ key, piece "k" = .text key ∧ used key

/-- A table whose parents are loaded and whose children are empty. -/
structure Ready (snapshot : Snapshot) (contents : Table → List Record)
    (table : Table) : Prop where
  parents : ∀ reference ∈ foreignKeys table,
    reference.parent ≠ table ∧ reference.parent ∈ listedTables ∧
      contents reference.parent = snapshot.loaded reference.parent
  childless : ∀ child, ∀ reference ∈ foreignKeys child,
    reference.parent = table →
      child ≠ table ∧ child ∈ listedTables ∧ contents child = []

/-- A table stays ready while its own rows are written. -/
theorem Ready.update {snapshot : Snapshot} {contents : Table → List Record}
    {table : Table} (ready : Ready snapshot contents table)
    (rows : List Record) :
    Ready snapshot (Function.update contents table rows) table := by
  constructor
  · intro reference isReference
    obtain ⟨different, isListed, isLoaded⟩ :=
      ready.parents reference isReference
    rw [Function.update_of_ne different]
    exact ⟨different, isListed, isLoaded⟩
  · intro child reference isReference toTable
    obtain ⟨different, isListed, empty⟩ :=
      ready.childless child reference isReference toTable
    rw [Function.update_of_ne different]
    exact ⟨different, isListed, empty⟩

theorem mem_listedTables {source : Source} (listed : source ∈ TABLES) :
    source.table ∈ listedTables := List.mem_map_of_mem listed

theorem locks_unlisted : Table.indexerLocks ∉ listedTables := by decide

theorem pieces_unlisted : Table.loadPieces ∉ listedTables := by decide

section

variable {sqlite : Sqlite} {snapshot : Snapshot} {start db : Database}
  {contents : Table → List Record} {used : String → Prop}

/-- New rows in one table. -/
theorem Stage.write (stage : Stage start contents used db) {table : Table}
    (inTables : table ∈ listedTables) {rows : List Record}
    {search : List SearchEntry}
    (indexed : ∀ entry ∈ search,
      ∃ agent ∈ Function.update contents table rows .agents,
        agent "id" = entry.rowid) :
    Stage start (Function.update contents table rows) used
      { db with
        tables := Function.update db.tables table rows
        search } := by
  have notLocks : Table.indexerLocks ≠ table := by
    rintro rfl
    exact locks_unlisted inTables
  have notPieces : Table.loadPieces ≠ table := by
    rintro rfl
    exact pieces_unlisted inTables
  constructor
  · intro other isListed
    dsimp only
    by_cases same : other = table
    · cases same
      rw [Function.update_self, Function.update_self]
    · rw [Function.update_of_ne same, Function.update_of_ne same]
      exact stage.tables other isListed
  · exact (Function.update_of_ne notLocks _ _).trans stage.locks
  · exact stage.present
  · exact stage.piecesPresent
  · exact indexed
  · intro piece inPieces
    apply stage.keyed piece
    dsimp only at inPieces
    rwa [Function.update_of_ne notPieces] at inPieces

/-- A stage does not depend on the search index where agents stay. -/
theorem Stage.write_other (stage : Stage start contents used db)
    {table : Table} (inTables : table ∈ listedTables)
    (notAgents : table ≠ .agents) (rows : List Record) :
    Stage start (Function.update contents table rows) used
      { db with tables := Function.update db.tables table rows } := by
  apply stage.write inTables
  intro entry inSearch
  rw [Function.update_of_ne notAgents.symm]
  exact stage.search entry inSearch

theorem Stage.parents (stage : Stage start contents used db) {table : Table}
    (ready : Ready snapshot contents table) :
    ∀ reference ∈ (schema sqlite).references table,
      db.tables reference.parent = snapshot.loaded reference.parent := by
  intro reference isReference
  obtain ⟨-, isListed, isLoaded⟩ := ready.parents reference isReference
  rw [stage.tables _ isListed, isLoaded]

/-! ## Rows of a table -/

variable {source : Source} {record draft : Record}
  {before after : List Record}

theorem key_required {source : Source} (listed : source ∈ TABLES)
    {name : String} (inKey : name ∈ source.key) :
    requires source.table name = true := by
  have all : (TABLES.all fun source => source.key.all fun name =>
      requires source.table name) = true := by decide
  exact List.all_eq_true.mp (List.all_eq_true.mp all source listed) name inKey

/-- A draft has the key of its row. -/
theorem draft_key (listed : source ∈ TABLES)
    (isDraft : (schema sqlite).Draft source.table draft record)
    {name : String} (inKey : name ∈ source.key) : draft name = record name :=
  isDraft.eq_of_key (key_unique listed) inKey (key_required listed inKey)

theorem key_present (listed : source ∈ TABLES)
    (fits : snapshot.Fits sqlite)
    (isLoaded : snapshot.loaded source.table = before ++ record :: after)
    {name : String} (inKey : name ∈ source.key) : record name ≠ .null := by
  have inLoaded : record ∈ snapshot.loaded source.table := by
    rw [isLoaded]
    exact List.mem_append_right _ List.mem_cons_self
  apply (fits.satisfied source listed).notNull record inLoaded name
  · have named : name ∈ source.columns.map Column.name :=
      List.mem_map_of_mem (key_plain listed inKey)
    rwa [names_match listed] at named
  · exact key_required listed inKey

/-- No earlier row has the key of a row. -/
theorem key_apart (listed : source ∈ TABLES) (fits : snapshot.Fits sqlite)
    (isLoaded : snapshot.loaded source.table = before ++ record :: after)
    {other : Record} (inBefore : other ∈ before) :
    ∃ name ∈ source.key, other name ≠ record name := by
  have apart := (fits.satisfied source listed).alone isLoaded
    (key_unique listed) inBefore
  by_contra same
  apply apart
  intro name inKey
  have equal : other name = record name := by
    by_contra different
    exact same ⟨name, inKey, different⟩
  exact ⟨equal, equal ▸ key_present listed fits isLoaded inKey⟩

theorem agents_key {source : Source} (listed : source ∈ TABLES)
    (isAgents : source.table = .agents) : source.key = ["id"] := by
  rw [eq_agentsSource listed isAgents]
  rfl

/-- A draft of the next row is inserted. -/
theorem Stage.insertRow (stage : Stage start contents used db)
    (fits : snapshot.Fits sqlite) (listed : source ∈ TABLES)
    (ready : Ready snapshot contents source.table)
    (isLoaded : snapshot.loaded source.table = before ++ record :: after)
    (stands : contents source.table = before)
    (isDraft : (schema sqlite).Draft source.table draft record) :
    ∃ next, db.insertRow sqlite source.table draft = .ok next ∧
      Stage start
        (Function.update contents source.table (before ++ [draft])) used
        next := by
  have inTables := mem_listedTables listed
  have stood : db.tables source.table = before :=
    (stage.tables _ inTables).trans stands
  have inserted := Schema.insert_draft isDraft (fits.satisfied source listed)
    isLoaded (stage.parents ready) stood
  rw [Database.insertRow, if_neg (by simp [stage.present _ inTables]), inserted]
  by_cases isAgents : source.table = .agents
  · have inKey : "id" ∈ source.key := by
      rw [agents_key listed isAgents]
      exact List.mem_cons_self
    have newId : ¬ ∃ entry ∈ db.search, entry.rowid = draft "id" := by
      intro old
      obtain ⟨entry, inSearch, isId⟩ := old
      obtain ⟨agent, inAgents, isRowid⟩ := stage.search entry inSearch
      rw [← isAgents, stands] at inAgents
      obtain ⟨name, isName, different⟩ :=
        key_apart listed fits isLoaded inAgents
      rw [agents_key listed isAgents] at isName
      rw [List.mem_singleton.mp isName] at different
      apply different
      rw [isRowid, isId, draft_key listed isDraft inKey]
    have indexed : ∀ entry ∈ db.search ++ [searchEntry sqlite draft],
        ∃ agent ∈ Function.update contents source.table (before ++ [draft])
          .agents, agent "id" = entry.rowid := by
      intro entry inSearch
      rw [← isAgents, Function.update_self]
      rcases List.mem_append.mp inSearch with old | isNew
      · obtain ⟨agent, inAgents, isRowid⟩ := stage.search entry old
        rw [← isAgents, stands] at inAgents
        exact ⟨agent, List.mem_append_left _ inAgents, isRowid⟩
      · rw [List.mem_singleton.mp isNew]
        exact ⟨draft, List.mem_append_right _ List.mem_cons_self, rfl⟩
    refine ⟨_, ?_, stage.write inTables indexed⟩
    simp only [if_pos isAgents, indexAgent, if_neg newId]
    rfl
  · refine ⟨_, ?_, stage.write_other inTables isAgents _⟩
    simp only [if_neg isAgents]

/-! ## Columns of a row -/

variable {row : Row}

theorem record_typed (fits : snapshot.Fits sqlite) (listed : source ∈ TABLES)
    (inRows : row ∈ snapshot.rows source.table) {name : String}
    (inKey : name ∈ source.key) :
    sqlite.store (affinityOf source.table name) (source.record row name) =
      source.record row name := by
  rw [record_key listed inKey]
  exact (fits.typed source listed row inRows _
    (key_plain listed inKey)).store

theorem found_iff (fits : snapshot.Fits sqlite) (listed : source ∈ TABLES)
    (inRows : row ∈ snapshot.rows source.table) {other : Record} :
    found sqlite source.table
        (source.key.map fun name => (name, source.record row name)) other =
          true ↔
      ∀ name ∈ source.key,
        other name = source.record row name ∧ other name ≠ .null := by
  unfold found
  rw [List.all_map, List.all_eq_true]
  constructor
  · intro all name inKey
    have each := of_decide_eq_true (all name inKey)
    rwa [record_typed fits listed inRows inKey] at each
  · intro all name inKey
    apply decide_eq_true
    rw [record_typed fits listed inRows inKey]
    exact all name inKey

/-- The update of a column finds the last row alone. -/
theorem Stage.updates (stage : Stage start contents used db)
    (fits : snapshot.Fits sqlite) (listed : source ∈ TABLES)
    (inRows : row ∈ snapshot.rows source.table)
    (ready : Ready snapshot contents source.table)
    (isLoaded : snapshot.loaded source.table =
      before ++ source.record row :: after)
    (stands : contents source.table = before ++ [draft])
    (isDraft : (schema sqlite).Draft source.table draft (source.record row))
    {name : String} {value : Value}
    (isNext : (schema sqlite).Draft source.table
      (Function.update draft name value) (source.record row)) :
    (schema sqlite).update db.tables source.table
        (found sqlite source.table
          (source.key.map fun name => (name, source.record row name)))
        (fun row => Function.update row name value) =
      .ok (Function.update db.tables source.table
        (before ++ [Function.update draft name value]),
          [Function.update draft name value]) := by
  have stood : db.tables source.table = before ++ [draft] :=
    (stage.tables _ (mem_listedTables listed)).trans stands
  have isFound : found sqlite source.table
      (source.key.map fun name => (name, source.record row name)) draft =
        true := by
    apply (found_iff fits listed inRows).mpr
    intro name inKey
    rw [draft_key listed isDraft inKey]
    exact ⟨rfl, key_present listed fits isLoaded inKey⟩
  have unfound : ∀ other ∈ before, found sqlite source.table
      (source.key.map fun name => (name, source.record row name)) other =
        false := by
    intro other inBefore
    apply Bool.eq_false_iff.mpr
    intro same
    obtain ⟨name, inKey, different⟩ :=
      key_apart listed fits isLoaded inBefore
    exact different ((found_iff fits listed inRows).mp same name inKey).1
  have childless : ∀ child ∈ (schema sqlite).tables,
      ∀ reference ∈ (schema sqlite).references child,
        reference.parent = source.table →
          child ≠ source.table ∧ db.tables child = [] := by
    intro child _ reference isReference toTable
    obtain ⟨different, isListed, empty⟩ :=
      ready.childless child reference isReference toTable
    exact ⟨different, (stage.tables child isListed).trans empty⟩
  exact Schema.update_draft isNext (fits.satisfied source listed) isLoaded
    (stage.parents ready) childless stood isFound unfound

/-- Every entry is still of an agent where the last agent keeps its id. -/
theorem Stage.search_kept (stage : Stage start contents used db)
    (stands : contents .agents = before ++ [draft]) {next : Record}
    (sameId : next "id" = draft "id") :
    ∀ entry ∈ db.search, ∃ agent ∈ before ++ [next],
      agent "id" = entry.rowid := by
  intro entry inSearch
  obtain ⟨agent, inAgents, isRowid⟩ := stage.search entry inSearch
  rw [stands] at inAgents
  rcases List.mem_append.mp inAgents with inBefore | isLast
  · exact ⟨agent, List.mem_append_left _ inBefore, isRowid⟩
  · refine ⟨next, List.mem_append_right _ List.mem_cons_self, ?_⟩
    rw [sameId, ← List.mem_singleton.mp isLast]
    exact isRowid

variable (sqlite) in
/-- The last agent is taken out of the index and indexed again. -/
theorem Stage.search_renewed (stage : Stage start contents used db)
    (stands : contents .agents = before ++ [draft]) {next : Record}
    (sameId : next "id" = draft "id") :
    ∀ entry ∈ (db.search.filter fun entry => entry.rowid ≠ next "id") ++
        [searchEntry sqlite next],
      ∃ agent ∈ before ++ [next], agent "id" = entry.rowid := by
  intro entry inSearch
  rcases List.mem_append.mp inSearch with old | isNew
  · exact stage.search_kept stands sameId entry (List.mem_filter.mp old).1
  · rw [List.mem_singleton.mp isNew]
    exact ⟨next, List.mem_append_right _ List.mem_cons_self, rfl⟩

/-- A column of the last row is completed. -/
theorem Stage.update (stage : Stage start contents used db)
    (fits : snapshot.Fits sqlite) (listed : source ∈ TABLES)
    (inRows : row ∈ snapshot.rows source.table)
    (ready : Ready snapshot contents source.table)
    (isLoaded : snapshot.loaded source.table =
      before ++ source.record row :: after)
    (stands : contents source.table = before ++ [draft])
    (isDraft : (schema sqlite).Draft source.table draft (source.record row))
    {name : String} {value : Value}
    (isNext : (schema sqlite).Draft source.table
      (Function.update draft name value) (source.record row))
    (stored : sqlite.store (affinityOf source.table name) value = value)
    (noTransfer : name ≠ "transferred_ledger") :
    ∃ next,
      db.update sqlite source.table name value
          (source.key.map fun name => (name, source.record row name)) =
        .ok next ∧
      Stage start
        (Function.update contents source.table
          (before ++ [Function.update draft name value])) used next := by
  have inTables := mem_listedTables listed
  rw [Database.update, stored, stage.updates fits listed inRows ready isLoaded
    stands isDraft isNext]
  by_cases isAgents : source.table = .agents
  · have inKey : "id" ∈ source.key := by
      rw [agents_key listed isAgents]
      exact List.mem_cons_self
    have sameId : Function.update draft name value "id" = draft "id" :=
      (draft_key listed isNext inKey).trans
        (draft_key listed isDraft inKey).symm
    have standing : contents .agents = before ++ [draft] := isAgents ▸ stands
    have rewritten : Function.update contents source.table
        (before ++ [Function.update draft name value]) .agents =
          before ++ [Function.update draft name value] := by
      rw [← isAgents, Function.update_self]
    by_cases isData : name = "agent_uri_data"
    · have newId : ¬ ∃ entry ∈ db.search.filter fun entry =>
          entry.rowid ≠ Function.update draft name value "id",
          entry.rowid = Function.update draft name value "id" := by
        intro old
        obtain ⟨entry, inSearch, isId⟩ := old
        exact of_decide_eq_true (List.mem_filter.mp inSearch).2 isId
      refine ⟨_, ?_, stage.write inTables
        (rewritten ▸ stage.search_renewed sqlite standing sameId)⟩
      simp only [if_pos (And.intro isAgents isData), List.foldlM_cons,
        List.foldlM_nil, indexAgent, if_neg newId]
      rfl
    · refine ⟨_, ?_, stage.write inTables
        (rewritten ▸ stage.search_kept standing sameId)⟩
      simp only [if_neg fun both : source.table = .agents ∧
        name = "agent_uri_data" => isData both.2,
        if_neg fun both : source.table = .agents ∧
          name = "transferred_ledger" => noTransfer both.2]
  · refine ⟨_, ?_, stage.write_other inTables isAgents _⟩
    simp only [if_neg fun both : source.table = .agents ∧
      name = "agent_uri_data" => isAgents both.1,
      if_neg fun both : source.table = .agents ∧
        name = "transferred_ledger" => isAgents both.1]

end

end Stellar8004.D1
