import Stellar8004.Indexer.ResolverRuns

/-!
# The search index

The triggers of `0001_init.sql` keep `agents_fts` beside the agents, whoever
writes them.  Its rows are the names and descriptions of the documents the
agents have, so that a search finds an agent by the document of its current
URI and by nothing else.
-/

namespace Stellar8004.Indexer

open Program

/-! ## Triggers -/

/-- A row of `agents_fts`. -/
structure SearchRow where
  rowid : Nat
  name : Option String
  description : Option String
  deriving DecidableEq

/-- What SQLite makes of a stored document and of a MATCH.  `extract` is
`CAST(document ->> path AS TEXT)`; it fails where the document is not JSON, or
is nested deeper than SQLite reads. -/
structure SearchEngine where
  extract : (document path : String) → Option (Option String)
  hits : (query : String) → (name description : Option String) → Bool

/-- Why a statement with its triggers has no effect. -/
inductive IndexError where
  | violation (violation : Violation)
  | malformedJson
  | duplicateRowid
  deriving DecidableEq

/-- The values of the `INSERT INTO agents_fts`. -/
def SearchEngine.row (engine : SearchEngine) (id : Nat) :
    (agentUriData : Option String) → Except IndexError SearchRow
  | none => .ok { rowid := id, name := none, description := none }
  | some document =>
      match engine.extract document "$.name",
        engine.extract document "$.description" with
      | some name, some description => .ok { rowid := id, name, description }
      | _, _ => .error .malformedJson

/-- `agents_fts_insert`, for the agent of an id. -/
def agentsFtsInsert (engine : SearchEngine) (tables : Tables) (id : Nat)
    (search : List SearchRow) : Except IndexError (List SearchRow) :=
  match tables.agents id with
  | none => .ok search
  | some agent =>
      match engine.row id agent.agentUriData with
      | .error error => .error error
      | .ok row =>
          if search.any (·.rowid = id) then .error .duplicateRowid
          else .ok (search ++ [row])

/-- `agents_fts_update`. -/
def agentsFtsUpdate (engine : SearchEngine) (tables : Tables) (id : Nat)
    (search : List SearchRow) : Except IndexError (List SearchRow) :=
  agentsFtsInsert engine tables id (search.filter (·.rowid ≠ id))

/-- The triggers on `agents_fts` that a statement of the indexer fires, where
it has changed `count` rows. -/
def fire (engine : SearchEngine) (statement : Statement) (count : Nat)
    (after : Tables) (search : List SearchRow) :
    Except IndexError (List SearchRow) :=
  if count = 0 then .ok search
  else
    match statement with
    | .registered id _ _ _ _ _ _ => agentsFtsInsert engine after id search
    | .uriUpdated _ _ _ id => agentsFtsUpdate engine after id search
    | _ => .ok search

/-- The tables with `agents_fts`. -/
structure Indexed where
  tables : Tables
  search : List SearchRow

namespace Indexed

def empty : Indexed := { tables := Tables.empty, search := [] }

/-- A statement and its triggers, or no effect. -/
def exec (engine : SearchEngine) (defaultTime : String) (db : Indexed)
    (statement : Statement) : Except IndexError (Indexed × Nat) :=
  match db.tables.exec defaultTime statement with
  | .error violation => .error (.violation violation)
  | .ok (tables, count) =>
      match fire engine statement count tables db.search with
      | .error error => .error error
      | .ok search => .ok ({ tables, search }, count)

/-- The statement of the resolver's `store` and its trigger. -/
def storeColumns (engine : SearchEngine) (agent : PendingAgent)
    (columns : StoredDocument) (now : String) (db : Indexed) :
    Except IndexError (Indexed × Nat) :=
  let stored := Resolver.storeColumns agent columns now db.tables
  if stored.2 = 0 then .ok ({ db with tables := stored.1 }, 0)
  else
    match agentsFtsUpdate engine stored.1 agent.id db.search with
    | .error error => .error error
    | .ok search => .ok ({ tables := stored.1, search }, stored.2)

/-- `id IN (SELECT rowid FROM agents_fts WHERE agents_fts MATCH query)`. -/
def finds (engine : SearchEngine) (db : Indexed) (query : String)
    (id : Nat) : Bool :=
  db.search.any fun row =>
    row.rowid = id && engine.hits query row.name row.description

/-- One request of the resolver.  A try is recorded without a trigger. -/
inductive Serves (engine : SearchEngine)
    (waited : String → String → Nat → Bool) (db : Indexed) :
    Exchange resolverHost → Indexed → Prop where
  | other {exchange : Exchange resolverHost} {tables : Tables}
      (notStore : ∀ agent columns now,
        exchange.request ≠ .store agent columns now)
      (served : Resolver.Serves waited db.tables exchange tables) :
      Serves engine waited db exchange { db with tables }
  | stored {agent : PendingAgent} {columns : StoredDocument} {now : String}
      {after : Indexed} {count : Nat}
      (ran : db.storeColumns engine agent columns now = .ok (after, count)) :
      Serves engine waited db ⟨.store agent columns now, .answered count⟩
        after
  | storeFailed (agent : PendingAgent) (columns : StoredDocument)
      (now : String) (error : Thrown) :
      Serves engine waited db ⟨.store agent columns now, .failed error⟩ db
  | storeLost {agent : PendingAgent} {columns : StoredDocument}
      {now : String} {after : Indexed} {count : Nat}
      (ran : db.storeColumns engine agent columns now = .ok (after, count))
      (error : Thrown) :
      Serves engine waited db ⟨.store agent columns now, .lost error⟩ after

/-- A write of the indexer. -/
def Writes (engine : SearchEngine) (runtime : Runtime)
    (db after : Indexed) : Prop :=
  ∃ now packet statement count,
    eventStatement runtime packet now = .ok statement ∧
      db.exec engine now statement = .ok (after, count)

end Indexed

/-! ## What a statement does to the documents -/

/-- A statement of the indexer leaves all documents, adds an agent without
one, or clears the one of an agent; its triggers follow. -/
inductive DocumentEffect (tables after : Tables) (statement : Statement)
    (count : Nat) : Prop where
  | kept
      (same : ∀ id, (after.agents id).map AgentRow.agentUriData =
        (tables.agents id).map AgentRow.agentUriData)
      (quiet : ∀ engine search,
        fire engine statement count after search = .ok search)
  | added {id : Nat} {row : AgentRow} (new : tables.agents id = none)
      (isAfter : after = tables.setAgent id row)
      (blank : row.agentUriData = none)
      (fires : ∀ engine search, fire engine statement count after search =
        agentsFtsInsert engine after id search)
  | cleared {id : Nat} {row : AgentRow}
      (isAfter : after = tables.setAgent id row)
      (blank : row.agentUriData = none)
      (fires : ∀ engine search, fire engine statement count after search =
        agentsFtsUpdate engine after id search)

section

variable {tables after : Tables} {statement : Statement} {count : Nat}
  {defaultTime : String}

theorem DocumentEffect.of_agents (same : after.agents = tables.agents)
    (quiet : ∀ engine search,
      fire engine statement count after search = .ok search) :
    DocumentEffect tables after statement count :=
  .kept (fun id => by rw [same]) quiet

theorem setAgent_documents {id : Nat} {old row : AgentRow}
    (found : tables.agents id = some old)
    (same : row.agentUriData = old.agentUriData) (other : Nat) :
    ((tables.setAgent id row).agents other).map AgentRow.agentUriData =
      (tables.agents other).map AgentRow.agentUriData := by
  rw [Tables.agents_setAgent]
  split
  · rename_i isId
    rw [isId, found, Option.map_some, Option.map_some, same]
  · rfl

theorem exec_documentEffect
    (ran : tables.exec defaultTime statement = .ok (after, count)) :
    DocumentEffect tables after statement count := by
  cases statement with
  | registered id owner uri pending createdAt createdLedger txHash =>
      simp only [Tables.exec] at ran
      split at ran
      · cases ran
      · split at ran <;> cases ran
        · exact .of_agents rfl fun _ _ => rfl
        · rename_i new
          exact .added new rfl rfl fun _ _ => rfl
  | uriUpdated newUri ledger now id =>
      simp only [Tables.exec] at ran
      split at ran
      · cases ran
        exact .of_agents rfl fun _ _ => rfl
      · split at ran <;> cases ran
        · exact .cleared rfl rfl fun _ _ => rfl
        · exact .of_agents rfl fun _ _ => rfl
  | metadataSet agentId key value =>
      simp only [Tables.exec] at ran
      split at ran <;> cases ran
      exact .of_agents rfl fun _ _ => rfl
  | walletSet wallet now id =>
      simp only [Tables.exec] at ran
      split at ran
      · cases ran
        exact .of_agents rfl fun _ _ => rfl
      · rename_i row found
        split at ran <;> cases ran
        exact .kept (setAgent_documents found rfl) fun _ _ => rfl
  | transferred owner ledger now id =>
      simp only [Tables.exec] at ran
      split at ran
      · cases ran
        exact .of_agents rfl fun _ _ => rfl
      · rename_i row found
        split at ran
        · split at ran <;> cases ran
          exact .kept (setAgent_documents found rfl) fun _ _ => rfl
        · cases ran
          exact .of_agents rfl fun _ _ => rfl
  | newFeedback agentId client index value decimals tag1 tag2 endpoint uri
      hash createdAt createdLedger txHash =>
      simp only [Tables.exec] at ran
      split at ran
      · cases ran
      split at ran
      · cases ran
      split at ran
      · cases ran
      split at ran
      · cases ran
      split at ran
      · cases ran
        exact .of_agents rfl fun _ _ => rfl
      · split at ran <;> cases ran
        exact .of_agents rfl fun _ _ => rfl
  | feedbackRevoked ledger agentId client index =>
      simp only [Tables.exec] at ran
      split at ran
      · cases ran
        exact .of_agents rfl fun _ _ => rfl
      · split at ran <;> cases ran
        · exact .of_agents rfl fun _ _ => rfl
        · exact .of_agents rfl fun _ _ => rfl
  | responseAppended agentId client index responder uri hash createdAt txHash
      eventId =>
      simp only [Tables.exec] at ran
      split at ran
      · cases ran
      split at ran
      · cases ran
      split at ran
      · cases ran
        exact .of_agents rfl fun _ _ => rfl
      · split at ran <;> cases ran
        exact .of_agents rfl fun _ _ => rfl
  | validationRequest requestHash agentId validator uri createdAt txHash =>
      simp only [Tables.exec] at ran
      split at ran
      · cases ran
      split at ran
      · cases ran
        exact .of_agents rfl fun _ _ => rfl
      · split at ran <;> cases ran
        exact .of_agents rfl fun _ _ => rfl
  | validationResponse response uri hash tag respondedAt txHash ledger
      requestHash =>
      simp only [Tables.exec] at ran
      split at ran
      · cases ran
        exact .of_agents rfl fun _ _ => rfl
      · split at ran
        · split at ran <;> cases ran
          exact .of_agents rfl fun _ _ => rfl
        · cases ran
          exact .of_agents rfl fun _ _ => rfl

end

/-! ## The index agrees with the agents -/

/-- The rows of `agents_fts` an agent should have. -/
def SearchEngine.rows (engine : SearchEngine) (tables : Tables) (id : Nat) :
    List (Except IndexError SearchRow) :=
  (tables.agents id).toList.map fun agent =>
    engine.row id agent.agentUriData

/-- Each agent has its one row in the index, and the index has no others. -/
def Indexed.Agrees (engine : SearchEngine) (db : Indexed) : Prop :=
  ∀ id, (db.search.filter (·.rowid = id)).map Except.ok =
    engine.rows db.tables id

section

variable {engine : SearchEngine} {db : Indexed} {tables : Tables} {id : Nat}
  {search : List SearchRow}

theorem rowid_row {agentUriData : Option String} {row : SearchRow}
    (isRow : engine.row id agentUriData = .ok row) : row.rowid = id := by
  cases agentUriData with
  | none =>
      cases isRow
      rfl
  | some document =>
      simp only [SearchEngine.row] at isRow
      split at isRow
      · cases isRow
        rfl
      · cases isRow

theorem rows_congr {after : Tables}
    (same : (after.agents id).map AgentRow.agentUriData =
      (tables.agents id).map AgentRow.agentUriData) :
    engine.rows after id = engine.rows tables id := by
  unfold SearchEngine.rows
  cases isAfter : after.agents id with
  | none =>
      rw [isAfter, Option.map_none, eq_comm, Option.map_eq_none_iff] at same
      rw [same]
  | some row =>
      rw [isAfter, Option.map_some, eq_comm, Option.map_eq_some_iff] at same
      obtain ⟨other, isBefore, isData⟩ := same
      rw [isBefore]
      simp only [Option.toList_some, List.map_cons, List.map_nil, isData]

theorem rows_setAgent_ne {other : Nat} (different : other ≠ id)
    (row : AgentRow) : engine.rows (tables.setAgent id row) other =
      engine.rows tables other := by
  apply rows_congr
  rw [Tables.agents_setAgent, if_neg different]

theorem rows_setAgent (row : AgentRow) :
    engine.rows (tables.setAgent id row) id =
      [engine.row id row.agentUriData] := by
  unfold SearchEngine.rows
  rw [Tables.agents_setAgent, if_pos rfl]
  rfl

/-- The trigger puts in the row of the agent. -/
theorem agentsFtsInsert_ok {row : AgentRow} {entry : SearchRow}
    (isEntry : engine.row id row.agentUriData = .ok entry)
    (absent : search.filter (·.rowid = id) = []) :
    agentsFtsInsert engine (tables.setAgent id row) id search =
      .ok (search ++ [entry]) := by
  have none : search.any (·.rowid = id) = false := by
    rw [List.any_eq_false]
    intro other member
    exact List.filter_eq_nil_iff.mp absent other member
  unfold agentsFtsInsert
  rw [Tables.agents_setAgent, if_pos rfl]
  dsimp only
  rw [isEntry]
  dsimp only
  rw [none, if_neg Bool.false_ne_true]

theorem filter_removed (search : List SearchRow) (id : Nat) :
    (search.filter (·.rowid ≠ id)).filter (·.rowid = id) = [] := by
  rw [List.filter_filter, List.filter_eq_nil_iff]
  intro row _
  simp

/-- An agent whose row is put in anew agrees again. -/
theorem Indexed.Agrees.put {row : AgentRow} {entry : SearchRow}
    (others : ∀ other, other ≠ id →
      (search.filter (·.rowid = other)).map Except.ok =
        engine.rows tables other)
    (isEntry : engine.row id row.agentUriData = .ok entry)
    (absent : search.filter (·.rowid = id) = []) :
    Indexed.Agrees engine
      { tables := tables.setAgent id row, search := search ++ [entry] } := by
  intro other
  have isId := rowid_row isEntry
  dsimp only
  rw [List.filter_append]
  by_cases same : other = id
  · subst same
    rw [absent, rows_setAgent, isEntry,
      List.filter_cons_of_pos (by simpa using isId)]
    rfl
  · rw [List.filter_cons_of_neg (by simpa [isId] using Ne.symm same),
      List.filter_nil, List.append_nil, rows_setAgent_ne same]
    exact others other same

theorem Indexed.Agrees.removed (agrees : db.Agrees engine) {other : Nat}
    (different : other ≠ id) :
    ((db.search.filter (·.rowid ≠ id)).filter (·.rowid = other)).map
      Except.ok = engine.rows db.tables other := by
  rw [← agrees other, List.filter_filter]
  congr 1
  apply List.filter_congr
  intro row _
  by_cases isOther : row.rowid = other
  · simp [isOther, different]
  · simp [isOther]

/-- An agent that had no row, or whose row is removed first. -/
theorem Indexed.Agrees.added (agrees : db.Agrees engine)
    (new : db.tables.agents id = none) {row : AgentRow} {entry : SearchRow}
    (isEntry : engine.row id row.agentUriData = .ok entry) :
    ∃ search, agentsFtsInsert engine (db.tables.setAgent id row) id
        db.search = .ok search ∧
      Indexed.Agrees engine
        { tables := db.tables.setAgent id row, search } := by
  have absent : db.search.filter (·.rowid = id) = [] := by
    have none := agrees id
    unfold SearchEngine.rows at none
    rw [new] at none
    exact List.map_eq_nil_iff.mp none
  exact ⟨_, agentsFtsInsert_ok isEntry absent,
    .put (fun other _ => agrees other) isEntry absent⟩

theorem Indexed.Agrees.updated (agrees : db.Agrees engine) {row : AgentRow}
    {entry : SearchRow}
    (isEntry : engine.row id row.agentUriData = .ok entry) :
    ∃ search, agentsFtsUpdate engine (db.tables.setAgent id row) id
        db.search = .ok search ∧
      Indexed.Agrees engine
        { tables := db.tables.setAgent id row, search } := by
  have absent := filter_removed db.search id
  exact ⟨_, agentsFtsInsert_ok isEntry absent,
    .put (fun _ different => agrees.removed different) isEntry absent⟩

theorem Indexed.Agrees.kept (agrees : db.Agrees engine)
    (same : ∀ id, (tables.agents id).map AgentRow.agentUriData =
      (db.tables.agents id).map AgentRow.agentUriData) :
    Indexed.Agrees engine { db with tables } :=
  fun id => (agrees id).trans (rows_congr (same id)).symm

/-- The triggers never refuse a statement of the indexer, and leave the index
in agreement. -/
theorem Indexed.Agrees.exec (agrees : db.Agrees engine) {defaultTime : String}
    {statement : Statement} {count : Nat}
    (ran : db.tables.exec defaultTime statement = .ok (tables, count)) :
    ∃ search, db.exec engine defaultTime statement =
        .ok ({ tables, search }, count) ∧
      Indexed.Agrees engine { tables, search } := by
  have blankRow : ∀ {id : Nat} {row : AgentRow}, row.agentUriData = none →
      engine.row id row.agentUriData =
        .ok { rowid := id, name := none, description := none } := by
    intro id row blank
    rw [blank]
    rfl
  have executes : ∀ search,
      fire engine statement count tables db.search = .ok search →
        db.exec engine defaultTime statement =
          .ok ({ tables, search }, count) := by
    intro search fired
    unfold Indexed.exec
    rw [ran]
    dsimp only
    rw [fired]
  cases exec_documentEffect ran with
  | kept same quiet =>
      exact ⟨db.search, executes _ (quiet engine db.search),
        agrees.kept same⟩
  | added new isAfter blank fires =>
      subst isAfter
      obtain ⟨search, inserted, after⟩ := agrees.added new (blankRow blank)
      exact ⟨search, executes _ ((fires engine db.search).trans inserted),
        after⟩
  | cleared isAfter blank fires =>
      subst isAfter
      obtain ⟨search, updated, after⟩ := agrees.updated (blankRow blank)
      exact ⟨search, executes _ ((fires engine db.search).trans updated),
        after⟩

theorem exec_tables {defaultTime : String} {statement : Statement}
    {after : Indexed} {count : Nat}
    (ran : db.exec engine defaultTime statement = .ok (after, count)) :
    db.tables.exec defaultTime statement = .ok (after.tables, count) := by
  unfold Indexed.exec at ran
  split at ran
  · cases ran
  · rename_i inside
    split at ran
    · cases ran
    · cases ran
      exact inside

theorem Indexed.Agrees.write (agrees : db.Agrees engine) {runtime : Runtime}
    {after : Indexed} (writes : db.Writes engine runtime after) :
    after.Agrees engine ∧ Resolver.Writes runtime db.tables after.tables := by
  obtain ⟨now, packet, statement, count, bound, ran⟩ := writes
  obtain ⟨tables, search⟩ := after
  have inside := exec_tables ran
  obtain ⟨other, again, agreesAfter⟩ := agrees.exec inside
  rw [ran] at again
  cases again
  exact ⟨agreesAfter, now, packet,
    writePacket_ok_iff.mpr ⟨statement, count, bound, inside⟩⟩

/-! ## The resolver -/

/-- The statement of `store` leaves all rows or that of the agent alone. -/
theorem storeColumns_eq (agent : PendingAgent) (columns : StoredDocument)
    (now : String) (tables : Tables) :
    Resolver.storeColumns agent columns now tables = (tables, 0) ∨
      ∃ row, Resolver.storeColumns agent columns now tables =
        (tables.setAgent agent.id row, 1) := by
  unfold Resolver.storeColumns
  split
  · exact .inl rfl
  · split
    · exact .inr ⟨_, rfl⟩
    · exact .inl rfl

theorem Indexed.Agrees.storeColumns (agrees : db.Agrees engine)
    {agent : PendingAgent} {columns : StoredDocument} {now : String}
    {after : Indexed} {count : Nat}
    (ran : db.storeColumns engine agent columns now = .ok (after, count)) :
    after.Agrees engine ∧
      Resolver.storeColumns agent columns now db.tables =
        (after.tables, count) := by
  unfold Indexed.storeColumns at ran
  rcases storeColumns_eq agent columns now db.tables with
    unchanged | ⟨row, changed⟩
  · rw [unchanged] at ran ⊢
    cases ran
    exact ⟨agrees, rfl⟩
  · rw [changed] at ran ⊢
    dsimp only at ran
    rw [if_neg Nat.one_ne_zero] at ran
    split at ran
    · cases ran
    · rename_i search updated
      cases ran
      refine ⟨?_, rfl⟩
      cases isEntry : engine.row agent.id row.agentUriData with
      | error error =>
          unfold agentsFtsUpdate agentsFtsInsert at updated
          rw [Tables.agents_setAgent, if_pos rfl] at updated
          dsimp only at updated
          rw [isEntry] at updated
          cases updated
      | ok entry =>
          obtain ⟨other, again, agreesAfter⟩ := agrees.updated isEntry
          rw [updated] at again
          cases again
          exact agreesAfter

theorem recordTry_documents (triedAt : String) (tables : Tables)
    (agent : PendingAgent) (id : Nat) :
    ((Resolver.recordTry triedAt tables agent).agents id).map
      AgentRow.agentUriData =
        (tables.agents id).map AgentRow.agentUriData := by
  unfold Resolver.recordTry
  split
  · rfl
  · rename_i row found
    split
    · refine setAgent_documents found ?_ id
      rfl
    · rfl

theorem recordTries_documents (triedAt : String) (round : List PendingAgent)
    (tables : Tables) (id : Nat) :
    ((round.foldl (Resolver.recordTry triedAt) tables).agents id).map
      AgentRow.agentUriData =
        (tables.agents id).map AgentRow.agentUriData := by
  induction round generalizing tables with
  | nil => rfl
  | cons agent round induction =>
      exact (induction _).trans (recordTry_documents triedAt tables agent id)

theorem Indexed.Agrees.exchange (agrees : db.Agrees engine)
    {waited : String → String → Nat → Bool}
    {exchange : Exchange resolverHost} {after : Indexed}
    (served : db.Serves engine waited exchange after) :
    after.Agrees engine ∧
      Resolver.Serves waited db.tables exchange after.tables := by
  cases served with
  | other notStore served =>
      refine ⟨?_, served⟩
      cases served with
      | recorded triedAt round =>
          exact agrees.kept (recordTries_documents triedAt round db.tables)
      | recordLost triedAt round error =>
          exact agrees.kept (recordTries_documents triedAt round db.tables)
      | stored agent columns now =>
          exact absurd rfl (notStore agent columns now)
      | storeLost agent columns now error =>
          exact absurd rfl (notStore agent columns now)
      | _ => exact agrees
  | @stored agent columns now after count ran =>
      obtain ⟨agreesAfter, inside⟩ := agrees.storeColumns ran
      have served : Resolver.Serves waited db.tables
          ⟨.store agent columns now, .answered (Resolver.storeColumns agent
            columns now db.tables).2⟩
          (Resolver.storeColumns agent columns now db.tables).1 :=
        .stored agent columns now
      rw [inside] at served
      exact ⟨agreesAfter, served⟩
  | storeFailed agent columns now error =>
      exact ⟨agrees, .storeFailed agent columns now error⟩
  | @storeLost agent columns now after count ran error =>
      obtain ⟨agreesAfter, inside⟩ := agrees.storeColumns ran
      have served : Resolver.Serves waited db.tables
          ⟨.store agent columns now, .lost error⟩
          (Resolver.storeColumns agent columns now db.tables).1 :=
        .storeLost agent columns now error
      rw [inside] at served
      exact ⟨agreesAfter, served⟩

/-! ## Searches -/

theorem Indexed.Agrees.finds_iff (agrees : db.Agrees engine) (query : String)
    (id : Nat) :
    db.finds engine query id = true ↔
      ∃ agent row, db.tables.agents id = some agent ∧
        engine.row id agent.agentUriData = .ok row ∧
        engine.hits query row.name row.description = true := by
  unfold Indexed.finds
  rw [List.any_eq_true]
  constructor
  · rintro ⟨row, member, both⟩
    rw [Bool.and_eq_true, decide_eq_true_eq] at both
    have inside : Except.ok row ∈ engine.rows db.tables id := by
      rw [← agrees id]
      exact List.mem_map_of_mem (List.mem_filter.mpr
        ⟨member, decide_eq_true both.1⟩)
    obtain ⟨agent, isAgent, isRow⟩ := List.mem_map.mp inside
    exact ⟨agent, row, Option.mem_toList.mp isAgent, isRow, both.2⟩
  · rintro ⟨agent, row, isAgent, isRow, hit⟩
    have inside : Except.ok row ∈ engine.rows db.tables id :=
      List.mem_map.mpr ⟨agent, Option.mem_toList.mpr isAgent, isRow⟩
    rw [← agrees id] at inside
    obtain ⟨found, member, isFound⟩ := List.mem_map.mp inside
    cases isFound
    obtain ⟨member, isId⟩ := List.mem_filter.mp member
    exact ⟨row, member, by rw [isId, hit]; rfl⟩

/-- Over any interleaving of resolver runs with the indexer's writes, a text
search finds the agents whose current URI was answered with a document whose
name and description it matches, and no others; and the triggers that keep
the index refuse no statement of the indexer. -/
theorem search_finds_current_documents {ι : Type*} [DecidableEq ι]
    (blank : ∀ query, engine.hits query none none = false)
    {waited : String → String → Nat → Bool} {runtime : Runtime}
    {log : List (ι × Exchange resolverHost)}
    (run : Interleaved (fun _ : ι => Resolver.resolvePending)
      (Indexed.Serves engine waited) (Indexed.Writes engine runtime)
      Indexed.empty log db) :
    (∀ query id, db.finds engine query id = true ↔
      ∃ agent uri document name description,
        db.tables.agents id = some agent ∧ agent.agentUri = some uri ∧
        Resolver.Returned log uri document ∧
        agent.agentUriData = some document.stringify ∧
        engine.extract document.stringify "$.name" = some name ∧
        engine.extract document.stringify "$.description" =
          some description ∧
        engine.hits query name description = true) ∧
    ∀ defaultTime statement tables count,
      db.tables.exec defaultTime statement = .ok (tables, count) →
        ∃ search, db.exec engine defaultTime statement =
          .ok ({ tables, search }, count) := by
  have holds : Resolver.Holds log db.tables ∧ db.Agrees engine := by
    apply run.invariant (fun _ => Resolver.Permitted)
      (fun _ => Resolver.resolvePending_ensures) (fun _ => trivial)
      fun log db => Resolver.Holds log db.tables ∧ db.Agrees engine
    · exact ⟨⟨fun _ _ found => (nomatch found), fun _ _ _ none =>
        (nomatch none)⟩, fun _ => rfl⟩
    · rintro log db after thread exchange ⟨held, agrees⟩ permitted served
      obtain ⟨agreesAfter, inside⟩ := agrees.exchange served
      exact ⟨held.exchange permitted inside, agreesAfter⟩
    · rintro log db after ⟨held, agrees⟩ writes
      obtain ⟨agreesAfter, inside⟩ := agrees.write writes
      exact ⟨held.write inside, agreesAfter⟩
  obtain ⟨held, agrees⟩ := holds
  constructor
  · intro query id
    rw [agrees.finds_iff]
    constructor
    · rintro ⟨agent, row, isAgent, isRow, hit⟩
      rcases (held.rows id agent isAgent).document with
        undocumented | ⟨uri, document, isUri, returned, documented⟩
      · rw [undocumented.1] at isRow
        cases isRow
        rw [blank] at hit
        cases hit
      · rw [documented.1] at isRow
        simp only [SearchEngine.row] at isRow
        split at isRow
        · rename_i name description isName isDescription
          cases isRow
          exact ⟨agent, uri, document, name, description, isAgent, isUri,
            returned, documented.1, isName, isDescription, hit⟩
        · cases isRow
    · rintro ⟨agent, uri, document, name, description, isAgent, isUri,
        returned, isData, isName, isDescription, hit⟩
      refine ⟨agent, { rowid := id, name, description }, isAgent, ?_, hit⟩
      simp only [isData, SearchEngine.row, isName, isDescription]
  · intro defaultTime statement tables count ran
    obtain ⟨search, executed, _⟩ := agrees.exec ran
    exact ⟨search, executed⟩

end

/-! ## An agent that is found -/

private def namedAgent : PendingAgent :=
  { id := 0, agentUri := "u", uriResolveAttempts := 0 }

private def namedPacket : EventPacket :=
  { id := "1", contract := .identity
    data := .registered
      { ledger := 1, ledgerClosedAt := "2026-01-01T00:00:00Z", txHash := "tx"
        agentId := 0, owner := "G", agentUri := "u" } }

private def namedDocument : Json := .object [("name", .text "Saturn")]

/-- Reads the one document, and matches names that are the query. -/
private def nameEngine : SearchEngine where
  extract _ path := some (if path = "$.name" then some "Saturn" else none)
  hits query name _ := name = some query

private def namedAnswer : (request : ResolveRequest) → request.Answer
  | .now => "t"
  | .inTime => true
  | .selectPending _ => .ok [namedAgent]
  | .recordTries _ _ => .answered ()
  | .resolve _ => .document namedDocument
  | .store _ _ _ => .answered 1

private def namedRow : AgentRow :=
  Tables.newAgent "G" "u" true (storedTime "2026-01-01T00:00:00Z") 1 "tx" "t"

private def blankDb : Indexed :=
  { tables := Tables.empty.setAgent 0 namedRow
    search := [{ rowid := 0, name := none, description := none }] }

private def triedDb : Indexed :=
  { blankDb with tables := Resolver.recordTry "t" blankDb.tables namedAgent }

private def foundDb : Indexed :=
  { tables := (Resolver.storeColumns namedAgent
      (Resolver.columnsOf namedDocument) "t" triedDb.tables).1
    search := [{ rowid := 0, name := some "Saturn", description := none }] }

private theorem blankDb_selects :
    Resolver.Selects (fun _ _ _ => true) blankDb.tables "t" [namedAgent] where
  pending agent member := by
    cases List.mem_singleton.mp member
    exact ⟨namedRow, rfl, ⟨rfl, rfl, ⟨"u", rfl, by decide⟩, by decide,
      .inl rfl⟩, rfl, rfl⟩
  distinct := List.nodup_singleton _
  limited := by decide
  ordered := List.pairwise_singleton _ _
  complete id row found _ := by
    left
    by_cases same : id = 0
    · exact List.mem_singleton.mpr same
    · simp [blankDb, same, Tables.empty] at found

private def namedTrace : List (Exchange resolverHost) :=
  (Resolver.resolvePending.answeredBy namedAnswer).1

private theorem namedTrace_served :
    Served (Indexed.Serves nameEngine fun _ _ _ => true) blankDb namedTrace
      foundDb := by
  have other : ∀ {db : Indexed} {exchange : Exchange resolverHost}
      {tables : Tables}, (∀ agent columns now,
        exchange.request ≠ .store agent columns now) →
      Resolver.Serves (fun _ _ _ => true) db.tables exchange tables →
      Indexed.Serves nameEngine (fun _ _ _ => true) db exchange
        { db with tables } := Indexed.Serves.other
  refine .cons (other (by simp) (.now "t"))
    (.cons (other (by simp) (.selected blankDb_selects))
      (.cons (other (by simp) (.inTime true))
        (.cons (other (by simp) (.now "t"))
          (.cons (other (by simp) (.recorded "t" [namedAgent]))
            (.cons (other (by simp) (.resolved "u" (.document namedDocument)))
              (.cons (other (by simp) (.now "t"))
                (.cons (.stored ?_) (.nil _))))))))
  rfl

theorem search_finds_current_documents_named :
    ∃ (log : List (Unit × Exchange resolverHost)) (db : Indexed),
      Interleaved (fun _ : Unit => Resolver.resolvePending)
        (Indexed.Serves nameEngine fun _ _ _ => true)
        (Indexed.Writes nameEngine
          { parseDate := fun _ => none, callDepth := 0 })
        Indexed.empty log db ∧
      db.finds nameEngine "Saturn" 0 = true ∧
      ∃ agent uri document, db.tables.agents 0 = some agent ∧
        agent.agentUri = some uri ∧
        Resolver.Returned log uri document := by
  have registered : Interleaved (fun _ : Unit => Resolver.resolvePending)
      (Indexed.Serves nameEngine fun _ _ _ => true)
      (Indexed.Writes nameEngine
        { parseDate := fun _ => none, callDepth := 0 })
      Indexed.empty [] blankDb :=
    .moved .start ⟨"t", namedPacket, _, 1, rfl, rfl⟩
  have yields : Yields Resolver.resolvePending
      (ofThread () ([] : List (Unit × Exchange resolverHost)) ++
        namedTrace) none := by
    have whole := yields_answeredBy namedAnswer Resolver.resolvePending
    rw [← List.append_nil (Resolver.resolvePending.answeredBy namedAnswer).1]
      at whole
    exact whole.of_append
  have found := registered.extend () yields namedTrace_served
  refine ⟨_, foundDb, found, rfl, ?_⟩
  have searched := (search_finds_current_documents (fun _ => rfl) found).1
    "Saturn" 0
  obtain ⟨agent, uri, document, name, description, isAgent, isUri, returned,
    _⟩ := searched.mp rfl
  exact ⟨agent, uri, document, isAgent, isUri, returned⟩

end Stellar8004.Indexer
