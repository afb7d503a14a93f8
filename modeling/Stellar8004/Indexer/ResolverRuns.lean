import Stellar8004.Indexer.CellRefinement
import Stellar8004.Indexer.Resolver
import Stellar8004.Library.Threads

/-!
# Resolvers and the indexer on one table

Any number of `resolvePending` runs share the agents with the indexer's
writes.  A document is stored under the URI it was fetched for, so whatever
happens to the URI meanwhile, every row holds a document of its own URI or
none.
-/

namespace Stellar8004.Indexer

open Program

namespace Resolver

/-! ## Statements -/

/-- The WHERE clause of the selection.  `waited` compares two times through
`julianday`, which is floating-point: at least `2^attempts` minutes apart. -/
def IsPending (waited : String → String → Nat → Bool) (now : String)
    (row : AgentRow) : Prop :=
  row.resolveUriPending = true ∧ row.agentUriData = none ∧
    (∃ uri, row.agentUri = some uri ∧ uri ≠ "") ∧
    row.uriResolveAttempts < MAX_ATTEMPTS ∧
    (row.uriResolveAttempts = 0 ∨ row.lastResolveAttemptAt = none ∨
      ∃ last, row.lastResolveAttemptAt = some last ∧
        waited now last row.uriResolveAttempts = true)

/-- `ORDER BY last_resolve_attempt_at, created_at`, nulls first. -/
def QueuedBefore (left right : AgentRow) : Prop :=
  match left.lastResolveAttemptAt, right.lastResolveAttemptAt with
  | none, none => left.createdAt ≤ right.createdAt
  | none, some _ => True
  | some _, none => False
  | some first, some second =>
      first < second ∨ first = second ∧ left.createdAt ≤ right.createdAt

/-- What the selection may answer: the first pending rows in their order. -/
structure Selects (waited : String → String → Nat → Bool) (tables : Tables)
    (now : String) (agents : List PendingAgent) : Prop where
  pending : ∀ agent ∈ agents, ∃ row, tables.agents agent.id = some row ∧
    IsPending waited now row ∧ row.agentUri = some agent.agentUri ∧
    row.uriResolveAttempts = agent.uriResolveAttempts
  distinct : (agents.map PendingAgent.id).Nodup
  limited : agents.length ≤ RESOLVE_LIMIT
  ordered : agents.Pairwise fun left right => ∀ first second,
    tables.agents left.id = some first →
      tables.agents right.id = some second → QueuedBefore first second
  complete : ∀ id row, tables.agents id = some row →
    IsPending waited now row → id ∈ agents.map PendingAgent.id ∨
      agents.length = RESOLVE_LIMIT ∧ ∀ agent ∈ agents, ∀ other,
        tables.agents agent.id = some other → QueuedBefore other row

/-- One statement of the batch that records a try. -/
def recordTry (triedAt : String) (tables : Tables) (agent : PendingAgent) :
    Tables :=
  match tables.agents agent.id with
  | none => tables
  | some row =>
      if row.agentUri = some agent.agentUri then
        tables.setAgent agent.id
          { row with
            uriResolveAttempts := agent.uriResolveAttempts + 1
            resolveUriPending := agent.uriResolveAttempts + 1 < MAX_ATTEMPTS
            lastResolveAttemptAt := some triedAt, updatedAt := triedAt }
      else tables

/-- The statement of `store`, and the number of rows it changes. -/
def storeColumns (agent : PendingAgent) (columns : StoredDocument)
    (now : String) (tables : Tables) : Tables × Nat :=
  match tables.agents agent.id with
  | none => (tables, 0)
  | some row =>
      if row.agentUri = some agent.agentUri then
        (tables.setAgent agent.id
          { row with
            agentUriData := some columns.data
            supportedTrust := columns.trust, services := columns.services
            x402Enabled := columns.x402, mppEnabled := columns.mpp
            uriResolveAttempts := 0, resolveUriPending := false
            updatedAt := now }, 1)
      else (tables, 0)

/-- One request against the tables.  A write that fails has no effect, one
whose answer is lost has taken effect. -/
inductive Serves (waited : String → String → Nat → Bool) (tables : Tables) :
    Exchange resolverHost → Tables → Prop where
  | now (time : String) : Serves waited tables ⟨.now, time⟩ tables
  | inTime (before : Bool) : Serves waited tables ⟨.inTime, before⟩ tables
  | selected {now : String} {agents : List PendingAgent}
      (selects : Selects waited tables now agents) :
      Serves waited tables ⟨.selectPending now, .ok agents⟩ tables
  | selectFailed (now : String) (error : Thrown) :
      Serves waited tables ⟨.selectPending now, .error error⟩ tables
  | recorded (triedAt : String) (round : List PendingAgent) :
      Serves waited tables ⟨.recordTries triedAt round, .answered ()⟩
        (round.foldl (recordTry triedAt) tables)
  | recordFailed (triedAt : String) (round : List PendingAgent)
      (error : Thrown) :
      Serves waited tables ⟨.recordTries triedAt round, .failed error⟩ tables
  | recordLost (triedAt : String) (round : List PendingAgent)
      (error : Thrown) :
      Serves waited tables ⟨.recordTries triedAt round, .lost error⟩
        (round.foldl (recordTry triedAt) tables)
  | resolved (uri : String) (fetched : Fetched) :
      Serves waited tables ⟨.resolve uri, fetched⟩ tables
  | stored (agent : PendingAgent) (columns : StoredDocument)
      (now : String) :
      Serves waited tables
        ⟨.store agent columns now,
          .answered (storeColumns agent columns now tables).2⟩
        (storeColumns agent columns now tables).1
  | storeFailed (agent : PendingAgent) (columns : StoredDocument)
      (now : String) (error : Thrown) :
      Serves waited tables ⟨.store agent columns now, .failed error⟩ tables
  | storeLost (agent : PendingAgent) (columns : StoredDocument)
      (now : String) (error : Thrown) :
      Serves waited tables ⟨.store agent columns now, .lost error⟩
        (storeColumns agent columns now tables).1

/-- A write of the indexer. -/
def Writes (runtime : Runtime) (tables after : Tables) : Prop :=
  ∃ now packet, writePacket runtime now tables packet = .ok after

/-! ## What a run exchanges -/

/-- Tries are recorded of agents the run has selected, and documents stored
that it has fetched for the agent's URI. -/
def Permitted (past : List (Exchange resolverHost))
    (exchange : Exchange resolverHost) : Prop :=
  match exchange.request with
  | .recordTries _ round => ∃ now agents,
      (⟨.selectPending now, .ok agents⟩ : Exchange resolverHost) ∈ past ∧
        ∀ agent ∈ round, agent ∈ agents
  | .store agent columns _ => ∃ document,
      (⟨.resolve agent.agentUri, .document document⟩ :
        Exchange resolverHost) ∈ past ∧ columns = columnsOf document
  | _ => True

/-- Everything the host may answer. -/
def Anything (_ : List (Exchange resolverHost))
    (_ : Exchange resolverHost) : Prop :=
  True

section

variable {past : List (Exchange resolverHost)}

/-- Each document comes with the exchange that fetched it. -/
def FetchedIn (documents : List (PendingAgent × Fetched))
    (past : List (Exchange resolverHost)) : Prop :=
  ∀ entry ∈ documents,
    (⟨.resolve entry.1.agentUri, entry.2⟩ : Exchange resolverHost) ∈ past

theorem fetchAll_ensures (round : List PendingAgent) :
    (fetchAll round).Ensures Anything Permitted past fun final now =>
      ∃ documents, final = .returned documents ∧
        FetchedIn documents now := by
  induction round generalizing past with
  | nil => exact ⟨[], rfl, fun entry member => nomatch member⟩
  | cons agent round induction =>
      rw [fetchAll, bind_eq, call_bind]
      intro (fetched : Fetched) _
      refine ⟨trivial, induction.bind ?_ ?_ ?_⟩
      · rintro rest later ⟨_, ⟨⟩, found⟩
        refine ⟨_, rfl, fun entry member => ?_⟩
        rcases List.mem_cons.mp member with rfl | inside
        · simp
        · exact found entry inside
      · rintro error later ⟨_, impossible, _⟩
        cases impossible
      · rintro later ⟨_, impossible, _⟩
        cases impossible

theorem store_ensures (agent : PendingAgent) {fetched : Fetched}
    (found : (⟨.resolve agent.agentUri, fetched⟩ : Exchange resolverHost) ∈
      past) (now : String) :
    (store agent fetched now).Ensures Anything Permitted past
      fun final _ => ∃ stored, final = .returned stored := by
  cases fetched with
  | nothing => exact ⟨_, rfl⟩
  | unwritable => exact ⟨_, rfl⟩
  | document document =>
      unfold store
      split
      · exact ⟨_, rfl⟩
      · exact ⟨_, rfl⟩
      · exact ⟨_, rfl⟩
      · rename_i value _ isDocument
        cases isDocument
        dsimp only
        split
        · exact ⟨_, rfl⟩
        · rw [bind_eq, call_bind]
          intro (reply : Reply Nat) _
          refine ⟨⟨_, found, rfl⟩, ?_⟩
          cases answer : reply.result with
          | ok changes =>
              simp only [answer]
              exact ⟨_, rfl⟩
          | error error =>
              simp only [answer]
              exact ⟨_, rfl⟩

theorem storeAll_ensures {documents : List (PendingAgent × Fetched)}
    (found : FetchedIn documents past) (result : ResolveResult) :
    (storeAll documents result).Ensures Anything Permitted past
      fun final _ => ∃ result, final = .returned result := by
  induction documents generalizing past result with
  | nil => exact ⟨_, rfl⟩
  | cons entry documents induction =>
      obtain ⟨agent, fetched⟩ := entry
      rw [storeAll, bind_eq, call_bind]
      intro (now : String) _
      refine ⟨trivial, ?_⟩
      have first := found (agent, fetched) List.mem_cons_self
      refine (store_ensures agent (List.mem_append_left _ first) now).bind
        ?_ ?_ ?_
      · rintro stored later _
        have rest : FetchedIn documents
            (past ++ [⟨.now, now⟩] ++ later) := fun entry member =>
          List.mem_append_left _ (List.mem_append_left _
            (found entry (List.mem_cons_of_mem _ member)))
        dsimp only
        split
        · exact induction rest _
        · split
          · exact induction rest _
          · exact induction rest _
      · rintro error later ⟨_, impossible⟩
        cases impossible
      · rintro later ⟨_, impossible⟩
        cases impossible

theorem resolveRounds_ensures {now : String} {agents : List PendingAgent}
    (selected : (⟨.selectPending now, .ok agents⟩ :
      Exchange resolverHost) ∈ past) (rounds : Nat)
    {left : List PendingAgent} (inside : ∀ agent ∈ left, agent ∈ agents)
    (result : ResolveResult) :
    (resolveRounds rounds left result).Ensures Anything Permitted past
      fun _ _ => True := by
  induction rounds generalizing past left result with
  | zero => trivial
  | succ rounds induction =>
      unfold resolveRounds
      split
      · trivial
      rw [bind_eq, call_bind]
      intro (inTime : Bool) _
      refine ⟨trivial, ?_⟩
      dsimp only
      split
      · rw [bind_eq, call_bind]
        intro (triedAt : String) _
        refine ⟨trivial, ?_⟩
        dsimp only
        rw [bind_eq, call_bind]
        intro (reply : Reply Unit) _
        refine ⟨⟨now, agents, by simp [selected], fun agent member =>
          inside agent (List.mem_of_mem_take member)⟩, ?_⟩
        cases answer : reply.result with
        | error error =>
            simp only [answer]
            trivial
        | ok _ =>
            simp only [answer]
            refine (fetchAll_ensures _).bind ?_ ?_ ?_
            · rintro documents later ⟨_, ⟨⟩, found⟩
              refine (storeAll_ensures found result).bind ?_ ?_ ?_
              · rintro stored after _
                exact induction (by simp [selected])
                  (fun agent member =>
                    inside agent (List.mem_of_mem_drop member)) stored
              · exact fun _ _ _ => trivial
              · exact fun _ _ => trivial
            · exact fun _ _ _ => trivial
            · exact fun _ _ => trivial
      · trivial

theorem resolvePending_ensures :
    resolvePending.Ensures Anything Permitted [] fun _ _ => True := by
  rw [resolvePending, bind_eq, call_bind]
  intro (now : String) _
  refine ⟨trivial, ?_⟩
  dsimp only
  rw [bind_eq, call_bind]
  intro (reply : Except Thrown (List PendingAgent)) _
  refine ⟨trivial, ?_⟩
  cases reply with
  | error error => trivial
  | ok agents =>
      have selected : (⟨.selectPending now, .ok agents⟩ :
          Exchange resolverHost) ∈ [] ++ [⟨.now, now⟩] ++
            [⟨.selectPending now, .ok agents⟩] := by simp
      exact resolveRounds_ensures selected _ (fun agent member => member) _

end

/-! ## What a log says -/

section

variable {ι : Type*}

/-- `resolve` has returned the document for the URI. -/
def Returned (log : List (ι × Exchange resolverHost)) (uri : String)
    (document : Json) : Prop :=
  ∃ thread, (thread, ⟨.resolve uri, .document document⟩) ∈ log

/-- The tries that an exchange has recorded. -/
def recordedIn (exchange : Exchange resolverHost) : List PendingAgent :=
  match exchange with
  | ⟨.recordTries _ round, .answered _⟩ => round
  | ⟨.recordTries _ round, .lost _⟩ => round
  | _ => []

/-- How many tries of an agent's URI have been recorded. -/
def tries (log : List (ι × Exchange resolverHost)) (id : Nat)
    (uri : String) : Nat :=
  (log.flatMap fun entry => recordedIn entry.2).countP fun agent =>
    agent.id = id ∧ agent.agentUri = uri

variable {log : List (ι × Exchange resolverHost)} {uri : String}

theorem Returned.snoc {document : Json} (returned : Returned log uri document)
    (entry : ι × Exchange resolverHost) :
    Returned (log ++ [entry]) uri document := by
  obtain ⟨thread, member⟩ := returned
  exact ⟨thread, List.mem_append_left _ member⟩

theorem tries_snoc (entry : ι × Exchange resolverHost) (id : Nat)
    (uri : String) :
    tries (log ++ [entry]) id uri = tries log id uri +
      (recordedIn entry.2).countP fun agent =>
        agent.id = id ∧ agent.agentUri = uri := by
  simp [tries, List.flatMap_append, List.countP_append]

theorem tries_le_snoc (entry : ι × Exchange resolverHost) (id : Nat)
    (uri : String) : tries log id uri ≤ tries (log ++ [entry]) id uri := by
  rw [tries_snoc]
  exact Nat.le_add_right _ _

theorem tries_lt_snoc {entry : ι × Exchange resolverHost}
    {agent : PendingAgent} (recorded : agent ∈ recordedIn entry.2) :
    tries log agent.id agent.agentUri <
      tries (log ++ [entry]) agent.id agent.agentUri := by
  rw [tries_snoc]
  apply Nat.lt_add_of_pos_right
  rw [List.countP_pos_iff]
  exact ⟨agent, recorded, by simp⟩

/-! ## Rows -/

/-- No document, and nothing derived from one. -/
def Undocumented (row : AgentRow) : Prop :=
  row.agentUriData = none ∧ row.supportedTrust = "[]" ∧
    row.services = "[]" ∧ row.x402Enabled = false ∧ row.mppEnabled = false

/-- The document and everything that is derived from it. -/
def Documented (document : Json) (row : AgentRow) : Prop :=
  row.agentUriData = some document.stringify ∧
    row.supportedTrust = (Json.array ((extractSupportedTrust document).map
      Json.text)).stringify ∧
    row.services = (Json.array (extractServices document)).stringify ∧
    row.x402Enabled = extractX402 document ∧
    row.mppEnabled = extractMpp document

/-- A row of the agents table after the exchanges of a log. -/
structure RowHolds (log : List (ι × Exchange resolverHost)) (id : Nat)
    (row : AgentRow) : Prop where
  document : Undocumented row ∨ ∃ uri document, row.agentUri = some uri ∧
    Returned log uri document ∧ Documented document row
  tried : ∀ uri, row.agentUri = some uri →
    row.uriResolveAttempts ≤ tries log id uri
  pending : ∀ uri, row.agentUri = some uri → uri ≠ "" →
    row.agentUriData = none → row.resolveUriPending = true ∨
      row.uriResolveAttempts = MAX_ATTEMPTS

theorem RowHolds.snoc {id : Nat} {row : AgentRow}
    (holds : RowHolds log id row) (entry : ι × Exchange resolverHost) :
    RowHolds (log ++ [entry]) id row where
  document := holds.document.imp_right
    fun ⟨uri, document, isUri, returned, documented⟩ =>
      ⟨uri, document, isUri, returned.snoc entry, documented⟩
  tried uri isUri :=
    (holds.tried uri isUri).trans (tries_le_snoc entry id uri)
  pending := holds.pending

/-- What holds after any interleaving: of the rows, and of the agents the runs
have selected. -/
structure Holds (log : List (ι × Exchange resolverHost))
    (tables : Tables) : Prop where
  rows : ∀ id row, tables.agents id = some row → RowHolds log id row
  selected : ∀ thread now agents,
    (thread, ⟨.selectPending now, .ok agents⟩) ∈ log →
      ∀ agent ∈ agents, agent.uriResolveAttempts < MAX_ATTEMPTS ∧
        agent.uriResolveAttempts ≤ tries log agent.id agent.agentUri

theorem Holds.snoc {tables : Tables} (holds : Holds log tables)
    {thread : ι} {exchange : Exchange resolverHost}
    (same : ∀ now agents, exchange ≠ ⟨.selectPending now, .ok agents⟩) :
    Holds (log ++ [(thread, exchange)]) tables where
  rows id row found := (holds.rows id row found).snoc _
  selected other now agents member agent inside := by
    rcases List.mem_append.mp member with old | new
    · obtain ⟨left, counted⟩ := holds.selected other now agents old agent inside
      exact ⟨left, counted.trans (tries_le_snoc _ _ _)⟩
    · cases List.mem_singleton.mp new
      exact absurd rfl (same now agents)

/-! ## Steps -/

theorem Holds.setAgent {tables : Tables} (holds : Holds log tables)
    {id : Nat} {row : AgentRow} (rowHolds : RowHolds log id row) :
    Holds log (tables.setAgent id row) where
  rows other found isFound := by
    simp only [Tables.setAgent, Function.update_apply] at isFound
    split at isFound
    · rename_i same
      cases isFound
      exact same ▸ rowHolds
    · exact holds.rows other found isFound
  selected := holds.selected

/-- A try that is in the log, with the count it was selected with. -/
theorem Holds.recordTry {tables : Tables} (holds : Holds log tables)
    (triedAt : String) {agent : PendingAgent}
    (left : agent.uriResolveAttempts < MAX_ATTEMPTS)
    (counted : agent.uriResolveAttempts <
      tries log agent.id agent.agentUri) :
    Holds log (recordTry triedAt tables agent) := by
  unfold Resolver.recordTry
  split
  · exact holds
  · rename_i row found
    split
    · rename_i isUri
      have old := holds.rows agent.id row found
      apply holds.setAgent
      refine ⟨old.document, ?_, ?_⟩
      · intro uri same
        rw [isUri] at same
        cases same
        exact counted
      · intro uri _ _ _
        by_cases last : agent.uriResolveAttempts + 1 < MAX_ATTEMPTS
        · exact .inl (decide_eq_true last)
        · right
          dsimp only
          omega
    · exact holds

theorem Holds.recordTries {tables : Tables} (holds : Holds log tables)
    (triedAt : String) {round : List PendingAgent}
    (selected : ∀ agent ∈ round, agent.uriResolveAttempts < MAX_ATTEMPTS ∧
      agent.uriResolveAttempts < tries log agent.id agent.agentUri) :
    Holds log (round.foldl (Resolver.recordTry triedAt) tables) := by
  induction round generalizing tables with
  | nil => exact holds
  | cons agent round induction =>
      obtain ⟨left, counted⟩ := selected agent List.mem_cons_self
      exact induction (holds.recordTry triedAt left counted)
        fun other member => selected other (List.mem_cons_of_mem _ member)

theorem Holds.storeColumns {tables : Tables} (holds : Holds log tables)
    {agent : PendingAgent} {document : Json}
    (returned : Returned log agent.agentUri document) (now : String) :
    Holds log (storeColumns agent (columnsOf document) now tables).1 := by
  unfold Resolver.storeColumns
  split
  · exact holds
  · split
    · rename_i row found isUri
      apply holds.setAgent
      refine ⟨.inr ⟨agent.agentUri, document, isUri, returned, rfl, rfl, rfl,
        rfl, rfl⟩, fun _ _ => Nat.zero_le _, ?_⟩
      intro uri _ _ none
      cases none
    · exact holds

theorem Holds.select {waited : String → String → Nat → Bool}
    {tables : Tables} (holds : Holds log tables) {now : String}
    {agents : List PendingAgent}
    (selects : Selects waited tables now agents) (thread : ι) :
    Holds (log ++ [(thread, ⟨.selectPending now, .ok agents⟩)]) tables where
  rows id row found := (holds.rows id row found).snoc _
  selected other time listed member agent inside := by
    rcases List.mem_append.mp member with old | new
    · obtain ⟨left, counted⟩ :=
        holds.selected other time listed old agent inside
      exact ⟨left, counted.trans (tries_le_snoc _ _ _)⟩
    · cases List.mem_singleton.mp new
      obtain ⟨row, found, isPending, isUri, attempts⟩ :=
        selects.pending agent inside
      obtain ⟨_, _, _, left, _⟩ := isPending
      have counted := (holds.rows agent.id row found).tried _ isUri
      rw [attempts] at left counted
      exact ⟨left, counted.trans (tries_le_snoc _ _ _)⟩

/-- The columns the resolver reads and writes. -/
def resolverColumns (row : AgentRow) :=
  (row.agentUri, row.agentUriData, row.supportedTrust, row.services,
    row.x402Enabled, row.mppEnabled, row.uriResolveAttempts,
    row.resolveUriPending)

theorem RowHolds.congr {id : Nat} {row other : AgentRow}
    (holds : RowHolds log id row)
    (same : resolverColumns other = resolverColumns row) :
    RowHolds log id other := by
  simp only [resolverColumns, Prod.mk.injEq] at same
  obtain ⟨isUri, isData, isTrust, isServices, isX402, isMpp, isAttempts,
    isPending⟩ := same
  refine ⟨?_, ?_, ?_⟩
  · simpa only [Undocumented, Documented, isUri, isData, isTrust, isServices,
      isX402, isMpp] using holds.document
  · simpa only [isUri, isAttempts] using holds.tried
  · simpa only [isUri, isData, isPending, isAttempts] using holds.pending

/-- A row after a URI was set anew. -/
theorem RowHolds.blank {id : Nat} {row : AgentRow} {uri : String}
    (isUri : row.agentUri = some uri) (none : Undocumented row)
    (untried : row.uriResolveAttempts = 0)
    (isPending : row.resolveUriPending = decide (uri ≠ "")) :
    RowHolds log id row where
  document := .inl none
  tried _ _ := untried ▸ Nat.zero_le _
  pending other same some _ := by
    rw [isUri] at same
    cases same
    rw [isPending]
    exact .inl (decide_eq_true some)

theorem Holds.congr {tables after : Tables} (holds : Holds log tables)
    (same : after.agents = tables.agents) : Holds log after :=
  ⟨same ▸ holds.rows, holds.selected⟩

/-- A write of the indexer leaves the resolver's columns or clears them. -/
theorem Holds.write {runtime : Runtime} {tables after : Tables}
    (holds : Holds log tables) (writes : Writes runtime tables after) :
    Holds log after := by
  obtain ⟨now, ⟨id, contract, data⟩, written⟩ := writes
  cases data with
  | registered e =>
      rw [writePacket_registered written]
      split
      · exact holds
      · apply holds.setAgent
        exact .blank rfl ⟨rfl, rfl, rfl, rfl, rfl⟩ rfl rfl
  | uriUpdated e =>
      rw [writePacket_uriUpdated written]
      split
      · exact holds
      · split
        · apply holds.setAgent
          exact .blank rfl ⟨rfl, rfl, rfl, rfl, rfl⟩ rfl rfl
        · exact holds
  | metadataSet e =>
      rw [(writePacket_metadataSet written).2]
      exact holds.congr rfl
  | agentWalletSet e =>
      rw [writePacket_agentWalletSet written]
      split
      · exact holds
      · rename_i row found
        exact holds.setAgent ((holds.rows e.agentId row found).congr rfl)
  | agentWalletUnset e =>
      rw [writePacket_agentWalletUnset written]
      split
      · exact holds
      · rename_i row found
        exact holds.setAgent ((holds.rows e.agentId row found).congr rfl)
  | agentTransferred e =>
      rw [writePacket_agentTransferred written]
      split
      · exact holds
      · rename_i row found
        split
        · have moved : Holds log (tables.setAgent e.agentId
              { row with
                owner := e.to, wallet := none
                transferredLedger := some e.ledger, updatedAt := now }) :=
            holds.setAgent ((holds.rows e.agentId row found).congr rfl)
          exact moved.congr rfl
        · exact holds
  | newFeedback e =>
      rw [writePacket_newFeedback written]
      split
      · exact holds
      · exact holds.congr rfl
  | feedbackRevoked e =>
      rw [writePacket_feedbackRevoked written]
      split
      · exact holds
      · split
        · exact holds.congr rfl
        · exact holds
  | responseAppended e =>
      rcases writePacket_responseAppended written with ⟨_, rfl⟩ | ⟨_, _, rfl⟩
      · exact holds
      · exact holds.congr rfl
  | validationRequest e =>
      rw [writePacket_validationRequest written]
      split
      · exact holds
      · exact holds.congr rfl
  | validationResponse e =>
      rw [writePacket_validationResponse written]
      split
      · exact holds
      · split
        · exact holds.congr rfl
        · exact holds

/-- One exchange of one run. -/
theorem Holds.exchange [DecidableEq ι]
    {waited : String → String → Nat → Bool} {tables after : Tables}
    (holds : Holds log tables) {thread : ι}
    {exchange : Exchange resolverHost}
    (permitted : Permitted (ofThread thread log) exchange)
    (served : Serves waited tables exchange after) :
    Holds (log ++ [(thread, exchange)]) after := by
  -- the tries of a round were selected by the same run
  have record : ∀ triedAt (round : List PendingAgent) (reply : Reply Unit),
      Permitted (ofThread thread log) ⟨.recordTries triedAt round, reply⟩ →
      (∀ agent ∈ round,
        agent ∈ recordedIn ⟨.recordTries triedAt round, reply⟩) →
      Holds (log ++ [(thread, ⟨.recordTries triedAt round, reply⟩)])
        (round.foldl (Resolver.recordTry triedAt) tables) := by
    rintro triedAt round reply ⟨now, agents, selected, inside⟩ recorded
    have later : Holds
        (log ++ [(thread, ⟨.recordTries triedAt round, reply⟩)]) tables :=
      holds.snoc fun _ _ => by simp
    apply later.recordTries
    intro agent member
    obtain ⟨left, counted⟩ := holds.selected thread now agents
      (mem_of_mem_ofThread selected) agent (inside agent member)
    exact ⟨left, counted.trans_lt (tries_lt_snoc (recorded agent member))⟩
  -- a document was fetched by the same run, for the URI in the guard
  have keep : ∀ agent columns now (reply : Reply Nat),
      Permitted (ofThread thread log) ⟨.store agent columns now, reply⟩ →
      Holds (log ++ [(thread, ⟨.store agent columns now, reply⟩)])
        (Resolver.storeColumns agent columns now tables).1 := by
    rintro agent columns now reply ⟨document, fetched, rfl⟩
    have later : Holds (log ++
        [(thread, ⟨.store agent (columnsOf document) now, reply⟩)]) tables :=
      holds.snoc fun _ _ => by simp
    exact later.storeColumns ⟨thread, List.mem_append_left _
      (mem_of_mem_ofThread fetched)⟩ now
  cases served with
  | now time => exact holds.snoc fun _ _ => by simp
  | inTime before => exact holds.snoc fun _ _ => by simp
  | selected selects => exact holds.select selects thread
  | selectFailed now error => exact holds.snoc fun _ _ => by simp
  | recorded triedAt round =>
      exact record triedAt round _ permitted fun _ member => member
  | recordFailed triedAt round error => exact holds.snoc fun _ _ => by simp
  | recordLost triedAt round error =>
      exact record triedAt round _ permitted fun _ member => member
  | resolved uri fetched => exact holds.snoc fun _ _ => by simp
  | stored agent columns now => exact keep agent columns now _ permitted
  | storeFailed agent columns now error => exact holds.snoc fun _ _ => by simp
  | storeLost agent columns now error =>
      exact keep agent columns now _ permitted

/-- Over any interleaving of resolver runs with the indexer's writes, every
row has a document that was fetched for its URI and what is derived from it,
or none; and a row that has a URI and no document is still pending or was
tried as often as any may be. -/
theorem documents_belong_to_uris [DecidableEq ι]
    {waited : String → String → Nat → Bool} {runtime : Runtime}
    {tables : Tables}
    (run : Interleaved (fun _ : ι => resolvePending) (Serves waited)
      (Writes runtime) Tables.empty log tables) :
    ∀ id row, tables.agents id = some row →
      (Undocumented row ∨ ∃ uri document, row.agentUri = some uri ∧
        Returned log uri document ∧ Documented document row) ∧
      ∀ uri, row.agentUri = some uri → uri ≠ "" →
        row.agentUriData = none → row.resolveUriPending = true ∨
          row.uriResolveAttempts = MAX_ATTEMPTS ∧
            MAX_ATTEMPTS ≤ tries log id uri := by
  have holds : Holds log tables := by
    apply run.invariant (fun _ => Permitted)
      (fun _ => resolvePending_ensures) (fun _ => trivial) Holds
    · exact ⟨fun _ _ found => (nomatch found), fun _ _ _ none =>
        (nomatch none)⟩
    · exact fun holds permitted served => holds.exchange permitted served
    · exact fun holds writes => holds.write writes
  intro id row found
  have rowHolds := holds.rows id row found
  refine ⟨rowHolds.document, fun uri isUri some none => ?_⟩
  rcases rowHolds.pending uri isUri some none with pending | exhausted
  · exact .inl pending
  · exact .inr ⟨exhausted, exhausted ▸ rowHolds.tried uri isUri⟩

end

/-! ## A sample run -/

private def samplePacket : EventPacket :=
  { id := "1", contract := .identity
    data := .registered
      { ledger := 1, ledgerClosedAt := "2026-01-01T00:00:00Z", txHash := "tx"
        agentId := 0, owner := "G", agentUri := "u" } }

private def sampleRow : AgentRow :=
  Tables.newAgent "G" "u" true (storedTime "2026-01-01T00:00:00Z") 1 "tx" "t"

private def sampleAgent : PendingAgent :=
  { id := 0, agentUri := "u", uriResolveAttempts := 0 }

private def sampleDocument : Json := .object [("x402", .bool true)]

private def sampleAnswer : (request : ResolveRequest) → request.Answer
  | .now => "t"
  | .inTime => true
  | .selectPending _ => .ok [sampleAgent]
  | .recordTries _ _ => .answered ()
  | .resolve _ => .document sampleDocument
  | .store _ _ _ => .answered 1

private def sampleTrace : List (Exchange resolverHost) :=
  [⟨.now, "t"⟩, ⟨.selectPending "t", .ok [sampleAgent]⟩, ⟨.inTime, true⟩,
    ⟨.now, "t"⟩, ⟨.recordTries "t" [sampleAgent], .answered ()⟩,
    ⟨.resolve "u", .document sampleDocument⟩, ⟨.now, "t"⟩,
    ⟨.store sampleAgent (columnsOf sampleDocument) "t", .answered 1⟩]

private theorem sampleTrace_yields (count : Nat) :
    Yields resolvePending (sampleTrace.take count) none := by
  have isTrace : (resolvePending.answeredBy sampleAnswer).1 =
      sampleTrace := rfl
  have yields := yields_answeredBy sampleAnswer resolvePending
  rw [isTrace, ← List.take_append_drop count sampleTrace] at yields
  exact yields.of_append

theorem documents_belong_to_uris_fetched :
    ∃ (log : List (Unit × Exchange resolverHost)) (tables : Tables)
        (row : AgentRow),
      Interleaved (fun _ : Unit => resolvePending) (Serves fun _ _ _ => true)
        (Writes { parseDate := fun _ => none, callDepth := 0 })
        Tables.empty log tables ∧
      tables.agents 0 = some row ∧ row.agentUriData ≠ none ∧
      (Undocumented row ∨ ∃ uri document, row.agentUri = some uri ∧
        Returned log uri document ∧ Documented document row) := by
  let first := Tables.empty.setAgent 0 sampleRow
  let second := recordTry "t" first sampleAgent
  have select : Selects (fun _ _ _ => true) first "t" [sampleAgent] := by
    constructor
    · intro agent member
      cases List.mem_singleton.mp member
      exact ⟨sampleRow, rfl, ⟨rfl, rfl, ⟨"u", rfl, by decide⟩, by decide,
        .inl rfl⟩, rfl, rfl⟩
    · simp
    · decide
    · simp
    · intro id row found _
      left
      by_cases same : id = 0
      · exact List.mem_singleton.mpr same
      · simp [first, Tables.setAgent, same, Tables.empty] at found
  let Runs := Interleaved (fun _ : Unit => resolvePending)
    (Serves fun _ _ _ => true)
    (Writes { parseDate := fun _ => none, callDepth := 0 }) Tables.empty
  have registered : Runs [] first :=
    .moved .start ⟨"t", samplePacket, rfl⟩
  have began : Runs [((), ⟨.now, "t"⟩)] first :=
    .exchanged registered () _ (sampleTrace_yields 1) (.now "t")
  have selected : Runs _ first :=
    .exchanged began () _ (sampleTrace_yields 2) (.selected select)
  have inTime : Runs _ first :=
    .exchanged selected () _ (sampleTrace_yields 3) (.inTime true)
  have timed : Runs _ first :=
    .exchanged inTime () _ (sampleTrace_yields 4) (.now "t")
  have recorded : Runs _ second :=
    .exchanged timed () _ (sampleTrace_yields 5)
      (.recorded "t" [sampleAgent])
  have resolved : Runs _ second :=
    .exchanged recorded () _ (sampleTrace_yields 6)
      (.resolved "u" (.document sampleDocument))
  have again : Runs _ second :=
    .exchanged resolved () _ (sampleTrace_yields 7) (.now "t")
  have stored : Runs _ _ :=
    .exchanged again () _ (sampleTrace_yields 8)
      (.stored sampleAgent (columnsOf sampleDocument) "t")
  refine ⟨_, _, _, stored, rfl, by simp, ?_⟩
  exact (documents_belong_to_uris stored 0 _ rfl).1

end Resolver

end Stellar8004.Indexer
