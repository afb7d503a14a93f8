import Stellar8004.Indexer.ResolverQueue
import Stellar8004.Indexer.TimeOrder

/-!
# Retries of a URI

Runs of `resolvePending` follow one another under a clock that never goes
back, while the indexer writes.  As long as an agent's URI is not rewritten,
its fetches are few and far between: five at most, each at least two to the
number of the earlier ones minutes after the last recorded try, none once the
tries are used up and none once a document is stored.
-/

namespace Stellar8004.Indexer

open Program

namespace Resolver

/-! ## Runs under a clock -/

/-- An exchange, the millisecond it was made in and the tables after it. -/
structure Moment where
  clock : Nat
  exchange : Exchange resolverHost
  tables : Tables

structure World where
  clock : Nat
  tables : Tables
  log : List Moment

/-- The packet sets the agent's URI anew.  A replay that the guard of the
statement skips counts as well. -/
def Rewrites (id : Nat) (packet : EventPacket) : Prop :=
  match packet.data with
  | .uriUpdated e => e.agentId = id
  | _ => False

/-- A write of the indexer that leaves the agent's URI. -/
def Leaves (runtime : Runtime) (id : Nat) (tables after : Tables) : Prop :=
  ∃ now packet, ¬ Rewrites id packet ∧
    writePacket runtime now tables packet = .ok after

/-- An exchange of a run after any writes of the indexer.  The clock is read
as `pgTime` writes it. -/
inductive Timed (waited : String → String → Nat → Bool) (runtime : Runtime)
    (id : Nat) (world : World) (exchange : Exchange resolverHost) :
    World → Prop where
  | exchanged {tables after : Tables} {clock : Nat}
      (later : world.clock ≤ clock)
      (moved : Relation.ReflTransGen (Leaves runtime id) world.tables tables)
      (reads : ∀ time, exchange = ⟨.now, time⟩ →
        FourDigits clock ∧ time = pgText clock)
      (served : Serves waited tables exchange after) :
      Timed waited runtime id world exchange
        { clock, tables := after
          log := world.log ++ [{ clock, exchange, tables := after }] }

/-- The comparison of the selection on exact times. -/
def ExactWait (waited : String → String → Nat → Bool) : Prop :=
  ∀ now last attempts : Nat, FourDigits now → FourDigits last →
    (waited (pgText now) (pgText last) attempts = true ↔
      last + 2 ^ attempts * 60000 ≤ now)

/-! ## Fetches -/

/-- A fetch for an agent, the time recorded with its try and the time it
began. -/
structure Fetch where
  id : Nat
  tried : Nat
  started : Nat

/-- What is known of the fetches.  `read` is when the clock was last read. -/
structure Tracker where
  queue : Queue
  read : Nat
  tried : Nat
  fetches : List Fetch

def Tracker.begin : Tracker :=
  { queue := .empty, read := 0, tried := 0, fetches := [] }

/-- The fetches of a round begin in the order of its agents. -/
def Tracker.note (tracker : Tracker) (moment : Moment) : Tracker :=
  let noted := { tracker with queue := tracker.queue.note moment.exchange }
  match moment.exchange.request, tracker.queue.waiting with
  | .now, _ => { noted with read := moment.clock }
  | .recordTries _ _, _ => { noted with tried := tracker.read }
  | .resolve _, agent :: _ =>
      { noted with
        fetches := tracker.fetches ++
          [{ id := agent.id, tried := tracker.tried
             started := moment.clock }] }
  | _, _ => noted

def track (log : List Moment) : Tracker :=
  log.foldl Tracker.note .begin

def Tracker.fetchesOf (tracker : Tracker) (id : Nat) : List Fetch :=
  tracker.fetches.filter (·.id = id)

/-- The fetches for an agent, in order. -/
def fetchesOf (id : Nat) (log : List Moment) : List Fetch :=
  (track log).fetchesOf id

def HasDocument (id : Nat) (tables : Tables) : Prop :=
  ∃ row, tables.agents id = some row ∧ row.agentUriData ≠ none

theorem track_snoc (log : List Moment) (moment : Moment) :
    track (log ++ [moment]) = (track log).note moment := by
  simp [track]

theorem Tracker.note_queue (tracker : Tracker) (moment : Moment) :
    (tracker.note moment).queue = tracker.queue.note moment.exchange := by
  unfold Tracker.note
  dsimp only
  split <;> rfl

theorem track_queue (log : List Moment) :
    (track log).queue = Queue.after (log.map Moment.exchange) := by
  induction log using List.reverseRecOn with
  | nil => rfl
  | append_singleton log moment induction =>
      rw [track_snoc, Tracker.note_queue, induction, List.map_append]
      simp

/-! ## The indexer's writes -/

/-- The columns that decide about a further try. -/
def tryColumns (row : AgentRow) :=
  (row.agentUri, row.agentUriData, row.uriResolveAttempts,
    row.lastResolveAttemptAt)

/-- A row stays and keeps these columns. -/
def KeepsRow (before after : Option AgentRow) : Prop :=
  ∀ row, before = some row → ∃ kept, after = some kept ∧
    tryColumns kept = tryColumns row

theorem KeepsRow.refl (row : Option AgentRow) : KeepsRow row row :=
  fun found isRow => ⟨found, isRow, rfl⟩

theorem KeepsRow.trans {first second third : Option AgentRow}
    (one : KeepsRow first second) (two : KeepsRow second third) :
    KeepsRow first third := by
  intro row isRow
  obtain ⟨middle, isMiddle, same⟩ := one row isRow
  obtain ⟨kept, isKept, also⟩ := two middle isMiddle
  exact ⟨kept, isKept, also.trans same⟩

theorem keepsRow_setAgent {tables : Tables} {id other : Nat}
    {row written : AgentRow} (found : tables.agents other = some row)
    (same : tryColumns written = tryColumns row) :
    KeepsRow (tables.agents id) ((tables.setAgent other written).agents id)
      := by
  intro before isBefore
  simp only [Tables.setAgent, Function.update_apply]
  split
  · rename_i mine
    rw [mine, found] at isBefore
    cases isBefore
    exact ⟨written, rfl, same⟩
  · exact ⟨before, isBefore, rfl⟩

theorem Leaves.keepsRow {runtime : Runtime} {id : Nat}
    {tables after : Tables} (leaves : Leaves runtime id tables after) :
    KeepsRow (tables.agents id) (after.agents id) := by
  obtain ⟨now, ⟨eventId, contract, data⟩, leavesUri, written⟩ := leaves
  cases data with
  | registered e =>
      rw [writePacket_registered written]
      split
      · exact .refl _
      · rename_i absent
        intro row isRow
        have other : id ≠ e.agentId := by
          rintro rfl
          rw [absent] at isRow
          cases isRow
        simp only [Tables.setAgent, Function.update_of_ne other]
        exact ⟨row, isRow, rfl⟩
  | uriUpdated e =>
      rw [writePacket_uriUpdated written]
      have other : id ≠ e.agentId := fun same => leavesUri same.symm
      split
      · exact .refl _
      · split
        · simp only [Tables.setAgent, Function.update_of_ne other]
          exact .refl _
        · exact .refl _
  | metadataSet e =>
      rw [(writePacket_metadataSet written).2]
      exact .refl _
  | agentWalletSet e =>
      rw [writePacket_agentWalletSet written]
      split
      · exact .refl _
      · rename_i row found
        exact keepsRow_setAgent found rfl
  | agentWalletUnset e =>
      rw [writePacket_agentWalletUnset written]
      split
      · exact .refl _
      · rename_i row found
        exact keepsRow_setAgent found rfl
  | agentTransferred e =>
      rw [writePacket_agentTransferred written]
      split
      · exact .refl _
      · rename_i row found
        split
        · exact keepsRow_setAgent found rfl
        · exact .refl _
  | newFeedback e =>
      rw [writePacket_newFeedback written]
      split <;> exact .refl _
  | feedbackRevoked e =>
      rw [writePacket_feedbackRevoked written]
      split
      · exact .refl _
      · split <;> exact .refl _
  | responseAppended e =>
      rcases writePacket_responseAppended written with ⟨_, rfl⟩ | ⟨_, _, rfl⟩
      · exact .refl _
      · exact .refl _
  | validationRequest e =>
      rw [writePacket_validationRequest written]
      split <;> exact .refl _
  | validationResponse e =>
      rw [writePacket_validationResponse written]
      split
      · exact .refl _
      · split <;> exact .refl _

theorem keepsRow_of_leaves {runtime : Runtime} {id : Nat}
    {tables after : Tables}
    (moved : Relation.ReflTransGen (Leaves runtime id) tables after) :
    KeepsRow (tables.agents id) (after.agents id) := by
  induction moved with
  | refl => exact .refl _
  | tail _ leaves induction => exact induction.trans leaves.keepsRow

/-! ## The statements on one row -/

theorem recordTry_other {triedAt : String} {tables : Tables}
    {agent : PendingAgent} {id : Nat} (other : agent.id ≠ id) :
    (recordTry triedAt tables agent).agents id = tables.agents id := by
  unfold recordTry
  split
  · rfl
  · split
    · simp only [Tables.setAgent, Function.update_of_ne other.symm]
    · rfl

theorem recordTries_other {triedAt : String} {tables : Tables}
    {round : List PendingAgent} {id : Nat}
    (others : id ∉ round.map PendingAgent.id) :
    (round.foldl (recordTry triedAt) tables).agents id =
      tables.agents id := by
  induction round generalizing tables with
  | nil => rfl
  | cons agent round induction =>
      rw [List.map_cons, List.mem_cons, not_or] at others
      rw [List.foldl_cons, induction others.2,
        recordTry_other fun same => others.1 same.symm]

/-- A row after its try was recorded. -/
def triedRow (agent : PendingAgent) (triedAt : String) (row : AgentRow) :
    AgentRow :=
  { row with
    uriResolveAttempts := agent.uriResolveAttempts + 1
    resolveUriPending := agent.uriResolveAttempts + 1 < MAX_ATTEMPTS
    lastResolveAttemptAt := some triedAt, updatedAt := triedAt }

theorem triedRow_agentUriData (agent : PendingAgent) (triedAt : String)
    (row : AgentRow) :
    (triedRow agent triedAt row).agentUriData = row.agentUriData := rfl

theorem recordTries_mine {triedAt : String} {tables : Tables}
    {round : List PendingAgent} {agent : PendingAgent} {row : AgentRow}
    (distinct : (round.map PendingAgent.id).Nodup) (member : agent ∈ round)
    (found : tables.agents agent.id = some row)
    (isUri : row.agentUri = some agent.agentUri) :
    (round.foldl (recordTry triedAt) tables).agents agent.id =
      some (triedRow agent triedAt row) := by
  induction round generalizing tables with
  | nil => cases member
  | cons first round induction =>
      rw [List.map_cons, List.nodup_cons] at distinct
      rw [List.foldl_cons]
      rcases List.mem_cons.mp member with rfl | later
      · rw [recordTries_other distinct.1]
        unfold recordTry
        simp only [found]
        rw [if_pos isUri]
        exact Function.update_self _ _ _
      · apply induction distinct.2 later
        rw [recordTry_other ?_, found]
        intro same
        exact distinct.1 (List.mem_map.mpr ⟨agent, later, same.symm⟩)

theorem storeColumns_other {agent : PendingAgent} {columns : StoredDocument}
    {now : String} {tables : Tables} {id : Nat} (other : agent.id ≠ id) :
    (storeColumns agent columns now tables).1.agents id =
      tables.agents id := by
  unfold storeColumns
  split
  · rfl
  · split
    · simp only [Tables.setAgent, Function.update_of_ne other.symm]
    · rfl

/-! ## The pace of one agent -/

/-- Two to the number of a fetch minutes lie between the time recorded with it
and the start of the next. -/
def Spaced (fetches : List Fetch) : Prop :=
  ∀ place first second, fetches[place]? = some first →
    fetches[place + 1]? = some second →
      first.tried + 2 ^ (place + 1) * 60000 ≤ second.started

/-- Enough time has passed for another fetch. -/
def Rested (fetches : List Fetch) (clock : Nat) : Prop :=
  ∀ fetch, fetches.getLast? = some fetch →
    fetch.tried + 2 ^ fetches.length * 60000 ≤ clock

theorem Spaced.snoc {fetches : List Fetch} (spaced : Spaced fetches)
    {clock : Nat} (rested : Rested fetches clock) {id tried : Nat} :
    Spaced (fetches ++ [{ id, tried, started := clock }]) := by
  intro place first second isFirst isSecond
  have inside := (List.getElem?_eq_some_iff.mp isSecond).1
  rw [List.length_append, List.length_singleton] at inside
  rw [List.getElem?_append_left (by omega)] at isFirst
  by_cases last : place + 1 = fetches.length
  · rw [last, List.getElem?_concat_length] at isSecond
    obtain rfl := Option.some.inj isSecond
    rw [last]
    apply rested first
    rw [List.getLast?_eq_getElem?, ← last]
    exact isFirst
  · rw [List.getElem?_append_left (by omega)] at isSecond
    exact spaced place first second isFirst isSecond

/-- What holds of an agent's fetches, its place in the current run and its
row. -/
structure Paced (id : Nat) (tracker : Tracker) (clock : Nat)
    (row : Option AgentRow) : Prop where
  budget : (tracker.fetchesOf id).length ≤ MAX_ATTEMPTS
  spaced : Spaced (tracker.fetchesOf id)
  read : tracker.read ≤ clock
  recorded : tracker.tried ≤ tracker.read
  fetched : ∀ fetch ∈ tracker.fetchesOf id,
    fetch.tried ≤ tracker.read ∧ fetch.tried ≤ fetch.started
  distinct : ((tracker.queue.waiting ++ tracker.queue.left).map
    PendingAgent.id).Nodup
  unknown : row = none → tracker.fetchesOf id = []
  undocumented : ∀ found, row = some found → found.agentUriData = none →
    (tracker.fetchesOf id).length ≤ found.uriResolveAttempts ∧
      (tracker.fetchesOf id ≠ [] → ∃ last : Nat, FourDigits last ∧
        found.lastResolveAttemptAt = some (pgText last) ∧
        ∀ fetch ∈ tracker.fetchesOf id, fetch.tried ≤ last)
  left : ∀ agent ∈ tracker.queue.left, agent.id = id →
    Rested (tracker.fetchesOf id) clock ∧ ∃ found, row = some found ∧
      found.agentUri = some agent.agentUri ∧ found.agentUriData = none ∧
      found.uriResolveAttempts = agent.uriResolveAttempts ∧
      agent.uriResolveAttempts < MAX_ATTEMPTS
  waiting : ∀ agent ∈ tracker.queue.waiting, agent.id = id →
    Rested (tracker.fetchesOf id) clock ∧ FourDigits tracker.tried ∧
      (∀ fetch ∈ tracker.fetchesOf id, fetch.tried ≤ tracker.tried) ∧
      ∃ found, row = some found ∧ found.agentUriData = none ∧
        (tracker.fetchesOf id).length < found.uriResolveAttempts ∧
        found.uriResolveAttempts ≤ MAX_ATTEMPTS ∧
        found.lastResolveAttemptAt = some (pgText tracker.tried)

namespace Paced

variable {id : Nat} {tracker : Tracker} {clock : Nat}
  {row : Option AgentRow}

theorem begin (row : Option AgentRow) : Paced id .begin 0 row where
  budget := Nat.zero_le _
  spaced := by
    intro place first second isFirst
    cases isFirst
  read := Nat.le_refl 0
  recorded := Nat.le_refl 0
  fetched := fun _ member => nomatch member
  distinct := .nil
  unknown := fun _ => rfl
  undocumented := fun _ _ _ => ⟨Nat.zero_le _, fun some => absurd rfl some⟩
  left := fun _ member => nomatch member
  waiting := fun _ member => nomatch member

/-- Time passes. -/
theorem later (paced : Paced id tracker clock row) {after : Nat}
    (late : clock ≤ after) : Paced id tracker after row where
  budget := paced.budget
  spaced := paced.spaced
  read := paced.read.trans late
  recorded := paced.recorded
  fetched := paced.fetched
  distinct := paced.distinct
  unknown := paced.unknown
  undocumented := paced.undocumented
  left agent member mine := by
    obtain ⟨rested, others⟩ := paced.left agent member mine
    exact ⟨fun fetch isLast => (rested fetch isLast).trans late, others⟩
  waiting agent member mine := by
    obtain ⟨rested, others⟩ := paced.waiting agent member mine
    exact ⟨fun fetch isLast => (rested fetch isLast).trans late, others⟩

/-- The indexer writes. -/
theorem keep (paced : Paced id tracker clock row) {after : Option AgentRow}
    (keeps : KeepsRow row after) : Paced id tracker clock after where
  budget := paced.budget
  spaced := paced.spaced
  read := paced.read
  recorded := paced.recorded
  fetched := paced.fetched
  distinct := paced.distinct
  unknown isNone := by
    apply paced.unknown
    cases row with
    | none => rfl
    | some found =>
        obtain ⟨kept, isKept, _⟩ := keeps found rfl
        rw [isNone] at isKept
        cases isKept
  undocumented found isFound none := by
    cases row with
    | none =>
        rw [paced.unknown rfl]
        exact ⟨Nat.zero_le _, fun some => absurd rfl some⟩
    | some before =>
        obtain ⟨kept, isKept, same⟩ := keeps before rfl
        cases isFound.symm.trans isKept
        simp only [tryColumns, Prod.mk.injEq] at same
        obtain ⟨_, sameData, sameAttempts, sameLast⟩ := same
        rw [sameData] at none
        rw [sameAttempts, sameLast]
        exact paced.undocumented before rfl none
  left agent member mine := by
    obtain ⟨rested, found, isFound, columns⟩ := paced.left agent member mine
    obtain ⟨kept, isKept, same⟩ := keeps found isFound
    simp only [tryColumns, Prod.mk.injEq] at same
    obtain ⟨sameUri, sameData, sameAttempts, _⟩ := same
    refine ⟨rested, kept, isKept, ?_⟩
    rw [sameUri, sameData, sameAttempts]
    exact columns
  waiting agent member mine := by
    obtain ⟨rested, digits, before, found, isFound, columns⟩ :=
      paced.waiting agent member mine
    obtain ⟨kept, isKept, same⟩ := keeps found isFound
    simp only [tryColumns, Prod.mk.injEq] at same
    obtain ⟨_, sameData, sameAttempts, sameLast⟩ := same
    refine ⟨rested, digits, before, kept, isKept, ?_⟩
    rw [sameData, sameAttempts, sameLast]
    exact columns

/-- The clock is read. -/
theorem reading (paced : Paced id tracker clock row) :
    Paced id { tracker with read := clock } clock row :=
  { paced with
    read := Nat.le_refl clock
    recorded := paced.recorded.trans paced.read
    fetched := fun fetch member =>
      ⟨(paced.fetched fetch member).1.trans paced.read,
        (paced.fetched fetch member).2⟩ }

/-- The run ends, and with it its queue. -/
theorem drop (paced : Paced id tracker clock row) :
    Paced id { tracker with queue := .empty } clock row :=
  { paced with
    distinct := .nil
    left := fun _ member => nomatch member
    waiting := fun _ member => nomatch member }

/-- A batch of tries that is refused. -/
theorem refuse (paced : Paced id tracker clock row) :
    Paced id { tracker with queue := .empty, tried := tracker.read } clock
      row :=
  { paced.drop with
    recorded := Nat.le_refl _
    waiting := fun _ member => nomatch member }

/-- Agents are selected that have waited long enough. -/
theorem select (paced : Paced id tracker clock row)
    {waited : String → String → Nat → Bool} (exact : ExactWait waited)
    {tables : Tables} (isRow : tables.agents id = row)
    (digits : FourDigits tracker.read) {agents : List PendingAgent}
    (selects : Selects waited tables (pgText tracker.read) agents) :
    Paced id { tracker with queue := { left := agents, waiting := [] } }
      clock row :=
  { paced with
    distinct := selects.distinct
    left := by
      intro agent member mine
      obtain ⟨found, isFound, isPending, isUri, attempts⟩ :=
        selects.pending agent member
      obtain ⟨_, none, _, few, wait⟩ := isPending
      rw [mine, isRow] at isFound
      obtain ⟨counted, earlier⟩ := paced.undocumented found isFound none
      refine ⟨?_, found, isFound, isUri, none, attempts, attempts ▸ few⟩
      intro fetch isLast
      have member : fetch ∈ tracker.fetchesOf id :=
        List.mem_of_getLast? isLast
      obtain ⟨last, lastDigits, isText, before⟩ :=
        earlier (List.ne_nil_of_mem member)
      have tried := before fetch member
      have positive := List.length_pos_of_mem member
      change fetch.tried + 2 ^ (tracker.fetchesOf id).length * 60000 ≤ clock
      rcases wait with zero | never | ⟨text, isLastText, isWaited⟩
      · omega
      · rw [isText] at never
        cases never
      · rw [isText] at isLastText
        obtain rfl := Option.some.inj isLastText
        have gap := (exact _ _ _ digits lastDigits).mp isWaited
        have longer : 2 ^ (tracker.fetchesOf id).length ≤
            2 ^ found.uriResolveAttempts :=
          Nat.pow_le_pow_right (by decide) counted
        have now := paced.read
        omega
    waiting := fun _ member => nomatch member }

/-- The tries of a round are recorded at the time that was read. -/
theorem record (paced : Paced id tracker clock row) {tables : Tables}
    (isRow : tables.agents id = row) (digits : FourDigits tracker.read)
    {round : List PendingAgent}
    (isRound : round = tracker.queue.left.take CONCURRENCY) :
    Paced id
      { tracker with
        queue := { left := tracker.queue.left.drop round.length
                   waiting := round }
        tried := tracker.read }
      clock
      ((round.foldl (recordTry (pgText tracker.read)) tables).agents id) := by
  have inside : ∀ agent ∈ round, agent ∈ tracker.queue.left := by
    rw [isRound]
    exact fun agent => List.mem_of_mem_take
  have whole : round ++ tracker.queue.left.drop round.length =
      tracker.queue.left := by
    have isPrefix : round <+: tracker.queue.left :=
      isRound ▸ List.take_prefix _ _
    exact List.prefix_append_drop isPrefix |>.symm
  have leftDistinct : (tracker.queue.left.map PendingAgent.id).Nodup := by
    have all := paced.distinct
    rw [List.map_append] at all
    exact (List.nodup_append.mp all).2.1
  have apart : ((round ++ tracker.queue.left.drop round.length).map
      PendingAgent.id).Nodup := by
    rw [whole]
    exact leftDistinct
  have roundDistinct : (round.map PendingAgent.id).Nodup := by
    rw [List.map_append] at apart
    exact (List.nodup_append.mp apart).1
  by_cases mine : id ∈ round.map PendingAgent.id
  · obtain ⟨agent, member, rfl⟩ := List.mem_map.mp mine
    obtain ⟨rested, found, isFound, isUri, none, attempts, few⟩ :=
      paced.left agent (inside agent member) rfl
    rw [recordTries_mine roundDistinct member (isRow.trans isFound) isUri]
    obtain ⟨counted, _⟩ := paced.undocumented found isFound none
    have gone : ∀ other ∈ tracker.queue.left.drop round.length,
        other.id ≠ agent.id := by
      intro other behind same
      rw [List.map_append] at apart
      exact (List.nodup_append.mp apart).2.2 _ mine _
        (List.mem_map.mpr ⟨other, behind, rfl⟩) same.symm
    have before : ∀ fetch ∈ tracker.fetchesOf agent.id,
        fetch.tried ≤ tracker.read := fun fetch member =>
      (paced.fetched fetch member).1
    exact
      { paced with
        recorded := Nat.le_refl _
        distinct := apart
        unknown := fun impossible => nomatch impossible
        undocumented := by
          intro after isAfter _
          obtain rfl := Option.some.inj isAfter
          refine ⟨?_, fun _ => ⟨tracker.read, digits, rfl, before⟩⟩
          change (tracker.fetchesOf agent.id).length ≤
            agent.uriResolveAttempts + 1
          omega
        left := fun other behind same => absurd same (gone other behind)
        waiting := by
          intro other _ _
          refine ⟨rested, digits, before,
            triedRow agent (pgText tracker.read) found, rfl,
            (triedRow_agentUriData agent _ found).trans none, ?_, ?_, rfl⟩
          · change (tracker.fetchesOf agent.id).length <
              agent.uriResolveAttempts + 1
            omega
          · change agent.uriResolveAttempts + 1 ≤ MAX_ATTEMPTS
            omega }
  · rw [recordTries_other mine, isRow]
    exact
      { paced with
        recorded := Nat.le_refl _
        distinct := apart
        left := fun agent behind =>
          paced.left agent (List.mem_of_mem_drop behind)
        waiting := by
          intro agent member same
          exact absurd (List.mem_map.mpr ⟨agent, member, same⟩) mine }

/-- The next fetch of the round begins. -/
theorem fetch (paced : Paced id tracker clock row) {agent : PendingAgent}
    {rest : List PendingAgent}
    (isNext : tracker.queue.waiting = agent :: rest) :
    Paced id
      { tracker with
        queue := { tracker.queue with waiting := rest }
        fetches := tracker.fetches ++
          [{ id := agent.id, tried := tracker.tried, started := clock }] }
      clock row := by
  have distinct := paced.distinct
  rw [isNext, List.cons_append, List.map_cons, List.nodup_cons] at distinct
  have inside : ∀ other ∈ rest, other ∈ tracker.queue.waiting := by
    rw [isNext]
    exact fun other => List.mem_cons_of_mem agent
  by_cases mine : agent.id = id
  · subst mine
    have gone : ∀ other ∈ rest ++ tracker.queue.left, other.id ≠ agent.id :=
      fun other behind same =>
        distinct.1 (List.mem_map.mpr ⟨other, behind, same⟩)
    obtain ⟨rested, digits, before, found, isFound, none, counted, few,
      isText⟩ := paced.waiting agent (by rw [isNext]; simp) rfl
    have started : tracker.tried ≤ clock := paced.recorded.trans paced.read
    have grown : Tracker.fetchesOf
        { tracker with
          queue := { tracker.queue with waiting := rest }
          fetches := tracker.fetches ++
            [{ id := agent.id, tried := tracker.tried, started := clock }] }
        agent.id = tracker.fetchesOf agent.id ++
          [{ id := agent.id, tried := tracker.tried, started := clock }] := by
      simp [Tracker.fetchesOf, List.filter_append]
    have bounds : ∀ fetch ∈ tracker.fetchesOf agent.id ++
        [{ id := agent.id, tried := tracker.tried, started := clock }],
          fetch.tried ≤ tracker.tried := by
      intro fetch member
      rcases List.mem_append.mp member with old | new
      · exact before fetch old
      · rw [List.mem_singleton.mp new]
    constructor
    · rw [grown, List.length_append, List.length_singleton]
      omega
    · rw [grown]
      exact paced.spaced.snoc rested
    · exact paced.read
    · exact paced.recorded
    · rw [grown]
      intro fetch member
      refine ⟨(bounds fetch member).trans paced.recorded, ?_⟩
      rcases List.mem_append.mp member with old | new
      · exact (paced.fetched fetch old).2
      · rw [List.mem_singleton.mp new]
        exact started
    · exact distinct.2
    · intro isNone
      rw [isFound] at isNone
      cases isNone
    · intro other isOther _
      obtain rfl := Option.some.inj (isFound.symm.trans isOther)
      rw [grown, List.length_append, List.length_singleton]
      exact ⟨counted, fun _ => ⟨tracker.tried, digits, isText, bounds⟩⟩
    · exact fun other behind same =>
        absurd same (gone other (List.mem_append_right _ behind))
    · exact fun other behind same =>
        absurd same (gone other (List.mem_append_left _ behind))
  · have same : Tracker.fetchesOf
        { tracker with
          queue := { tracker.queue with waiting := rest }
          fetches := tracker.fetches ++
            [{ id := agent.id, tried := tracker.tried, started := clock }] }
        id = tracker.fetchesOf id := by
      simp [Tracker.fetchesOf, List.filter_append, mine]
    constructor
    · rw [same]
      exact paced.budget
    · rw [same]
      exact paced.spaced
    · exact paced.read
    · exact paced.recorded
    · rw [same]
      exact paced.fetched
    · exact distinct.2
    · rw [same]
      exact paced.unknown
    · rw [same]
      exact paced.undocumented
    · rw [same]
      exact paced.left
    · rw [same]
      exact fun other member => paced.waiting other (inside other member)

/-- A document is stored for an agent that is neither to be tried nor
fetched. -/
theorem store (paced : Paced id tracker clock row) {tables : Tables}
    (isRow : tables.agents id = row) {agent : PendingAgent}
    (idle : tracker.queue.waiting = [])
    (done : agent.id ∉ tracker.queue.left.map PendingAgent.id)
    (columns : StoredDocument) (now : String) :
    Paced id tracker clock
      ((storeColumns agent columns now tables).1.agents id) := by
  by_cases mine : agent.id = id
  · subst mine
    unfold storeColumns
    split
    · rw [isRow]
      exact paced
    · rename_i found isFound
      split
      · simp only [Tables.setAgent, Function.update_self]
        exact
          { paced with
            unknown := by
              intro impossible
              cases impossible
            undocumented := by
              intro after isAfter none
              obtain rfl := Option.some.inj isAfter
              cases none
            left := fun other member same =>
              absurd (List.mem_map.mpr ⟨other, member, same⟩) done
            waiting := by
              rw [idle]
              intro _ member
              cases member }
      · rw [isRow]
        exact paced
  · rw [storeColumns_other mine, isRow]
    exact paced

end Paced

/-! ## Documents stay -/

section

variable {waited : String → String → Nat → Bool} {runtime : Runtime}
  {id : Nat} {tables after : Tables}

theorem HasDocument.keep (has : HasDocument id tables)
    (keeps : KeepsRow (tables.agents id) (after.agents id)) :
    HasDocument id after := by
  obtain ⟨row, found, some⟩ := has
  obtain ⟨kept, isKept, same⟩ := keeps row found
  simp only [tryColumns, Prod.mk.injEq] at same
  exact ⟨kept, isKept, same.2.1 ▸ some⟩

theorem HasDocument.recordTry (has : HasDocument id tables)
    (triedAt : String) (agent : PendingAgent) :
    HasDocument id (recordTry triedAt tables agent) := by
  obtain ⟨row, found, some⟩ := has
  by_cases mine : agent.id = id
  · subst mine
    unfold Resolver.recordTry
    simp only [found]
    split
    · exact ⟨_, Function.update_self _ _ _, some⟩
    · exact ⟨row, found, some⟩
  · exact ⟨row, (recordTry_other mine).trans found, some⟩

theorem HasDocument.recordTries (has : HasDocument id tables)
    (triedAt : String) (round : List PendingAgent) :
    HasDocument id (round.foldl (Resolver.recordTry triedAt) tables) := by
  induction round generalizing tables with
  | nil => exact has
  | cons agent round induction =>
      exact induction (has.recordTry triedAt agent)

theorem HasDocument.storeColumns (has : HasDocument id tables)
    (agent : PendingAgent) (columns : StoredDocument) (now : String) :
    HasDocument id (storeColumns agent columns now tables).1 := by
  obtain ⟨row, found, some⟩ := has
  by_cases mine : agent.id = id
  · subst mine
    unfold Resolver.storeColumns
    simp only [found]
    split
    · exact ⟨_, Function.update_self _ _ _, Option.some_ne_none _⟩
    · exact ⟨row, found, some⟩
  · exact ⟨row, (storeColumns_other mine).trans found, some⟩

theorem HasDocument.serve (has : HasDocument id tables)
    {exchange : Exchange resolverHost}
    (served : Serves waited tables exchange after) :
    HasDocument id after := by
  cases served with
  | recorded triedAt round => exact has.recordTries triedAt round
  | recordLost triedAt round error => exact has.recordTries triedAt round
  | stored agent columns now => exact has.storeColumns agent columns now
  | storeLost agent columns now error =>
      exact has.storeColumns agent columns now
  | _ => exact has

end

/-! ## Runs -/

section

variable {waited : String → String → Nat → Bool} {runtime : Runtime}
  {id : Nat} {past current : List (Exchange resolverHost)}
  {world : World}

/-- What holds after any number of runs and part of one more. -/
structure Steady (id : Nat) (past current : List (Exchange resolverHost))
    (world : World) : Prop where
  logged : world.log.map Moment.exchange = past ++ current
  timed : ∀ moment ∈ world.log, ∀ time, moment.exchange = ⟨.now, time⟩ →
    FourDigits moment.clock ∧ time = pgText moment.clock
  paced : Paced id (track world.log) world.clock (world.tables.agents id)
  exhausted : ∀ before moment later, world.log = before ++ moment :: later →
    (fetchesOf id before).length = MAX_ATTEMPTS → ∀ now agents,
      moment.exchange = ⟨.selectPending now, .ok agents⟩ →
        id ∉ agents.map PendingAgent.id
  finished : ∀ before moment later, world.log = before ++ moment :: later →
    HasDocument id moment.tables →
      fetchesOf id world.log = fetchesOf id (before ++ [moment]) ∧
        HasDocument id world.tables

/-- The time a run has just read is the last the log knows. -/
theorem Steady.justRead (steady : Steady id past current world)
    {time : String} (isLast : current.getLast? = some ⟨.now, time⟩) :
    time = pgText (track world.log).read ∧
      FourDigits (track world.log).read := by
  have isLastLogged : (world.log.map Moment.exchange).getLast? =
      some ⟨.now, time⟩ := by
    rw [steady.logged, List.getLast?_append, isLast]
    rfl
  rcases List.eq_nil_or_concat world.log with empty | ⟨before, moment, whole⟩
  · rw [empty] at isLastLogged
    cases isLastLogged
  · rw [List.concat_eq_append] at whole
    have isNow : moment.exchange = ⟨.now, time⟩ := by
      rw [whole, List.map_append, List.map_singleton,
        List.getLast?_concat] at isLastLogged
      exact Option.some.inj isLastLogged
    obtain ⟨digits, isText⟩ := steady.timed moment
      (by rw [whole]; simp) time isNow
    have isRead : (track world.log).read = moment.clock := by
      rw [whole, track_snoc]
      unfold Tracker.note
      simp only [isNow]
    rw [isRead]
    exact ⟨isText, digits⟩

/-- The queue of the current run is the one the log knows. -/
theorem Steady.queue (steady : Steady id past current world)
    (selected : HasSelected current) :
    (track world.log).queue = Queue.after current := by
  rw [track_queue, steady.logged, selected.after_append]

/-- Places in a log with one more moment. -/
theorem eq_append_of_snoc {α : Type*} {log before later : List α}
    {last item : α} (whole : log ++ [last] = before ++ item :: later) :
    (later = [] ∧ log = before ∧ last = item) ∨
      ∃ front, later = front ++ [last] ∧ log = before ++ item :: front := by
  rcases List.eq_nil_or_concat later with rfl | ⟨front, final, isLater⟩
  · left
    have same := List.append_inj_left' whole rfl
    subst same
    simpa using whole
  · right
    rw [List.concat_eq_append] at isLater
    subst isLater
    have split : log ++ [last] = (before ++ item :: front) ++ [final] := by
      simpa using whole
    obtain ⟨same, isLast⟩ := List.append_inj' split rfl
    cases isLast
    exact ⟨front, rfl, same⟩

/-- One exchange keeps the pace. -/
theorem Steady.pace (steady : Steady id past current world)
    (exact : ExactWait waited) {exchange : Exchange resolverHost}
    (orderly : Orderly current exchange) {tables after : Tables}
    {clock : Nat}
    (paced : Paced id (track world.log) clock (tables.agents id))
    (served : Serves waited tables exchange after) :
    Paced id ((track world.log).note { clock, exchange, tables := after })
      clock (after.agents id) := by
  cases served with
  | now time => exact paced.reading
  | inTime before => exact paced
  | @selected now agents selects =>
      obtain ⟨rfl, digits⟩ := steady.justRead orderly
      exact paced.select exact rfl digits selects
  | selectFailed now error => exact paced
  | recorded triedAt round =>
      obtain ⟨isNow, selected, isRound⟩ := orderly
      obtain ⟨rfl, digits⟩ := steady.justRead isNow
      rw [← steady.queue selected] at isRound
      exact paced.record rfl digits isRound
  | recordFailed triedAt round error => exact paced.refuse
  | recordLost triedAt round error =>
      obtain ⟨isNow, selected, isRound⟩ := orderly
      obtain ⟨rfl, digits⟩ := steady.justRead isNow
      rw [← steady.queue selected] at isRound
      exact (paced.record rfl digits isRound).drop
  | resolved uri fetched =>
      obtain ⟨selected, agent, rest, isNext, _⟩ := orderly
      rw [← steady.queue selected] at isNext
      have fetched := paced.fetch isNext
      unfold Tracker.note Queue.note
      simp only [isNext, List.tail_cons]
      exact fetched
  | stored agent columns now =>
      obtain ⟨selected, idle, done⟩ := orderly
      rw [← steady.queue selected] at idle done
      exact paced.store rfl idle done columns now
  | storeFailed agent columns now error => exact paced
  | storeLost agent columns now error =>
      obtain ⟨selected, idle, done⟩ := orderly
      rw [← steady.queue selected] at idle done
      exact paced.store rfl idle done columns now

/-- Where a document is stored, no fetch begins. -/
theorem Paced.fetchesOf_note {tracker : Tracker} {clock : Nat}
    {tables : Tables}
    (paced : Paced id tracker clock (tables.agents id))
    (has : HasDocument id tables) (moment : Moment) :
    (tracker.note moment).fetchesOf id = tracker.fetchesOf id := by
  unfold Tracker.note
  dsimp only
  split
  · rfl
  · rfl
  · rename_i agent rest isRequest isNext
    have other : agent.id ≠ id := by
      intro mine
      obtain ⟨_, _, _, found, isFound, none, _⟩ :=
        paced.waiting agent (by rw [isNext]; simp) mine
      obtain ⟨row, isRow, some⟩ := has
      obtain rfl := Option.some.inj (isRow.symm.trans isFound)
      exact some none
    simp [Tracker.fetchesOf, List.filter_append, other]
  · rfl

theorem Steady.exchange (steady : Steady id past current world)
    (exact : ExactWait waited) {exchange : Exchange resolverHost}
    (orderly : Orderly current exchange) {next : World}
    (step : Timed waited runtime id world exchange next) :
    Steady id past (current ++ [exchange]) next := by
  obtain ⟨late, moved, reads, served⟩ := step
  rename_i tables after clock
  have keeps := keepsRow_of_leaves moved
  have paced : Paced id (track world.log) clock (tables.agents id) :=
    (steady.paced.later late).keep keeps
  constructor
  · rw [List.map_append, steady.logged, List.append_assoc]
    rfl
  · intro moment member
    rcases List.mem_append.mp member with old | new
    · exact steady.timed moment old
    · cases List.mem_singleton.mp new
      exact reads
  · rw [track_snoc]
    exact steady.pace exact orderly paced served
  · intro before moment later whole used now agents isSelect selected
    rcases eq_append_of_snoc whole with ⟨_, rfl, rfl⟩ | ⟨front, _, isLog⟩
    · dsimp only at isSelect
      subst isSelect
      cases served with
      | selected selects =>
          obtain ⟨agent, member, rfl⟩ := List.mem_map.mp selected
          obtain ⟨row, found, isPending, _⟩ := selects.pending agent member
          obtain ⟨_, none, _, few, _⟩ := isPending
          have counted := (paced.undocumented row found none).1
          change (fetchesOf agent.id world.log).length ≤ _ at counted
          omega
    · exact steady.exhausted before moment front isLog used now agents
        isSelect selected
  · intro before moment later whole has
    rcases eq_append_of_snoc whole with ⟨_, rfl, rfl⟩ | ⟨front, _, isLog⟩
    · exact ⟨rfl, has⟩
    · obtain ⟨same, had⟩ := steady.finished before moment front isLog has
      have stays := had.keep keeps
      refine ⟨?_, stays.serve served⟩
      rw [← same]
      unfold fetchesOf
      rw [track_snoc]
      exact paced.fetchesOf_note stays _

/-- Whatever the runs, their deadlines and failures: at most five fetches are
started for an agent whose URI is not rewritten; the next starts two to the
number of fetches minutes after the time recorded with the last, which is no
later than its start; after five the agent is not selected any more; and once
it has a document no fetch is started for it. -/
theorem retries_back_off (exact : ExactWait waited) {clock : Nat}
    {tables : Tables}
    (runs : Successive (fun _ : Unit => resolvePending)
      (Timed waited runtime id) { clock, tables, log := [] } past ()
      current world) :
    (fetchesOf id world.log).length ≤ MAX_ATTEMPTS ∧
    (∀ place first second, (fetchesOf id world.log)[place]? = some first →
      (fetchesOf id world.log)[place + 1]? = some second →
        first.tried ≤ first.started ∧
          first.tried + 2 ^ (place + 1) * 60000 ≤ second.started) ∧
    (∀ before moment later, world.log = before ++ moment :: later →
      (fetchesOf id before).length = MAX_ATTEMPTS → ∀ now agents,
        moment.exchange = ⟨.selectPending now, .ok agents⟩ →
          id ∉ agents.map PendingAgent.id) ∧
    ∀ before moment later, world.log = before ++ moment :: later →
      HasDocument id moment.tables →
        fetchesOf id world.log = fetchesOf id (before ++ [moment]) := by
  have steady : Steady id past current world := by
    apply runs.invariant (fun _ => Orderly)
      (fun _ => resolvePending_orderly) ?_ (Steady id)
    · refine ⟨rfl, fun _ member => (nomatch member),
        (Paced.begin _).later (Nat.zero_le clock), ?_, ?_⟩
      · intro before moment later whole
        simp at whole
      · intro before moment later whole
        simp at whole
    · intro past current state steady
      exact { steady with logged := by simpa using steady.logged }
    · intro past current state next _ exchange steady orderly step
      exact steady.exchange exact orderly step
    · rintro state exchange after ⟨_, _, _, served⟩
      cases served with
      | selected selects => exact selects.distinct
      | _ => trivial
  refine ⟨steady.paced.budget, ?_, steady.exhausted, ?_⟩
  · intro place first second isFirst isSecond
    exact ⟨(steady.paced.fetched first (List.mem_of_getElem? isFirst)).2,
      steady.paced.spaced place first second isFirst isSecond⟩
  · exact fun before moment later whole has =>
      (steady.finished before moment later whole has).1

end

/-! ## Two runs -/

theorem pgText_inj {first second : Int} (one : FourDigits first)
    (two : FourDigits second) (same : pgText first = pgText second) :
    first = second := by
  rcases Int.lt_trichotomy first second with less | equal | more
  · exact absurd (same ▸ pgText_lt less one two) (String.lt_irrefl _)
  · exact equal
  · exact absurd (same ▸ pgText_lt more two one) (String.lt_irrefl _)

open Classical in
/-- The comparison of `julianday` without rounding. -/
noncomputable def exactlyWaited (now last : String) (attempts : Nat) :
    Bool :=
  decide (∃ second first : Nat, FourDigits second ∧ FourDigits first ∧
    now = pgText second ∧ last = pgText first ∧
    first + 2 ^ attempts * 60000 ≤ second)

theorem exactlyWaited_exact : ExactWait exactlyWaited := by
  intro now last attempts isNow isLast
  simp only [exactlyWaited, decide_eq_true_eq]
  constructor
  · rintro ⟨second, first, two, one, sameNow, sameLast, waited⟩
    have nowEq := Int.ofNat.inj (pgText_inj isNow two sameNow)
    have lastEq := Int.ofNat.inj (pgText_inj isLast one sameLast)
    rw [nowEq, lastEq]
    exact waited
  · exact fun waited => ⟨now, last, isNow, isLast, rfl, rfl, waited⟩

/-- The exchanges of a run up to its only fetch. -/
def oneFetch (time : String) (agent : PendingAgent) :
    List (Exchange resolverHost) :=
  [⟨.now, time⟩, ⟨.selectPending time, .ok [agent]⟩, ⟨.inTime, true⟩,
    ⟨.now, time⟩, ⟨.recordTries time [agent], .answered ()⟩,
    ⟨.resolve agent.agentUri, .nothing⟩]

/-- What the host answers in such a run. -/
def oneFetchAnswer (time : String) (agent : PendingAgent) :
    (request : ResolveRequest) → request.Answer
  | .now => time
  | .inTime => true
  | .selectPending _ => .ok [agent]
  | .recordTries _ _ => .answered ()
  | .resolve _ => .nothing
  | .store _ _ _ => .answered 0

/-- The world after such a run.  The fetch starts `late`. -/
def World.fetchLate (world : World) (clock late : Nat) (time : String)
    (agent : PendingAgent) : World :=
  let recorded := recordTry time world.tables agent
  { clock := late, tables := recorded
    log := world.log ++
      [{ clock, exchange := ⟨.now, time⟩, tables := world.tables }] ++
      [{ clock, tables := world.tables
         exchange := ⟨.selectPending time, .ok [agent]⟩ }] ++
      [{ clock, exchange := ⟨.inTime, true⟩, tables := world.tables }] ++
      [{ clock, exchange := ⟨.now, time⟩, tables := world.tables }] ++
      [{ clock, tables := recorded
         exchange := ⟨.recordTries time [agent], .answered ()⟩ }] ++
      [{ clock := late, tables := recorded
         exchange := ⟨.resolve agent.agentUri, .nothing⟩ }] }

theorem served_oneFetch {waited : String → String → Nat → Bool}
    {runtime : Runtime} {id clock late : Nat} {world : World}
    {time : String} {agent : PendingAgent} (after : world.clock ≤ clock)
    (slow : clock ≤ late) (digits : FourDigits clock)
    (isTime : time = pgText clock)
    (selects : Selects waited world.tables time [agent]) :
    Served (Timed waited runtime id) world (oneFetch time agent)
      (world.fetchLate clock late time agent) := by
  have reads : ∀ other, (⟨.now, time⟩ : Exchange resolverHost) =
      ⟨.now, other⟩ → FourDigits clock ∧ other = pgText clock := by
    intro other same
    cases same
    exact ⟨digits, isTime⟩
  refine .cons (.exchanged after .refl reads (.now _)) ?_
  refine .cons (.exchanged (Nat.le_refl _) .refl nofun (.selected selects)) ?_
  refine .cons (.exchanged (Nat.le_refl _) .refl nofun (.inTime true)) ?_
  refine .cons (.exchanged (Nat.le_refl _) .refl reads (.now _)) ?_
  refine .cons (.exchanged (Nat.le_refl _) .refl nofun
    (.recorded _ [agent])) ?_
  refine .cons (.exchanged slow .refl nofun (.resolved _ .nothing)) ?_
  exact .nil _

theorem selects_alone {waited : String → String → Nat → Bool}
    {tables : Tables} {now : String} {agent : PendingAgent} {row : AgentRow}
    (found : tables.agents agent.id = some row)
    (isPending : IsPending waited now row)
    (isUri : row.agentUri = some agent.agentUri)
    (attempts : row.uriResolveAttempts = agent.uriResolveAttempts)
    (alone : ∀ id, id ≠ agent.id → tables.agents id = none) :
    Selects waited tables now [agent] := by
  constructor
  · intro other member
    cases List.mem_singleton.mp member
    exact ⟨row, found, isPending, isUri, attempts⟩
  · simp
  · rw [List.length_singleton]
    decide
  · simp
  · intro id other isOther _
    left
    by_cases same : id = agent.id
    · exact List.mem_singleton.mpr same
    · rw [alone id same] at isOther
      cases isOther

/-- An agent whose URI was never tried. -/
def freshRow : AgentRow := Tables.newAgent "G" "u" true "t" 1 "tx" "t"

def freshWorld : World :=
  { clock := 0, tables := Tables.empty.setAgent 0 freshRow, log := [] }

def pendingAgent (attempts : Nat) : PendingAgent :=
  { id := 0, agentUri := "u", uriResolveAttempts := attempts }

/-- The first fetch starts a minute after its try was recorded, the second two
minutes after that record. -/
def twoFetches (first second : String) : World :=
  (freshWorld.fetchLate 0 60000 first (pendingAgent 0)).fetchLate 120000
    120000 second (pendingAgent 1)

theorem twoFetches_reached (runtime : Runtime) {first second : String}
    (isFirst : first = pgText (0 : Nat))
    (isSecond : second = pgText (120000 : Nat)) :
    Successive (fun _ : Unit => resolvePending)
      (Timed exactlyWaited runtime 0) freshWorld
      (oneFetch first (pendingAgent 0)) ()
      (oneFetch second (pendingAgent 1)) (twoFetches first second) := by
  have digits : ∀ clock : Nat, clock ≤ 120000 → FourDigits clock := by
    intro clock early
    apply fourDigits_of_recent
    · have negative : -msPerDay ≤ 0 := by decide
      omega
    · have far : (120000 : Int) < year9999 := by decide
      omega
  have yields : ∀ time, Yields resolvePending (oneFetch time (pendingAgent 0))
        none ∧ Yields resolvePending (oneFetch time (pendingAgent 1)) none := by
    intro time
    constructor
    · have ends := yields_answeredBy (oneFetchAnswer time (pendingAgent 0))
        resolvePending
      have isTrace : (resolvePending.answeredBy
          (oneFetchAnswer time (pendingAgent 0))).1 =
            oneFetch time (pendingAgent 0) ++ [⟨.now, time⟩] := rfl
      rw [isTrace] at ends
      exact ends.of_append
    · have ends := yields_answeredBy (oneFetchAnswer time (pendingAgent 1))
        resolvePending
      have isTrace : (resolvePending.answeredBy
          (oneFetchAnswer time (pendingAgent 1))).1 =
            oneFetch time (pendingAgent 1) ++ [⟨.now, time⟩] := rfl
      rw [isTrace] at ends
      exact ends.of_append
  have one : Selects exactlyWaited freshWorld.tables first
      [pendingAgent 0] := by
    apply selects_alone rfl ?_ rfl rfl
    · exact fun id other => Function.update_of_ne other _ _
    · exact ⟨rfl, rfl, ⟨"u", rfl, by decide⟩, by decide, .inl rfl⟩
  have waited : exactlyWaited second first 1 = true := by
    rw [isFirst, isSecond]
    apply (exactlyWaited_exact _ _ _ (digits _ (by decide))
      (digits _ (by decide))).mpr
    decide
  have two : Selects exactlyWaited
      (freshWorld.fetchLate 0 60000 first (pendingAgent 0)).tables second
      [pendingAgent 1] := by
    have recorded : (freshWorld.fetchLate 0 60000 first
        (pendingAgent 0)).tables.agents 0 =
          some (triedRow (pendingAgent 0) first freshRow) := rfl
    apply selects_alone recorded ?_ rfl rfl
    · intro id other
      have apart : (pendingAgent 0).id ≠ id := fun same => other same.symm
      have left : freshWorld.tables.agents id = none :=
        Function.update_of_ne other _ _
      exact (recordTry_other apart).trans left
    · have few : 1 < MAX_ATTEMPTS := by decide
      exact ⟨rfl, rfl, ⟨"u", rfl, by decide⟩, few,
        .inr (.inr ⟨first, rfl, waited⟩)⟩
  have start : Successive (fun _ : Unit => resolvePending)
      (Timed exactlyWaited runtime 0) freshWorld [] () [] freshWorld :=
    .first ()
  have slow : Served (Timed exactlyWaited runtime 0) freshWorld
      (oneFetch first (pendingAgent 0))
      (freshWorld.fetchLate 0 60000 first (pendingAgent 0)) :=
    served_oneFetch (Nat.le_refl 0) (by decide) (digits 0 (by decide)) isFirst
      one
  have prompt : Served (Timed exactlyWaited runtime 0)
      (freshWorld.fetchLate 0 60000 first (pendingAgent 0))
      (oneFetch second (pendingAgent 1)) (twoFetches first second) := by
    have passed : 60000 ≤ 120000 := by decide
    exact served_oneFetch passed (Nat.le_refl _) (digits 120000 (by decide))
      isSecond two
  have ran := (start.extend (yields first).1 slow).next ()
  exact ran.extend (yields second).2 prompt

theorem retries_back_off_twice :
    ∃ first second : Fetch, ∃ world : World,
      Successive (fun _ : Unit => resolvePending)
        (Timed exactlyWaited { parseDate := fun _ => none, callDepth := 0 } 0)
        freshWorld (oneFetch (pgText (0 : Nat)) (pendingAgent 0)) ()
        (oneFetch (pgText (120000 : Nat)) (pendingAgent 1)) world ∧
      (fetchesOf 0 world.log)[0]? = some first ∧
      (fetchesOf 0 world.log)[1]? = some second ∧
      first.tried + 2 * 60000 ≤ second.started := by
  refine ⟨_, _, _, twoFetches_reached _ rfl rfl, rfl, rfl, ?_⟩
  exact ((retries_back_off exactlyWaited_exact
    (twoFetches_reached { parseDate := fun _ => none, callDepth := 0 } rfl
      rfl)).2.1 0 _ _ rfl rfl).2

/-- The starts of the two fetches are a minute apart. -/
theorem fetches_start_closer :
    ∃ first second : Fetch, ∃ world : World,
      Successive (fun _ : Unit => resolvePending)
        (Timed exactlyWaited { parseDate := fun _ => none, callDepth := 0 } 0)
        freshWorld (oneFetch (pgText (0 : Nat)) (pendingAgent 0)) ()
        (oneFetch (pgText (120000 : Nat)) (pendingAgent 1)) world ∧
      (fetchesOf 0 world.log)[0]? = some first ∧
      (fetchesOf 0 world.log)[1]? = some second ∧
      ¬ first.started + 2 * 60000 ≤ second.started := by
  refine ⟨_, _, _, twoFetches_reached _ rfl rfl, rfl, rfl, ?_⟩
  decide

end Resolver

end Stellar8004.Indexer
