import Stellar8004.Contracts.Explorer
import Stellar8004.Web.FeedbackReplies

/-!
# The public API and the contracts

What the lists of the public API answer over the tables the indexer keeps: the
tokens of an owner, and the feedback of an agent with the responses to it, as
the registries hold them.
-/

namespace Stellar8004.Contracts

open Stellar8004.Indexer Stellar8004.Web

/-- The tables as a request reads them. -/
structure Shows (db : ReplyDb) (tables : Tables) : Prop where
  agents : ∀ id row, (∃ shown ∈ db.rows, shown.id = id ∧ shown.agent = row) ↔
    tables.agents id = some row
  feedback : ∀ key row,
    (∃ item ∈ db.feedback, item.key = key ∧ item.row = row) ↔
      tables.feedback key = some row
  responses : (db.responses.map ReplyItem.row).Perm tables.feedbackResponses

/-! ## Accounts -/

/-- The tokens of an owner. -/
def tokensOf (state : IdentityState) (owner : Address) : List Nat :=
  (List.range state.nextTokenId).filter fun agent =>
    state.findOwner agent = some owner

/-- A row holds what the registry answers of its agent. -/
structure Describes (state : IdentityState) (row : AgentScores) : Prop where
  owner : (state.findOwner row.id).map StrKey.encode = some row.agent.owner
  wallet : row.agent.wallet = (state.getAgentWallet row.id).map StrKey.encode
  agentUri : row.agent.agentUri.map utf8 =
    some ((state.agentUri row.id).getD ByteArray.empty)

section

variable {db : ReplyDb} {tables : Tables} {state : IdentityState}

theorem Shows.describes (shows : Shows db tables)
    (refines : RefinesIdentity tables state) {row : AgentScores}
    (member : row ∈ db.rows) : Describes state row := by
  have found : tables.agents row.id = some row.agent :=
    (shows.agents row.id row.agent).mp ⟨row, member, rfl, rfl⟩
  exact ⟨refines.owner _ _ found, refines.wallet _ _ found,
    refines.agentUri _ _ found⟩

theorem Shows.mem_owned_iff (shows : Shows db tables)
    (refines : RefinesIdentity tables state) (owner : Address) (id : Nat) :
    id ∈ (ownedAgents db.toDiscoveryDb (StrKey.encode owner)).map
        AgentScores.id ↔
      state.findOwner id = some owner := by
  constructor
  · intro member
    obtain ⟨row, inside, rfl⟩ := List.mem_map.mp member
    obtain ⟨isRow, owned⟩ := List.mem_filter.mp inside
    have described := (shows.describes refines isRow).owner
    rw [of_decide_eq_true owned] at described
    obtain ⟨holder, isHolder, same⟩ := Option.map_eq_some_iff.mp described
    rw [isHolder, encode_injective same]
  · intro isOwner
    have some : (tables.agents id).isSome = true := by
      rw [refines.rows id, isOwner]
      rfl
    obtain ⟨row, found⟩ := Option.isSome_iff_exists.mp some
    obtain ⟨shown, isRow, rfl, rfl⟩ := (shows.agents id row).mpr found
    have owned := refines.owner _ _ found
    rw [isOwner, Option.map_some] at owned
    apply List.mem_map_of_mem
    apply List.mem_filter.mpr
    exact ⟨isRow, decide_eq_true (Option.some.inj owned).symm⟩

theorem Shows.owned_perm (shows : Shows db tables)
    (refines : RefinesIdentity tables state)
    (minted : ∀ agent, (state.owner agent).isSome = true →
      agent < state.nextTokenId) (owner : Address) :
    ((ownedAgents db.toDiscoveryDb (StrKey.encode owner)).map
      AgentScores.id).Perm (tokensOf state owner) := by
  have rows : ((ownedAgents db.toDiscoveryDb (StrKey.encode owner)).map
      AgentScores.id).Nodup :=
    db.unique.sublist (List.filter_sublist.map _)
  have tokens : (tokensOf state owner).Nodup := List.nodup_range.filter _
  apply (List.perm_ext_iff_of_nodup rows tokens).mpr
  intro id
  rw [shows.mem_owned_iff refines owner id]
  unfold tokensOf
  rw [List.mem_filter, List.mem_range, decide_eq_true_eq]
  constructor
  · intro isOwner
    refine ⟨minted id ?_, isOwner⟩
    rw [show state.owner id = some owner from isOwner]
    rfl
  · exact fun both => both.2

/-- The pages of an account are slices of one list: each of its tokens once,
described as the registry does, in the order that was asked for. -/
structure AnswersTokens (state : IdentityState) (owner : Address)
    (params : Params) (listed : List AgentScores)
    (fetch : Nat → ListPage AgentScores) : Prop where
  pages : ServesPages listed (pageParams params).limit 10000 fun page =>
    (fetch page).toNumberedPage
  totals : ∀ page, (fetch page).total = (tokensOf state owner).length
  tokens : (listed.map AgentScores.id).Perm (tokensOf state owner)
  rows : ∀ row ∈ listed, Describes state row
  sorted : listed.Pairwise fun first second =>
    orderBy params first second = .lt

theorem accounts_answer (shows : Shows db tables)
    (refines : RefinesIdentity tables state)
    (minted : ∀ agent, (state.owner agent).isSome = true →
      agent < state.nextTokenId)
    {isValidStellarAddress : String → Bool} {owner : Address}
    (valid : isValidStellarAddress (StrKey.encode owner) = true)
    (params : Params) :
    ∃ listed fetch,
      (∀ page, handleAccounts isValidStellarAddress db.toListDb
        (StrKey.encode owner) (withPage params page) = .ok (fetch page)) ∧
      AnswersTokens state owner params listed fetch := by
  have owned := shows.owned_perm refines minted owner
  have unique : ((ownedAgents db.toDiscoveryDb (StrKey.encode owner)).map
      AgentScores.id).Nodup :=
    db.unique.sublist (List.filter_sublist.map _)
  have inOrder := orderBy_inOrder params unique
  refine ⟨ordered (orderBy params)
      (ownedAgents db.toDiscoveryDb (StrKey.encode owner)),
    fun page => listPage (orderBy params)
      (ownedAgents db.toDiscoveryDb (StrKey.encode owner))
      (withPage params page), ?_, ?_⟩
  · intro page
    simp only [handleAccounts, valid, if_true, orderBy_withPage]
  · constructor
    · exact listPage_serves _ _ params
    · intro page
      have length := owned.length_eq
      rw [List.length_map] at length
      exact length
    · exact (inOrder.1.map _).trans owned
    · intro row member
      have inside := inOrder.1.mem_iff.mp member
      exact shows.describes refines (List.mem_of_mem_filter inside)
    · exact inOrder.2

end

/-! ## Feedback -/

/-- An answer is an entry of the registry with the responses to it, newest
first.  Its value is the double next to the one of the entry, which it is if
that has up to 53 bits. -/
structure AnswersEntry (state : ReputationState)
    (log : List (ReputationEvent × Stamp)) (agentId : Nat) (client : Address)
    (index : Nat) (data : FeedbackData) (shown : AnsweredFeedback) :
    Prop where
  key : shown.item.key = plainKey agentId client index
  columns : RowOf data shown.item.row
  value : shown.value = overflowing (roundDouble data.value)
  exact : data.value.natAbs < 2 ^ 53 → shown.value = .finite data.value
  count : shown.responses.length = state.getResponseCount agentId client index
  appended : (shown.responses.map (·.row.eventId)).Perm
    (responseIds log agentId client index)
  sorted : shown.responses.Pairwise fun first second =>
    replyOrder first second = .lt

section

variable {db : ReplyDb} {tables : Tables} {state : ReputationState}
  {log : List (ReputationEvent × Stamp)}

theorem Shows.reply_rows (shows : Shows db tables) (item : FeedbackItem) :
    ((answered db item).responses.map ReplyItem.row).Perm
      (tables.feedbackResponses.filter fun row => row.key = item.key) := by
  have sorted := List.mergeSort_perm
    (db.responses.filter fun reply => reply.row.key = item.key)
    fun first second => (replyOrder first second).isLE
  have kept := shows.responses.filter fun row => decide (row.key = item.key)
  rw [List.filter_map] at kept
  exact (sorted.map ReplyItem.row).trans kept

theorem Shows.entry_of_item (shows : Shows db tables)
    (refines : RefinesReputation tables state log) {agentId : Nat}
    {client : Address} {index : Nat} {data : FeedbackData}
    {item : FeedbackItem} (member : item ∈ db.feedback)
    (isKey : item.key = plainKey agentId client index)
    (isData : state.readFeedback agentId client index = .ok data) :
    AnswersEntry state log agentId client index data (answered db item) := by
  have found : tables.feedback (plainKey agentId client index) =
      some item.row :=
    (shows.feedback _ item.row).mp ⟨item, member, isKey, rfl⟩
  have replies := shows.reply_rows item
  rw [isKey] at replies
  have columns := refines.columns agentId client index _ data found isData
  constructor
  · exact isKey
  · exact columns
  · rw [answered, columns.value, feedbackNumber, number_toString]
  · intro small
    rw [answered, columns.value, feedbackNumber_exact small]
  · have numbers := congrArg List.length (refines.numbers agentId client index)
    rw [List.length_map, List.length_range'] at numbers
    rw [← numbers, ← replies.length_eq, List.length_map]
  · rw [← refines.appended agentId client index]
    have ids := replies.map ResponseRow.eventId
    rw [List.map_map] at ids
    exact ids
  · apply And.right
    apply ordered_inOrder
    exact db.responsesUnique.sublist (List.filter_sublist.map _)

/-- Every row is an entry of the registry. -/
theorem Shows.exists_entry (shows : Shows db tables)
    (refines : RefinesReputation tables state log) {item : FeedbackItem}
    (member : item ∈ db.feedback) :
    ∃ agentId client index data,
      item.key = plainKey agentId client index ∧
      state.readFeedback agentId client index = .ok data := by
  have found : tables.feedback item.key = some item.row :=
    (shows.feedback _ item.row).mp ⟨item, member, rfl, rfl⟩
  by_contra none
  have plain : ∀ agentId client index,
      item.key ≠ plainKey agentId client index := by
    intro agentId client index isKey
    rw [isKey] at found
    obtain ⟨data, isData⟩ := (refines.rows agentId client index).mp
      (Option.isSome_iff_exists.mpr ⟨_, found⟩)
    exact none ⟨agentId, client, index, data, isKey, isData⟩
  have blank := congrArg FeedbackCell.row (refines.nothingElse item.key plain)
  rw [show (tables.feedbackCell item.key).row = tables.feedback item.key from
    rfl, found] at blank
  cases blank

/-- An entry with the tag that is asked for. -/
def Tagged (tag : String) (data : FeedbackData) : Prop :=
  tag = "" ∨ data.tag1 = utf8 tag

theorem RowOf.tagged_iff {data : FeedbackData} {row : FeedbackRow}
    (columns : RowOf data row) (tag : String) :
    (tag = "" ∨ row.tag1 = some tag) ↔ Tagged tag data := by
  unfold Tagged
  by_cases none : tag = ""
  · simp only [none, true_or]
  · have some : utf8 tag ≠ ByteArray.empty := by
      intro empty
      exact none (utf8_injective empty)
    have texts := columns.tag1
    simp only [none, false_or]
    constructor
    · intro isTag
      rw [isTag, Option.map_some, nullable] at texts
      split at texts
      · cases texts
      · exact (Option.some.inj texts).symm
    · intro isTag
      rw [nullable, if_neg (isTag ▸ some), isTag] at texts
      obtain ⟨other, isOther, same⟩ := Option.map_eq_some_iff.mp texts
      rw [isOther, utf8_injective same]

/-- The pages of an agent's feedback are slices of one list, newest first:
each entry of the registry with the tag once, with all the responses to it. -/
structure AnswersFeedback (state : ReputationState)
    (log : List (ReputationEvent × Stamp)) (agentId : Nat) (params : Params)
    (listed : List AnsweredFeedback)
    (fetch : Nat → ListPage AnsweredFeedback) : Prop where
  pages : ServesPages listed (pageParams params).limit 10000 fun page =>
    (fetch page).toNumberedPage
  totals : ∀ page, (fetch page).total = listed.length
  sound : ∀ shown ∈ listed, ∃ client index data,
    state.readFeedback agentId client index = .ok data ∧
    Tagged ((params.get "tag").getD "") data ∧
    AnswersEntry state log agentId client index data shown
  complete : ∀ client index data,
    state.readFeedback agentId client index = .ok data →
    Tagged ((params.get "tag").getD "") data →
    ∃ shown ∈ listed, AnswersEntry state log agentId client index data shown
  once : (listed.map fun shown => shown.item.key).Nodup
  sorted : listed.Pairwise fun first second =>
    feedbackOrder first.item second.item = .lt

theorem Shows.mem_listed_iff (shows : Shows db tables)
    (refines : RefinesReputation tables state log) (agentId : Nat)
    (params : Params) (item : FeedbackItem) :
    item ∈ listedFeedback db.toListDb agentId params ↔
      item ∈ db.feedback ∧ ∃ client index data,
        item.key = plainKey agentId client index ∧
        state.readFeedback agentId client index = .ok data ∧
        Tagged ((params.get "tag").getD "") data := by
  unfold listedFeedback
  rw [List.mem_filter, decide_eq_true_eq, Nat.cast_inj]
  apply and_congr_right
  intro member
  obtain ⟨agent, client, index, data, isKey, isData⟩ :=
    shows.exists_entry refines member
  have columns :=
    (shows.entry_of_item refines member isKey isData).columns
  constructor
  · rintro ⟨isAgent, tagged⟩
    rw [isKey] at isAgent
    obtain rfl : agent = agentId := isAgent
    exact ⟨client, index, data, isKey, isData,
      (columns.tagged_iff _).mp tagged⟩
  · rintro ⟨other, place, stored, otherKey, isStored, tagged⟩
    have same := plainKey_injective (isKey.symm.trans otherKey)
    cases same
    rw [isData] at isStored
    cases isStored
    refine ⟨?_, (columns.tagged_iff _).mpr tagged⟩
    rw [isKey]
    rfl

theorem feedback_answers (shows : Shows db tables)
    (refines : RefinesReputation tables state log)
    (small : ∀ agentId client index data,
      state.readFeedback agentId client index = .ok data → index < 2 ^ 53)
    {id : String} {agentId : Nat} (isId : parseInt id = some (agentId : Int))
    (params : Params) :
    ∃ listed fetch,
      (∀ page, handleFeedback db id (withPage params page) =
        .ok (fetch page)) ∧
      AnswersFeedback state log agentId params listed fetch := by
  have few : ∀ item ∈ db.feedback, item.key.feedbackIndex < 2 ^ 53 := by
    intro item member
    obtain ⟨agent, client, index, data, isKey, isData⟩ :=
      shows.exists_entry refines member
    rw [isKey]
    exact small agent client index data isData
  have unique : ((listedFeedback db.toListDb agentId params).map
      FeedbackItem.id).Nodup :=
    db.feedbackUnique.sublist (List.filter_sublist.map _)
  have inOrder : InOrder feedbackOrder
      (listedFeedback db.toListDb agentId params)
      (ordered feedbackOrder (listedFeedback db.toListDb agentId params)) :=
    ordered_inOrder unique
  refine ⟨(ordered feedbackOrder
      (listedFeedback db.toListDb agentId params)).map (answered db),
    fun page =>
      let shown := listPage feedbackOrder
        (listedFeedback db.toListDb agentId params) (withPage params page)
      { shown with items := shown.items.map (answered db) }, ?_, ?_⟩
  · intro page
    rw [handleFeedback_eq few]
    simp only [handleAgentFeedback, isId, listedFeedback_withPage]
    rfl
  · constructor
    · exact (listPage_serves _ _ params).map (answered db)
    · intro page
      rw [List.length_map, inOrder.1.length_eq]
      rfl
    · intro shown member
      obtain ⟨item, inside, rfl⟩ := List.mem_map.mp member
      obtain ⟨isItem, client, index, data, isKey, isData, tagged⟩ :=
        (shows.mem_listed_iff refines agentId params item).mp
          (inOrder.1.mem_iff.mp inside)
      exact ⟨client, index, data, isData, tagged,
        shows.entry_of_item refines isItem isKey isData⟩
    · intro client index data isData tagged
      have some := (refines.rows agentId client index).mpr ⟨data, isData⟩
      obtain ⟨row, found⟩ := Option.isSome_iff_exists.mp some
      obtain ⟨item, isItem, isKey, rfl⟩ := (shows.feedback _ row).mpr found
      refine ⟨answered db item, ?_,
        shows.entry_of_item refines isItem isKey isData⟩
      apply List.mem_map_of_mem
      apply inOrder.1.mem_iff.mpr
      apply (shows.mem_listed_iff refines agentId params item).mpr
      exact ⟨isItem, client, index, data, isKey, isData, tagged⟩
    · rw [List.map_map]
      have keys : ((listedFeedback db.toListDb agentId params).map
          FeedbackItem.key).Nodup :=
        db.keysUnique.sublist (List.filter_sublist.map _)
      exact (inOrder.1.map FeedbackItem.key).nodup_iff.mpr keys
    · exact List.pairwise_map.mpr inOrder.2

end

/-! ## Over the runs of the indexer -/

section

variable {chain : Chain} {log : List (ContractEvent × Stamp)} {origin : Nat}
  {past current : Trace} {latest : UnclampedRun} {store : Store}
  {db : ReplyDb}

theorem Run.read_index (runtime : Runtime)
    (run : Run Chain.LegibleStep Chain.initial chain log)
    (small : ∀ agentId client,
      chain.reputation.lastIndex agentId client < 2 ^ 53)
    {agentId index : Nat} {client : Address} {data : FeedbackData}
    (isData : chain.reputation.readFeedback agentId client index =
      .ok data) : index < 2 ^ 53 := by
  have follows := run.reputation.follows runtime fun agentId client =>
    (small agentId client).trans (by decide)
  have stored : chain.reputation.feedback agentId client index =
      some data := by
    unfold ReputationState.readFeedback at isData
    split at isData
    · rename_i other found
      cases isData
      exact found
    · cases isData
  have inside := (follows.stored agentId client index data stored).1
  exact Nat.lt_of_le_of_lt inside (small agentId client)

end

/-- Tables without feedback, as a request reads them. -/
def agentsDb (tables : Tables) (count : Nat) (few : count ≤ 2 ^ 32) :
    ReplyDb :=
  { rows := (List.range count).filterMap fun id =>
      (tables.agents id).map fun agent => { id, agent, totalScore := none }
    agentsFts := fun _ _ => false
    identity := freshContract
    reputation := freshContract
    validation := freshContract
    unique := by
      rw [List.map_filterMap]
      refine List.Nodup.filterMap ?_ List.nodup_range
      intro first second id isFirst isSecond
      simp only [Option.mem_def, Option.map_map, Option.map_eq_some_iff]
        at isFirst isSecond
      obtain ⟨_, _, rfl⟩ := isFirst
      obtain ⟨_, _, rfl⟩ := isSecond
      rfl
    registered := by
      intro row member
      obtain ⟨id, inside, isRow⟩ := List.mem_filterMap.mp member
      obtain ⟨_, _, rfl⟩ := Option.map_eq_some_iff.mp isRow
      exact Nat.lt_of_lt_of_le (List.mem_range.mp inside) few
    real := by
      intro row member score isScore
      obtain ⟨_, _, isRow⟩ := List.mem_filterMap.mp member
      obtain ⟨_, _, rfl⟩ := Option.map_eq_some_iff.mp isRow
      cases isScore
    feedback := []
    feedbackUnique := List.nodup_nil
    responses := []
    responsesUnique := List.nodup_nil
    keysUnique := List.nodup_nil }

theorem agentsDb_shows {tables : Tables} {count : Nat} (few : count ≤ 2 ^ 32)
    (minted : ∀ id, (tables.agents id).isSome = true → id < count)
    (feedback : ∀ key, tables.feedback key = none)
    (responses : tables.feedbackResponses = []) :
    Shows (agentsDb tables count few) tables := by
  constructor
  · intro id row
    constructor
    · rintro ⟨shown, member, rfl, rfl⟩
      obtain ⟨_, _, isRow⟩ := List.mem_filterMap.mp member
      obtain ⟨_, found, rfl⟩ := Option.map_eq_some_iff.mp isRow
      exact found
    · intro found
      have inside := minted id (Option.isSome_iff_exists.mpr ⟨row, found⟩)
      refine ⟨{ id, agent := row, totalScore := none },
        List.mem_filterMap.mpr ⟨id, List.mem_range.mpr inside, ?_⟩, rfl, rfl⟩
      rw [found]
      rfl
  · intro key row
    rw [feedback key]
    constructor
    · rintro ⟨_, member, _⟩
      cases member
    · intro never
      cases never
  · rw [responses]
    exact .nil

/-- A registry without entries leaves no rows. -/
theorem RefinesReputation.no_feedback {tables : Tables}
    {log : List (ReputationEvent × Stamp)}
    (refines : RefinesReputation tables .initial log) (key : FeedbackKey) :
    tables.feedback key = none := by
  by_cases plain : ∃ agentId client index,
      key = plainKey agentId client index
  · obtain ⟨agentId, client, index, rfl⟩ := plain
    apply Option.not_isSome_iff_eq_none.mp
    intro some
    obtain ⟨data, isData⟩ := (refines.rows agentId client index).mp some
    cases isData
  · push Not at plain
    exact congrArg FeedbackCell.row (refines.nothingElse key plain)

/-- The store after the run that indexes the registration and the transfer. -/
def transferStore : Store := transferTrace.tail.foldl afterWrite (genesis 6)

theorem transferStore_served :
    Successive (UnclampedRun.program sampleRuntime)
      (Serves (Chain.streams transferLog)) (genesis 6) [] transferRun
      transferTrace transferStore :=
  transferRun_served

theorem transferStore_passed (contract : ContractName) :
    Passed transferLog contract
      (transferStore.rows contract).lastLedger := by
  have reached : (transferStore.rows contract).lastLedger = 10 := by
    cases contract <;> decide +kernel
  have early : ∀ entry ∈ transferLog, entry.2.ledger ≤ 10 := by decide
  intro entry member _
  rw [reached]
  exact early entry member

theorem transferStore_shown {chain : Chain}
    (minted : chain.identity.nextTokenId = 1)
    (unreviewed : chain.reputation = .initial)
    (run : Run Chain.LegibleStep Chain.initial chain transferLog) :
    Shows (agentsDb transferStore.tables 1 (by decide))
      transferStore.tables := by
  have later : ∀ entry ∈ transferLog, 6 < entry.2.ledger := by decide
  have steps := run.mono Chain.LegibleStep.step
  obtain ⟨rows, attempting⟩ := attempting_of_runs run.feeds
    (steps.wellFormed sampleRuntime) (packets_later later) transferStore_served
  obtain ⟨identity, reputation, _⟩ := run.shown later attempting
  have agents := identity (transferStore_passed .identity)
  have entries := reputation (transferStore_passed .reputation) (by
    intro agentId client
    rw [unreviewed]
    exact Nat.two_pow_pos 63)
  apply agentsDb_shows
  · intro id isRow
    rw [← minted]
    apply (steps.recorded.registered.owned id _).1
    exact (agents.rows id).symm.trans isRow
  · rw [unreviewed] at entries
    exact entries.no_feedback
  · decide +kernel

end Stellar8004.Contracts
