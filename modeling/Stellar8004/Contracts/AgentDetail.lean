import Stellar8004.Contracts.PublicApi
import Stellar8004.Web.AgentDetail

/-!
# The answer about one agent and the identity registry

What a request about an agent is answered over the tables the indexer keeps is
what the identity registry holds of it.
-/

namespace Stellar8004.Contracts

open Stellar8004.Indexer Stellar8004.Web

/-! ## Rows and tables -/

/-- The tables as a request about an agent reads them. -/
structure ShowsDetail (db : DetailDb) (tables : Tables) : Prop where
  lists : Shows db.toReplyDb tables
  metadata : ∀ agentId key value,
    (∃ item ∈ db.metadata,
      item.agentId = agentId ∧ item.key = key ∧ item.value = value) ↔
      ∃ text, value = some text ∧
        tables.agentMetadata agentId key = some text

/-- The answer holds what the registry does: the agent's owner, wallet and
URI, and each of its metadata entries as a property, once. -/
structure AnswersAgent (state : IdentityState) (agentId : Nat)
    (answer : AgentAnswer) : Prop where
  id : answer.row.id = agentId
  row : Describes state answer.row
  metadata : ∀ key value,
    (∃ name text, utf8 name = key ∧ utf8 text = value ∧
      (name, text) ∈ answer.metadata) ↔
      key ≠ agentWalletKey ∧ state.getMetadata agentId key = some value
  once : (answer.metadata.map Prod.fst).Nodup

section

variable {db : DetailDb} {tables : Tables} {state : IdentityState}

theorem ShowsDetail.mem_metadataRows (shows : ShowsDetail db tables)
    {agentId : Nat} {key value : String} :
    (key, value) ∈ metadataRows db agentId ↔
      tables.agentMetadata agentId key = some value := by
  rw [Web.mem_metadataRows]
  constructor
  · rintro ⟨item, inside, isAgent, isKey, isValue⟩
    obtain ⟨text, isText, found⟩ := (shows.metadata agentId key item.value).mp
      ⟨item, inside, isAgent, isKey, rfl⟩
    rw [isText, Option.getD_some] at isValue
    rw [← isValue]
    exact found
  · intro found
    obtain ⟨item, inside, isAgent, isKey, isValue⟩ :=
      (shows.metadata agentId key (some value)).mpr ⟨value, rfl, found⟩
    refine ⟨item, inside, isAgent, isKey, ?_⟩
    rw [isValue, Option.getD_some]

/-- A token of the registry is found, with what the registry holds of it. -/
theorem ShowsDetail.answers (shows : ShowsDetail db tables)
    (refines : RefinesIdentity tables state) {id : String} {agentId : Nat}
    (isId : parseInt id = some (agentId : Int))
    (minted : (state.findOwner agentId).isSome = true) :
    ∃ answer, handleAgentDetail db id = .ok answer ∧
      AnswersAgent state agentId answer := by
  have hasRow : (tables.agents agentId).isSome = true := by
    rw [refines.rows agentId]
    exact minted
  obtain ⟨agent, found⟩ := Option.isSome_iff_exists.mp hasRow
  obtain ⟨shown, member, isShown, -⟩ :=
    (shows.lists.agents agentId agent).mpr found
  cases isRow : db.rows.find? fun row => (row.id : Int) = (agentId : Int) with
  | none =>
      have missing := List.find?_eq_none.mp isRow shown member
      rw [isShown] at missing
      exact absurd (decide_eq_true rfl) missing
  | some row =>
      have inside := List.mem_of_find?_eq_some isRow
      have tested := List.find?_some isRow
      have isAgent : row.id = agentId :=
        Int.ofNat_inj.mp (of_decide_eq_true tested)
      have same := fromEntries_perm (metadataRows_own db agentId)
      refine ⟨{ row, metadata := fromEntries (metadataRows db agentId) }, ?_,
        isAgent, shows.lists.describes refines inside, ?_,
        (same.map Prod.fst).nodup_iff.mpr (metadataRows_own db agentId)⟩
      · unfold handleAgentDetail
        rw [isId]
        dsimp only
        rw [isRow]
      · intro key value
        rw [← refines.metadata agentId key value]
        simp only [same.mem_iff, shows.mem_metadataRows]

/-- What is no token is not found. -/
theorem ShowsDetail.notFound (shows : ShowsDetail db tables)
    (refines : RefinesIdentity tables state) {id : String} {number : Int}
    (isId : parseInt id = some number)
    (unminted : ∀ agentId : Nat, number = agentId →
      state.findOwner agentId = none) :
    handleAgentDetail db id = .error agentNotFound := by
  have missing : (db.rows.find? fun row => (row.id : Int) = number) =
      none := by
    rw [List.find?_eq_none]
    intro row member isNumber
    have found : tables.agents row.id = some row.agent :=
      (shows.lists.agents row.id row.agent).mp ⟨row, member, rfl, rfl⟩
    have minted := refines.rows row.id
    rw [found, unminted row.id (of_decide_eq_true isNumber).symm] at minted
    cases minted
  unfold handleAgentDetail
  rw [isId]
  dsimp only
  rw [missing]

end

/-! ## After any runs of the indexer -/

/-- No metadata is left of an agent that was transferred. -/
theorem transferLog_metadata {chain : Chain}
    (run : Run Chain.LegibleStep Chain.initial chain transferLog)
    (agent : Nat) (key : Bytes) :
    chain.identity.metadata agent key = none := by
  have slots := run.identity.explains.slots agent (.metadata key)
  change chain.identity.metadata agent key = _ at slots
  rw [slots]
  by_cases transferred : 0 = agent
  · simp [transferLog, picked, ContractEvent.identity?, lastOf,
      IdentityEvent.effect, AgentSlot.ofKey, transferred]
  · simp [transferLog, picked, ContractEvent.identity?, lastOf,
      List.findSome?_cons, IdentityEvent.effect, AgentSlot.ofKey, transferred]

theorem transferStore_showsDetail {chain : Chain}
    (minted : chain.identity.nextTokenId = 1)
    (unreviewed : chain.reputation = .initial)
    (run : Run Chain.LegibleStep Chain.initial chain transferLog) :
    ShowsDetail
      { agentsDb transferStore.tables 1 (by decide) with
        metadata := [], metadataUnique := List.nodup_nil }
      transferStore.tables := by
  have later : ∀ entry ∈ transferLog, 6 < entry.2.ledger := by decide
  obtain ⟨rows, attempting⟩ := attempting_of_runs run.feeds
    ((run.mono Chain.LegibleStep.step).wellFormed sampleRuntime)
    (packets_later later) transferStore_served
  have refines := (run.shown later attempting).1
    (transferStore_passed .identity)
  refine ⟨transferStore_shown minted unreviewed run, ?_⟩
  intro agentId key value
  constructor
  · rintro ⟨_, member, _⟩
    cases member
  · rintro ⟨text, -, found⟩
    obtain ⟨ordinary, held⟩ := (refines.metadata agentId (utf8 key)
      (utf8 text)).mp ⟨key, text, rfl, rfl, found⟩
    rw [IdentityState.getMetadata, if_neg ordinary,
      transferLog_metadata run agentId] at held
    cases held

end Stellar8004.Contracts
