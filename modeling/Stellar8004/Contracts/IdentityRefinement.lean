import Stellar8004.Contracts.IdentityLog
import Stellar8004.Contracts.Packets
import Stellar8004.Indexer.LateWrites

/-!
# The identity tables refine the identity registry

However the events of a run are divided into batches of complete ledgers, the
rows of `agents` and `agent_metadata` are the registry's own view of its
agents, as long as the texts can be stored as texts.
-/

namespace Stellar8004.Contracts

open Stellar8004.Indexer

/-! ## Texts -/

/-- Bytes that are UTF-8 and do not start with a byte-order mark. -/
def Readable (bytes : Bytes) : Prop :=
  ∃ text : String, utf8 text = bytes ∧
    text.toList.head? ≠ some byteOrderMark

theorem Readable.decodeText {bytes : Bytes} (readable : Readable bytes) :
    utf8 (decodeText bytes) = bytes := by
  obtain ⟨text, rfl, _⟩ := readable
  rw [decodeText_utf8]

theorem Readable.utf8Decoder {bytes : Bytes} (readable : Readable bytes) :
    utf8Decoder bytes = Contracts.decodeText bytes := by
  obtain ⟨text, rfl, unmarked⟩ := readable
  simp only [Indexer.utf8Decoder, fromUTF8?_utf8, decodeText_utf8,
    dropByteOrderMark]
  split
  · rfl
  · rename_i first rest whole
    rw [whole] at unmarked
    rw [if_neg fun same => unmarked (congrArg some same)]

theorem readable_empty : Readable ByteArray.empty :=
  ⟨"", rfl, by simp⟩

theorem readable_agentWalletKey : Readable agentWalletKey :=
  ⟨"agentWallet", rfl, by decide⟩

theorem readable_strkey (address : Address) :
    Readable (addressToStrkeyBytes address) := by
  refine ⟨StrKey.encode address, rfl, ?_⟩
  have head := head_encode address
  intro marked
  rw [List.headD_eq_head?_getD, marked] at head
  revert head
  cases address.kind <;> decide

/-! ## Calls with readable texts -/

/-- One successful call whose texts are readable, under any approvals. -/
def IdentityState.Step (state : IdentityState) (_ledger : Nat)
    (after : IdentityState) (events : List IdentityEvent) : Prop :=
  ∃ approvals request, (∀ text ∈ request.texts, Readable text) ∧
    state.call approvals request = .ok (after, events)

/-- What the parsers rely on to read an event exactly. -/
structure IdentityEvent.Legible (event : IdentityEvent) : Prop where
  bounded : ∀ agent, event.agentId? = some agent → agent < 2 ^ 32
  readable : ∀ text ∈ event.texts, Readable text
  wallets : ∀ agentId value, event = metadataSet agentId agentWalletKey value →
    value = ByteArray.empty ∨ ∃ wallet, value = addressToStrkeyBytes wallet

theorem IdentityState.Performs.wallets {state after : IdentityState}
    {events : List IdentityEvent} (performs : state.Performs after events) :
    ∀ event ∈ events, ∀ agentId value,
      event = .metadataSet agentId agentWalletKey value →
      value = ByteArray.empty ∨
        ∃ wallet, value = addressToStrkeyBytes wallet := by
  intro event member agentId value same
  subst same
  cases performs with
  | register caller agentUri entries room ordinary =>
      simp only [List.mem_append, List.mem_cons, List.mem_map,
        List.not_mem_nil, or_false] at member
      rcases member with ((made | made) | ⟨entry, isEntry, made⟩) | made
      · cases made
      · cases made
        exact .inr ⟨caller, rfl⟩
      · simp only [IdentityEvent.metadataSet.injEq] at made
        exact absurd made.2.1 (ordinary entry isEntry)
      · cases made
  | setAgentUri agentId caller newUri living =>
      cases List.mem_singleton.mp member
  | setMetadata agentId key value living ordinary =>
      have made := List.mem_singleton.mp member
      simp only [IdentityEvent.metadataSet.injEq] at made
      exact absurd made.2.1.symm ordinary
  | setAgentWallet agentId newWallet living =>
      cases List.mem_singleton.mp member
      exact .inr ⟨newWallet, rfl⟩
  | unsetAgentWallet agentId living =>
      cases List.mem_singleton.mp member
      exact .inl rfl
  | transfer «from» «to» tokenId living =>
      rcases List.mem_cons.mp member with made | later
      · cases made
        exact .inl rfl
      · cases List.mem_singleton.mp later

theorem IdentityState.Step.legible {state after : IdentityState}
    {ledger : Nat} {events : List IdentityEvent}
    (step : state.Step ledger after events) :
    ∀ event ∈ events, event.Legible := by
  obtain ⟨approvals, request, readable, success⟩ := step
  have performs := IdentityState.call_performs success
  obtain ⟨agent, small, about, _⟩ := performs.about
  intro event member
  refine ⟨?_, ?_, performs.wallets event member⟩
  · intro other touches
    rw [about event member other touches]
    exact small
  · intro text inside
    rcases IdentityState.call_texts success event member text inside with
      given | rfl | rfl | ⟨wallet, rfl⟩
    · exact readable text given
    · exact readable_empty
    · exact readable_agentWalletKey
    · exact readable_strkey wallet

/-! ## What is read -/

namespace IdentityEvent

/-- The parsed form of a legible event. -/
def parsed (stamp : Stamp) : IdentityEvent → Option ParsedEvent
  | registered agentId owner agentUri => some (.registered
      { stamp.base with
        agentId, owner := StrKey.encode owner
        agentUri := decodeText agentUri })
  | uriUpdated agentId updatedBy newUri => some (.uriUpdated
      { stamp.base with
        agentId, updatedBy := StrKey.encode updatedBy
        newUri := decodeText newUri })
  | metadataSet agentId key value =>
      if key = agentWalletKey then
        if value = ByteArray.empty then
          some (.agentWalletUnset { stamp.base with agentId })
        else
          some (.agentWalletSet
            { stamp.base with agentId, newWallet := decodeText value })
      else
        some (.metadataSet
          { stamp.base with
            agentId, key := decodeText key, value := decodeText value })
  | mint _ _ => none
  | transfer «from» «to» tokenId => some (.agentTransferred
      { stamp.base with
        agentId := tokenId, «from» := StrKey.encode «from»
        «to» := StrKey.encode «to» })

theorem decodeText_ne_agentWallet {key : Bytes} (readable : Readable key)
    (ordinary : key ≠ agentWalletKey) :
    decodeText key ≠ AGENT_WALLET_KEY := by
  intro same
  apply ordinary
  rw [← readable.decodeText, same]
  rfl

theorem packetOf_legible {event : IdentityEvent} (legible : event.Legible)
    (stamp : Stamp) :
    packetOf .identity (event.publish.response stamp) =
      (event.parsed stamp).map fun data =>
        { id := stamp.id, contract := .identity, data } := by
  have accepted : ∀ data, interpret .identity
      (event.publish.response stamp) = .parsed data →
      packetOf .identity (event.publish.response stamp) =
        some { id := stamp.id, contract := .identity, data } := by
    intro data parsed
    exact packetOf_eq_some.mpr ⟨parsed, rfl, rfl⟩
  cases event with
  | registered agentId owner agentUri =>
      exact accepted _ (interpret_registered (legible.bounded _ rfl) _ _ _)
  | uriUpdated agentId updatedBy newUri =>
      exact accepted _ (interpret_uriUpdated (legible.bounded _ rfl) _ _ _)
  | metadataSet agentId key value =>
      have small : agentId < 2 ^ 32 := legible.bounded _ rfl
      simp only [IdentityEvent.parsed]
      by_cases isWallet : key = agentWalletKey
      · subst isWallet
        rw [if_pos rfl]
        rcases legible.wallets agentId value rfl with rfl | ⟨wallet, rfl⟩
        · rw [if_pos rfl]
          exact accepted _ (interpret_walletUnset small stamp)
        · rw [if_neg (IdentityState.addressToStrkeyBytes_ne_empty wallet)]
          have text : decodeText (addressToStrkeyBytes wallet) =
              StrKey.encode wallet := decodeText_utf8 _
          rw [text]
          exact accepted _ (interpret_walletSet small stamp wallet)
      · rw [if_neg isWallet]
        have keyReadable : Readable key := legible.readable key (by
          simp [texts])
        have valueReadable : Readable value := legible.readable value (by
          simp [texts])
        rw [← valueReadable.utf8Decoder]
        exact accepted _ (interpret_metadataSet small stamp value
          (decodeText_ne_agentWallet keyReadable isWallet))
  | mint «to» tokenId =>
      unfold packetOf
      rw [interpret_mint]
      rfl
  | transfer «from» «to» tokenId =>
      exact accepted _ (interpret_transfer (legible.bounded _ rfl) _ _ _)

end IdentityEvent

/-- The packets of an identity log. -/
def identityPackets (log : List (IdentityEvent × Stamp)) :
    List EventPacket :=
  packetsOf (fun _ => .identity) IdentityEvent.publish log

section

variable {log : List (IdentityEvent × Stamp)}
  (legible : ∀ entry ∈ log, entry.1.Legible) (agent : Nat)

include legible

theorem data_identityPackets :
    (identityPackets log).map EventPacket.data =
      log.filterMap fun entry => entry.1.parsed entry.2 := by
  unfold identityPackets packetsOf
  rw [List.map_filterMap]
  apply List.filterMap_congr
  intro entry member
  rw [IdentityEvent.packetOf_legible (legible entry member)]
  simp [Function.comp_def]

/-- What a selection picks from the parsed events of an agent, from the
published events. -/
theorem selected_identityPackets {α : Type} (select : ParsedEvent → Option α)
    (published : IdentityEvent → Option α)
    (same : ∀ event, event.Legible → ∀ stamp,
      ((event.parsed stamp).bind fun data =>
        if data.agent? = some agent then select data else none) =
          published event) :
    (((identityPackets log).map EventPacket.data).filter
      (·.agent? = some agent)).filterMap select =
        (log.map Prod.fst).filterMap published := by
  rw [data_identityPackets legible, List.filterMap_filter,
    List.filterMap_filterMap, List.filterMap_map]
  apply List.filterMap_congr
  intro entry member
  simpa using same entry.1 (legible entry member) entry.2

/-- The slot of the registry behind a cell of the database. -/
def slotOf : HoldingCell → AgentSlot
  | .wallet => .wallet
  | .metadata key => .metadata (utf8 key)

omit legible in
private theorem effect_parsed (cell : HoldingCell) (event : IdentityEvent)
    (legible : event.Legible) (stamp : Stamp) :
    ((event.parsed stamp).bind fun data =>
      if data.agent? = some agent then
        data.holdingWrite.bind (ResettableMap.Write.effect cell)
      else none) =
      (event.effect agent (slotOf cell)).map (Option.map decodeText) := by
  cases event with
  | registered agentId owner agentUri =>
      simp [IdentityEvent.parsed, IdentityEvent.effect,
        ParsedEvent.holdingWrite]
  | uriUpdated agentId updatedBy newUri =>
      simp [IdentityEvent.parsed, IdentityEvent.effect,
        ParsedEvent.holdingWrite]
  | mint «to» tokenId => rfl
  | transfer «from» «to» tokenId =>
      by_cases same : tokenId = agent <;>
        simp [IdentityEvent.parsed, IdentityEvent.effect,
          ParsedEvent.holdingWrite, ParsedEvent.agent?,
          ResettableMap.Write.effect, same]
  | metadataSet agentId key value =>
      have keyReadable : Readable key :=
        legible.readable key (by simp [IdentityEvent.texts])
      have sameKey : ∀ text, decodeText key = text ↔ key = utf8 text := by
        intro text
        constructor
        · rintro rfl
          exact keyReadable.decodeText.symm
        · rintro rfl
          exact decodeText_utf8 text
      by_cases isWallet : key = agentWalletKey
      · by_cases nothing : value = ByteArray.empty <;>
        by_cases same : agentId = agent <;>
        cases cell <;>
          simp [IdentityEvent.parsed, IdentityEvent.effect,
            ParsedEvent.holdingWrite, ParsedEvent.agent?,
            ResettableMap.Write.effect, AgentSlot.ofKey, slotOf, isWallet,
            nothing, same]
      · by_cases same : agentId = agent <;>
        cases cell <;>
          simp [IdentityEvent.parsed, IdentityEvent.effect,
            ParsedEvent.holdingWrite, ParsedEvent.agent?,
            ResettableMap.Write.effect, AgentSlot.ofKey, slotOf, isWallet,
            same, sameKey, apply_ite]

theorem lastWrite?_identityPackets (cell : HoldingCell) :
    lastWrite? ((identityPackets log).map EventPacket.data) agent cell =
      (lastOf (IdentityEvent.effect agent (slotOf cell))
        (log.map Prod.fst)).map (Option.map decodeText) := by
  unfold lastWrite? ResettableMap.lastWrite holdingWrites lastOf
  rw [List.filterMap_filterMap, selected_identityPackets legible agent _ _
    (effect_parsed agent cell), ← List.getLast?_map, List.map_filterMap]

theorem lastTransfer?_identityPackets :
    (lastTransfer? ((identityPackets log).map EventPacket.data) agent).map
        Prod.snd =
      (lastOf (IdentityEvent.transferTo agent) (log.map Prod.fst)).map
        StrKey.encode := by
  unfold lastTransfer? ResettableMap.lastReset holdingWrites lastOf
  rw [List.filterMap_filterMap, ← List.getLast?_map, ← List.getLast?_map,
    List.map_filterMap, List.map_filterMap,
    selected_identityPackets legible agent _
      (fun event => (event.transferTo agent).map StrKey.encode)]
  intro event _ stamp
  cases event with
  | transfer «from» «to» tokenId =>
      by_cases same : tokenId = agent <;>
        simp [IdentityEvent.parsed, IdentityEvent.transferTo,
          ParsedEvent.holdingWrite, ParsedEvent.agent?,
          ResettableMap.Write.reset?, same]
  | metadataSet agentId key value =>
      simp only [IdentityEvent.parsed, IdentityEvent.transferTo]
      split
      · split <;> simp [ParsedEvent.holdingWrite, ResettableMap.Write.reset?]
      · simp [ParsedEvent.holdingWrite, ResettableMap.Write.reset?]
  | _ => simp [IdentityEvent.parsed, IdentityEvent.transferTo,
      ParsedEvent.holdingWrite]

theorem lastUri?_identityPackets :
    (lastUri? ((identityPackets log).map EventPacket.data) agent).map
        UriUpdatedEvent.newUri =
      (lastOf (IdentityEvent.uriUpdate agent) (log.map Prod.fst)).map
        decodeText := by
  unfold lastUri? lastOf
  rw [← List.getLast?_map, ← List.getLast?_map, List.map_filterMap,
    List.map_filterMap, selected_identityPackets legible agent _
      (fun event => (event.uriUpdate agent).map decodeText)]
  intro event _ stamp
  cases event with
  | uriUpdated agentId updatedBy newUri =>
      by_cases same : agentId = agent <;>
        simp [IdentityEvent.parsed, IdentityEvent.uriUpdate,
          ParsedEvent.uriWrite, ParsedEvent.agent?, same]
  | metadataSet agentId key value =>
      simp only [IdentityEvent.parsed, IdentityEvent.uriUpdate]
      split
      · split <;> simp [ParsedEvent.uriWrite]
      · simp [ParsedEvent.uriWrite]
  | _ => simp [IdentityEvent.parsed, IdentityEvent.uriUpdate,
      ParsedEvent.uriWrite]

/-- The parsed registrations of an agent are its published ones. -/
theorem registration_identityPackets {e : RegisteredEvent}
    (member : .registered e ∈ (identityPackets log).map EventPacket.data)
    (about : e.agentId = agent) :
    ∃ first uri, (first, uri) ∈ (log.map Prod.fst).filterMap
        (IdentityEvent.registration agent) ∧
      e.owner = StrKey.encode first ∧ e.agentUri = decodeText uri := by
  rw [data_identityPackets legible] at member
  obtain ⟨⟨event, stamp⟩, inside, parsed⟩ := List.mem_filterMap.mp member
  cases event with
  | registered agentId owner agentUri =>
      cases parsed
      refine ⟨owner, agentUri, List.mem_filterMap.mpr
        ⟨_, List.mem_map_of_mem inside, ?_⟩, rfl, rfl⟩
      simp only [IdentityEvent.registration]
      exact if_pos about
  | metadataSet agentId key value =>
      simp only [IdentityEvent.parsed] at parsed
      split at parsed
      · split at parsed <;> cases parsed
      · cases parsed
  | _ => cases parsed

end

/-! ## Runs of the registry -/

section

variable {state : IdentityState} {log : List (IdentityEvent × Stamp)}
  (run : Run IdentityState.Step .initial state log)

include run

theorem Run.legible : ∀ entry ∈ log, entry.1.Legible := by
  induction run with
  | start => simp
  | call prior ledger events stamps step length stamped induction =>
      intro entry member
      rcases List.mem_append.mp member with old | new
      · exact induction entry old
      · exact step.legible entry.1 (List.of_mem_zip new).1

theorem Run.explains : Explains state (log.map Prod.fst) := by
  induction run with
  | start => exact Explains.initial
  | call prior ledger events stamps step length stamped induction =>
      obtain ⟨approvals, request, _, success⟩ := step
      have zipped : (events.zip stamps).map Prod.fst = events :=
        List.map_fst_zip (by omega)
      rw [List.map_append, zipped]
      exact induction.step (IdentityState.call_performs success)

/-- A run of the registry is a run of the chain. -/
theorem Run.ofIdentity : Run Chain.Step Chain.initial
    { Chain.initial with identity := state }
    (log.map (Prod.map ContractEvent.identity id)) := by
  induction run with
  | start => exact .start
  | @call before after log prior ledger events stamps step length stamped
      induction =>
      obtain ⟨approvals, request, _, success⟩ := step
      have zipped : (events.zip stamps).map
          (Prod.map ContractEvent.identity id) =
            (events.map ContractEvent.identity).zip stamps := by
        rw [List.zip_map_left]
      rw [List.map_append, zipped]
      refine .call induction ledger (events.map .identity) stamps
        ⟨approvals, .identity request, ?_⟩ (by simpa using length) ?_
      · simp only [Chain.call, success]
      · rw [List.map_map]
        exact stamped

theorem Run.identity_wellFormed (runtime : Runtime) :
    WellFormed runtime (identityPackets log) := by
  have same : Chain.packets (log.map (Prod.map ContractEvent.identity id)) =
      identityPackets log := by
    unfold Chain.packets identityPackets packetsOf
    rw [List.filterMap_map]
    rfl
  rw [← same]
  exact run.ofIdentity.wellFormed runtime

/-- Whatever a slot holds can be read, and so can its key. -/
theorem Run.slot_readable {agent : Nat} {slot : AgentSlot} {value : Bytes}
    (held : state.slot agent slot = some value) :
    Readable value ∧ ∀ key, slot = .metadata key →
      Readable key ∧ key ≠ agentWalletKey := by
  rw [run.explains.slots] at held
  have last : lastOf (IdentityEvent.effect agent slot)
      (log.map Prod.fst) = some (some value) := by
    cases found : lastOf (IdentityEvent.effect agent slot)
        (log.map Prod.fst) with
    | none => simp [found] at held
    | some left =>
        rw [found] at held
        exact congrArg some held
  obtain ⟨event, member, effect⟩ :=
    List.mem_filterMap.mp (List.mem_of_getLast? last)
  obtain ⟨entry, inside, rfl⟩ := List.mem_map.mp member
  have legible := run.legible entry inside
  obtain ⟨event, stamp⟩ := entry
  cases event with
  | metadataSet agentId name text =>
      simp only [IdentityEvent.effect] at effect
      split at effect
      · rename_i touches
        simp only [Option.some.injEq] at effect
        split at effect
        · cases effect
        · cases effect
          refine ⟨legible.readable value (by simp [IdentityEvent.texts]), ?_⟩
          rintro key rfl
          have about := touches.2
          unfold AgentSlot.ofKey at about
          split at about
          · cases about
          · rename_i ordinary
            cases about
            exact ⟨legible.readable _ (by simp [IdentityEvent.texts]),
              ordinary⟩
      · cases effect
  | transfer «from» «to» tokenId =>
      simp only [IdentityEvent.effect] at effect
      split at effect <;> cases effect
  | _ => cases effect

end

/-- A parsed event is about the agent of its published event. -/
theorem IdentityEvent.agentId?_of_parsed {event : IdentityEvent}
    {stamp : Stamp} {data : ParsedEvent} {agent : Nat}
    (parsed : event.parsed stamp = some data)
    (about : data.agent? = some agent) : event.agentId? = some agent := by
  cases event with
  | metadataSet agentId key value =>
      simp only [IdentityEvent.parsed] at parsed
      split at parsed
      · split at parsed <;> cases parsed <;> exact about
      · cases parsed
        exact about
  | mint «to» tokenId => cases parsed
  | _ =>
      cases parsed
      exact about

/-- What a run writes to the cell of an agent. -/
structure CellOf (state : IdentityState) (agent : Nat) (owner : Address)
    (cell : AgentCell) : Prop where
  owner : cell.holding.label = StrKey.encode owner
  agentUri : cell.uri.agentUri.map utf8 =
    some ((state.agentUri agent).getD ByteArray.empty)
  cells : ∀ held, cell.holding.cells held =
    (state.slot agent (slotOf held)).map decodeText

section

variable {state : IdentityState} {log : List (IdentityEvent × Stamp)}
  (run : Run IdentityState.Step .initial state log)

include run

/-- A published registration is parsed. -/
theorem Run.registered_parsed {agent : Nat} {first : Address} {uri : Bytes}
    (registered : (first, uri) ∈ (log.map Prod.fst).filterMap
      (IdentityEvent.registration agent)) :
    ∃ data, data ∈ (identityPackets log).map EventPacket.data ∧
      data.agent? = some agent := by
  obtain ⟨event, member, isRegistration⟩ := List.mem_filterMap.mp registered
  obtain ⟨⟨event, stamp⟩, inside, rfl⟩ := List.mem_map.mp member
  rw [data_identityPackets run.legible]
  cases event with
  | registered agentId owner agentUri =>
      simp only [IdentityEvent.registration] at isRegistration
      split at isRegistration
      · rename_i same
        exact ⟨_, List.mem_filterMap.mpr ⟨_, inside, rfl⟩,
          congrArg some same⟩
      · cases isRegistration
  | _ => cases isRegistration

/-- The URIs of a run can be read. -/
theorem Run.uri_readable {agent : Nat} {first : Address} {uri : Bytes}
    (registered : (first, uri) ∈ (log.map Prod.fst).filterMap
      (IdentityEvent.registration agent)) :
    Readable uri ∧ ∀ newUri,
      lastOf (IdentityEvent.uriUpdate agent) (log.map Prod.fst) =
        some newUri → Readable newUri := by
  refine ⟨?_, ?_⟩
  · obtain ⟨event, member, isRegistration⟩ := List.mem_filterMap.mp registered
    obtain ⟨⟨event, stamp⟩, inside, rfl⟩ := List.mem_map.mp member
    have legible := run.legible _ inside
    cases event with
    | registered agentId owner agentUri =>
        simp only [IdentityEvent.registration] at isRegistration
        split at isRegistration
        · cases isRegistration
          exact legible.readable _ List.mem_cons_self
        · cases isRegistration
    | _ => cases isRegistration
  · intro newUri last
    obtain ⟨event, member, isUpdate⟩ :=
      List.mem_filterMap.mp (List.mem_of_getLast? last)
    obtain ⟨⟨event, stamp⟩, inside, rfl⟩ := List.mem_map.mp member
    have legible := run.legible _ inside
    cases event with
    | uriUpdated agentId updatedBy uri =>
        simp only [IdentityEvent.uriUpdate] at isUpdate
        split at isUpdate
        · cases isUpdate
          exact legible.readable _ List.mem_cons_self
        · cases isUpdate
    | _ => cases isUpdate

/-- The history of an agent tells its owner, URI and slots. -/
theorem Run.foldl_history (runtime : Runtime) (agent : Nat) :
    (state.owner agent = none ∧
      ((agentView runtime).history (identityPackets log) agent).foldl
        (stepAgent runtime) none = none) ∨
    ∃ owner cell, state.owner agent = some owner ∧
      ((agentView runtime).history (identityPackets log) agent).foldl
        (stepAgent runtime) none = some cell ∧
      CellOf state agent owner cell := by
  have legible := run.legible
  have explains := run.explains
  have tracks := (run.identity_wellFormed runtime).agentView
  have inHistory : ∀ data,
      data ∈ (agentView runtime).history (identityPackets log) agent ↔
        data ∈ (identityPackets log).map EventPacket.data ∧
          data.agent? = some agent := by
    intro data
    rw [(agentView runtime).mem_history, List.mem_map]
    constructor
    · rintro ⟨packet, member, rfl, about⟩
      exact ⟨⟨packet, member, rfl⟩, about⟩
    · rintro ⟨⟨packet, member, rfl⟩, about⟩
      exact ⟨packet, member, rfl, about⟩
  cases owned : state.owner agent with
  | none =>
      refine .inl ⟨rfl, ?_⟩
      have empty :
          (agentView runtime).history (identityPackets log) agent = [] := by
        apply List.eq_nil_iff_forall_not_mem.mpr
        intro data member
        obtain ⟨inside, about⟩ := (inHistory data).mp member
        rw [data_identityPackets legible] at inside
        obtain ⟨entry, isEntry, parsed⟩ := List.mem_filterMap.mp inside
        exact (explains.absent agent owned).2 entry.1
          (List.mem_map_of_mem isEntry)
          (IdentityEvent.agentId?_of_parsed parsed about)
      rw [empty]
      rfl
  | some owner =>
      obtain ⟨first, uri, registrations, isOwner, isUri⟩ :=
        explains.present agent owner owned
      have registered : (first, uri) ∈ (log.map Prod.fst).filterMap
          (IdentityEvent.registration agent) := by
        rw [registrations]
        exact List.mem_cons_self
      obtain ⟨created, isCreated⟩ := run.registered_parsed registered
      have nonempty :
          (agentView runtime).history (identityPackets log) agent ≠ [] :=
        List.ne_nil_of_mem ((inHistory _).mpr isCreated)
      obtain ⟨e, member, final⟩ := foldl_stepAgent_history runtime
        (tracks.ordered agent) (tracks.begins agent) nonempty
      obtain ⟨inside, about⟩ := (inHistory _).mp member
      obtain ⟨caller, named, isRegistration, sameOwner, sameUri⟩ :=
        registration_identityPackets legible agent inside
          (Option.some.inj about)
      rw [registrations, List.mem_singleton] at isRegistration
      cases isRegistration
      have holdings :
          ((agentView runtime).history (identityPackets log) agent).filterMap
            ParsedEvent.holdingWrite =
          holdingWrites ((identityPackets log).map EventPacket.data) agent :=
        (agentView runtime).filterMap_history agent _ (by
          intro event isRegistered
          cases event <;> first | rfl | cases isRegistered)
      have uris :
          (((agentView runtime).history (identityPackets log) agent).filterMap
            ParsedEvent.uriWrite).getLast? =
          lastUri? ((identityPackets log).map EventPacket.data) agent :=
        congrArg List.getLast? ((agentView runtime).filterMap_history agent _
          (by
            intro event isRegistered
            cases event <;> first | rfl | cases isRegistered))
      rw [holdings, uris] at final
      refine .inr ⟨owner, _, rfl, final, ?_, ?_, ?_⟩
      · change ((lastTransfer? _ agent).map Prod.snd).getD e.owner = _
        rw [lastTransfer?_identityPackets legible, sameOwner, isOwner]
        cases lastOf (IdentityEvent.transferTo agent) (log.map Prod.fst) <;>
          rfl
      · have column : (((lastUri? ((identityPackets log).map
            EventPacket.data) agent).map writtenUri).getD
              (registeredCell runtime e).uri).agentUri =
            some (((lastUri? ((identityPackets log).map EventPacket.data)
              agent).map UriUpdatedEvent.newUri).getD e.agentUri) := by
          cases lastUri? ((identityPackets log).map EventPacket.data) agent <;>
            rfl
        simp only [column, lastUri?_identityPackets legible, sameUri, isUri,
          Option.map_some, Option.some.injEq]
        have readable := run.uri_readable registered
        cases last : lastOf (IdentityEvent.uriUpdate agent)
            (log.map Prod.fst) with
        | none => exact readable.1.decodeText
        | some newUri => exact (readable.2 newUri last).decodeText
      · intro held
        change (lastWrite? _ agent held).getD none = _
        rw [lastWrite?_identityPackets legible, explains.slots]
        cases lastOf (IdentityEvent.effect agent (slotOf held))
          (log.map Prod.fst) <;> rfl

end

/-! ## Refinement -/

private theorem exists_bound {α : Type} (measure : α → Nat) (items : List α) :
    ∃ bound, ∀ item ∈ items, measure item ≤ bound := by
  induction items with
  | nil => exact ⟨0, by simp⟩
  | cons item items induction =>
      obtain ⟨bound, below⟩ := induction
      refine ⟨max (measure item) bound, ?_⟩
      intro other member
      rcases List.mem_cons.mp member with rfl | inside
      · exact Nat.le_max_left ..
      · exact Nat.le_trans (below other inside) (Nat.le_max_right ..)

/-- The rows of `agents` and `agent_metadata` are the registry's view of its
agents. -/
structure RefinesIdentity (tables : Tables) (state : IdentityState) :
    Prop where
  rows : ∀ agent, (tables.agents agent).isSome =
    (state.findOwner agent).isSome
  owner : ∀ agent row, tables.agents agent = some row →
    (state.findOwner agent).map StrKey.encode = some row.owner
  wallet : ∀ agent row, tables.agents agent = some row →
    row.wallet = (state.getAgentWallet agent).map StrKey.encode
  agentUri : ∀ agent row, tables.agents agent = some row →
    row.agentUri.map utf8 =
      some ((state.agentUri agent).getD ByteArray.empty)
  metadata : ∀ agent key value,
    (∃ name text, utf8 name = key ∧ utf8 text = value ∧
      tables.agentMetadata agent name = some text) ↔
      key ≠ agentWalletKey ∧ state.getMetadata agent key = some value

section

variable {state : IdentityState} {log : List (IdentityEvent × Stamp)}

/-- Tables whose agents' cells are those of a run's histories. -/
theorem refinesIdentity_of_cells {tables : Tables} (runtime : Runtime)
    (run : Run IdentityState.Step .initial state log)
    (owned : tables.MetadataOwned)
    (cells : ∀ agent, tables.agentCell agent =
      ((agentView runtime).history (identityPackets log) agent).foldl
        (stepAgent runtime) none) :
    RefinesIdentity tables state := by
  have row : ∀ agent, (state.owner agent = none ∧
      tables.agents agent = none) ∨
      ∃ owner row, state.owner agent = some owner ∧
        tables.agents agent = some row ∧
        CellOf state agent owner (row.toCell (tables.agentMetadata agent)) := by
    intro agent
    rcases run.foldl_history runtime agent with ⟨unowned, nothing⟩ |
        ⟨owner, cell, isOwner, isCell, holds⟩
    · left
      rw [← cells, Tables.agentCell, Option.map_eq_none_iff] at nothing
      exact ⟨unowned, nothing⟩
    · right
      rw [← cells, Tables.agentCell] at isCell
      obtain ⟨row, found, rfl⟩ := Option.map_eq_some_iff.mp isCell
      exact ⟨owner, row, isOwner, found, holds⟩
  have present : ∀ {agent row}, tables.agents agent = some row →
      ∃ owner, state.owner agent = some owner ∧
        CellOf state agent owner (row.toCell (tables.agentMetadata agent)) := by
    intro agent found isFound
    rcases row agent with ⟨_, nothing⟩ | ⟨owner, held, isOwner, isHeld, holds⟩
    · rw [nothing] at isFound
      cases isFound
    · rw [isHeld] at isFound
      cases isFound
      exact ⟨owner, isOwner, holds⟩
  have metadata : ∀ agent name, tables.agentMetadata agent name =
      (state.metadata agent (utf8 name)).map decodeText := by
    intro agent name
    rcases row agent with ⟨unowned, nothing⟩ | ⟨owner, held, _, _, holds⟩
    · have held := run.explains.slot_of_unowned unowned
        (.metadata (utf8 name))
      change state.metadata agent (utf8 name) = none at held
      rw [owned agent nothing name, held]
      rfl
    · exact holds.cells (.metadata name)
  refine ⟨?_, ?_, ?_, ?_, ?_⟩
  · intro agent
    unfold IdentityState.findOwner
    rcases row agent with ⟨unowned, nothing⟩ | ⟨owner, held, isOwner, isHeld, _⟩
    · rw [unowned, nothing]
      rfl
    · rw [isOwner, isHeld]
      rfl
  · intro agent row found
    obtain ⟨owner, isOwner, holds⟩ := present found
    unfold IdentityState.findOwner
    rw [isOwner]
    exact congrArg some holds.owner.symm
  · intro agent row found
    obtain ⟨owner, isOwner, holds⟩ := present found
    have wallet : row.wallet = _ := holds.cells .wallet
    rw [wallet]
    simp only [slotOf, IdentityState.slot, IdentityState.getAgentWallet,
      Option.map_map]
    congr 1
    funext address
    exact decodeText_utf8 _
  · intro agent row found
    obtain ⟨owner, isOwner, holds⟩ := present found
    exact holds.agentUri
  · intro agent key value
    have stored : ∀ {key value}, state.metadata agent key = some value →
        Readable value ∧ Readable key ∧ key ≠ agentWalletKey := by
      intro key value held
      have readable := run.slot_readable
        (show state.slot agent (.metadata key) = some value from held)
      exact ⟨readable.1, readable.2 key rfl⟩
    constructor
    · rintro ⟨name, text, rfl, rfl, found⟩
      rw [metadata] at found
      obtain ⟨value, held, rfl⟩ := Option.map_eq_some_iff.mp found
      obtain ⟨readable, _, ordinary⟩ := stored held
      refine ⟨ordinary, ?_⟩
      rw [IdentityState.getMetadata, if_neg ordinary, held,
        readable.decodeText]
    · rintro ⟨ordinary, held⟩
      rw [IdentityState.getMetadata, if_neg ordinary] at held
      obtain ⟨readable, keyReadable, _⟩ := stored held
      refine ⟨decodeText key, decodeText value, keyReadable.decodeText,
        readable.decodeText, ?_⟩
      rw [metadata, keyReadable.decodeText, held]
      rfl

/-- However a run's events are divided into batches of complete ledgers, no
statement fails and the tables are the registry's view of its agents. -/
theorem identity_tables_refine (runtime : Runtime)
    (run : Run IdentityState.Step .initial state log) (batches : List Batch)
    (divided : (batches.map Batch.packets).flatten = identityPackets log)
    (complete : (batches.map Batch.packets).Pairwise
      fun early late => ∀ first ∈ early, ∀ second ∈ late,
        first.ledger < second.ledger) :
    ∃ tables, writeAll runtime (batches.flatMap Batch.ordered) Tables.empty =
        .ok tables ∧
      RefinesIdentity tables state := by
  have wellFormed := run.identity_wellFormed runtime
  have source : ∀ packet ∈ identityPackets log, packet.contract = .identity ∧
      0 < packet.ledger := by
    intro packet member
    obtain ⟨entry, inside, read⟩ := List.mem_filterMap.mp member
    obtain ⟨parsed, _, isContract⟩ := packetOf_eq_some.mp read
    refine ⟨isContract, ?_⟩
    unfold EventPacket.ledger
    rw [(interpret_readFrom parsed).base]
    exact run.positive entry inside
  have later : ∀ packet ∈ identityPackets log, 0 < packet.ledger :=
    fun packet member => (source packet member).2
  obtain ⟨head, below⟩ := exists_bound EventPacket.ledger (identityPackets log)
  have read : (batches.map Batch.packets).flatten =
      between (identityPackets log) .identity 0 head := by
    rw [divided]
    symm
    apply List.filter_eq_self.mpr
    intro packet member
    simp [source packet member, below packet member]
  have started : Indexes runtime (identityPackets log) 0 (fun _ => 0)
      Tables.empty := .start
  obtain ⟨tables, written⟩ := started.written wellFormed later .identity
    batches (fun other => absurd rfl other) read complete
  refine ⟨tables, written, ?_⟩
  have indexed : Indexes runtime (identityPackets log) 0
      (Function.update (fun _ => 0) .identity head) tables := by
    refine .attempt started .identity head head 0 batches [] ⟨"", []⟩
      (fun other => absurd rfl other) ?_ ?_ ?_ (Nat.zero_le _)
      (Nat.le_refl _) ?_
    · simpa using read
    · rw [List.map_append, List.pairwise_append]
      exact ⟨complete, by simp, by simp⟩
    · simpa using written
    · simp
  obtain ⟨answers, answering⟩ := wellFormed.exists_answers
  refine refinesIdentity_of_cells runtime run
    (indexed.consistent answering).metadataOwned fun agent => ?_
  refine indexed.read_eq (agentView runtime) agent wellFormed.agentView
    wellFormed.contract answering later ?_
  intro packet member
  rw [(source packet member).1, Function.update_self]
  exact below packet member

end

/-- `register_full` with one metadata entry, then a transfer. -/
def registrationLog : List (IdentityEvent × Stamp) :=
  [(.mint firstOwner 0, stampAt 7 "7-0"),
    (.metadataSet 0 agentWalletKey (addressToStrkeyBytes firstOwner),
      stampAt 7 "7-1"),
    (.metadataSet 0 (utf8 "name") (utf8 "worker"), stampAt 7 "7-2"),
    (.registered 0 firstOwner (utf8 "ipfs://card"), stampAt 7 "7-3"),
    (.metadataSet 0 agentWalletKey ByteArray.empty, stampAt 8 "8-0"),
    (.transfer firstOwner secondOwner 0, stampAt 8 "8-1")]

theorem identity_tables_refine_registrationLog :
    ∃ state tables, state.findOwner 0 = some secondOwner ∧
      writeAll { parseDate := fun _ => none, callDepth := 0 }
        (Batch.ordered
          { now := "2026-01-01T00:00:00.000+00:00"
            packets := identityPackets registrationLog }) Tables.empty =
        .ok tables ∧ RefinesIdentity tables state := by
  have readable : ∀ text ∈ (IdentityCall.registerFull firstOwner
      (utf8 "ipfs://card") [⟨utf8 "name", utf8 "worker"⟩]).texts,
      Readable text := by
    simp only [IdentityCall.texts, List.flatMap_cons, List.flatMap_nil,
      List.mem_cons, List.mem_append, List.not_mem_nil, or_false]
    rintro _ (rfl | rfl | rfl)
    · exact ⟨"ipfs://card", rfl, by decide⟩
    · exact ⟨"name", rfl, by decide⟩
    · exact ⟨"worker", rfl, by decide⟩
  have registered : Run IdentityState.Step .initial _
      (registrationLog.take 4) :=
    .call .start 7 ((registrationLog.take 4).map Prod.fst)
      ((registrationLog.take 4).map Prod.snd)
      ⟨noApprovals, .registerFull firstOwner (utf8 "ipfs://card")
        [⟨utf8 "name", utf8 "worker"⟩], readable, rfl⟩ rfl
      ⟨by decide, by decide, by decide, by decide, by decide⟩
  have transferred : Run IdentityState.Step .initial _ registrationLog :=
    .call registered 8 ((registrationLog.drop 4).map Prod.fst)
      ((registrationLog.drop 4).map Prod.snd)
      ⟨noApprovals, .transfer firstOwner secondOwner 0,
        by simp [IdentityCall.texts], rfl⟩ rfl
      ⟨by decide, by decide, by decide, by decide, by decide⟩
  obtain ⟨tables, written, refines⟩ := identity_tables_refine
    { parseDate := fun _ => none, callDepth := 0 } transferred
    [{ now := "2026-01-01T00:00:00.000+00:00"
       packets := identityPackets registrationLog }] (by simp) (by simp)
  refine ⟨_, tables, rfl, ?_, refines⟩
  simpa using written

end Stellar8004.Contracts
