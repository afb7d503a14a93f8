import Stellar8004.Indexer.Cells

/-!
# Statements act on cells

A statement that runs without error changes exactly the cell its event
touches, and changes it by that cell's step function.  Everything the
convergence and refinement theorems say about the tables they say about
cells, through this one fact.
-/

namespace Stellar8004.Indexer

section

variable {runtime : Runtime} {now : String} {tables after : Tables}
  {packet : EventPacket} {id : String} {contract : ContractName}

theorem closeTime_of_ok {iso time : String}
    (result : pgTime runtime (.text iso) = .ok time) :
    closeTime runtime iso = time := by
  simp [closeTime, result]

/-! ## What a written packet leaves -/

namespace Tables

def setFeedback (tables : Tables) (key : FeedbackKey) (row : FeedbackRow) :
    Tables :=
  { tables with feedback := Function.update tables.feedback key (some row) }

def setValidation (tables : Tables) (requestHash : String)
    (row : ValidationRow) : Tables :=
  { tables with
    validations := Function.update tables.validations requestHash (some row) }

end Tables

theorem writePacket_registered {e : RegisteredEvent}
    (written : writePacket runtime now tables ⟨id, contract, .registered e⟩ =
      .ok after) :
    after = match tables.agents e.agentId with
      | some _ => tables
      | none => tables.setAgent e.agentId
          (Tables.newAgent e.owner e.agentUri (e.agentUri ≠ "")
            (closeTime runtime e.ledgerClosedAt) e.ledger e.txHash now) := by
  obtain ⟨statement, count, bound, ran⟩ := writePacket_ok_iff.mp written
  obtain ⟨time, isTime, rest⟩ := bind_ok_iff.mp bound
  cases rest
  rw [closeTime_of_ok isTime]
  simp only [Tables.exec] at ran
  split at ran
  · cases ran
  · split at ran <;> cases ran <;> simp only [*]

theorem writePacket_uriUpdated {e : UriUpdatedEvent}
    (written : writePacket runtime now tables ⟨id, contract, .uriUpdated e⟩ =
      .ok after) :
    after = match tables.agents e.agentId with
      | none => tables
      | some row =>
          if notAfter row.uriUpdatedLedger e.ledger ∧
              ¬(row.uriUpdatedLedger = some e.ledger ∧
                row.agentUri = some e.newUri) then
            tables.setAgent e.agentId
              (Tables.writeUri row e.newUri e.ledger now)
          else tables := by
  obtain ⟨statement, count, bound, ran⟩ := writePacket_ok_iff.mp written
  cases bound
  simp only [Tables.exec] at ran
  cases found : tables.agents e.agentId with
  | none =>
      simp only [found] at ran
      cases ran
      rfl
  | some row =>
      simp only [found] at ran ⊢
      split at ran <;> cases ran
      · rw [if_pos (by assumption)]
      · rw [if_neg (by assumption)]

theorem writePacket_metadataSet {e : MetadataSetEvent}
    (written : writePacket runtime now tables ⟨id, contract, .metadataSet e⟩ =
      .ok after) :
    (tables.agents e.agentId).isSome = true ∧
      after = { tables with
        agentMetadata := Function.update tables.agentMetadata e.agentId
          (Function.update (tables.agentMetadata e.agentId) e.key
            (some e.value)) } := by
  obtain ⟨statement, count, bound, ran⟩ := writePacket_ok_iff.mp written
  cases bound
  simp only [Tables.exec] at ran
  split at ran <;> cases ran
  simp only [Option.isSome, *, and_self]

private theorem exec_walletSet {wallet : Option String} {bound : String}
    {agent count : Nat}
    (ran : tables.exec now (.walletSet wallet bound agent) =
      .ok (after, count)) :
    after = match tables.agents agent with
      | none => tables
      | some row => tables.setAgent agent
          { row with wallet := wallet, updatedAt := bound } := by
  simp only [Tables.exec] at ran
  cases found : tables.agents agent with
  | none =>
      simp only [found] at ran
      cases ran
      rfl
  | some row =>
      simp only [found] at ran
      split at ran <;> cases ran
      rfl

theorem writePacket_agentWalletSet {e : AgentWalletSetEvent}
    (written : writePacket runtime now tables
      ⟨id, contract, .agentWalletSet e⟩ = .ok after) :
    after = match tables.agents e.agentId with
      | none => tables
      | some row => tables.setAgent e.agentId
          { row with wallet := some e.newWallet, updatedAt := now } := by
  obtain ⟨statement, count, bound, ran⟩ := writePacket_ok_iff.mp written
  cases bound
  exact exec_walletSet ran

theorem writePacket_agentWalletUnset {e : AgentWalletUnsetEvent}
    (written : writePacket runtime now tables
      ⟨id, contract, .agentWalletUnset e⟩ = .ok after) :
    after = match tables.agents e.agentId with
      | none => tables
      | some row => tables.setAgent e.agentId
          { row with wallet := none, updatedAt := now } := by
  obtain ⟨statement, count, bound, ran⟩ := writePacket_ok_iff.mp written
  cases bound
  exact exec_walletSet ran

theorem writePacket_agentTransferred {e : AgentTransferredEvent}
    (written : writePacket runtime now tables
      ⟨id, contract, .agentTransferred e⟩ = .ok after) :
    after = match tables.agents e.agentId with
      | none => tables
      | some row =>
          if notAfter row.transferredLedger e.ledger then
            (tables.setAgent e.agentId
              { row with
                owner := e.to, wallet := none
                transferredLedger := some e.ledger
                updatedAt := now }).clearMetadata e.agentId
          else tables := by
  obtain ⟨statement, count, bound, ran⟩ := writePacket_ok_iff.mp written
  cases bound
  simp only [Tables.exec] at ran
  cases found : tables.agents e.agentId with
  | none =>
      simp only [found] at ran
      cases ran
      rfl
  | some row =>
      simp only [found] at ran ⊢
      split at ran
      · rename_i admitted
        split at ran <;> cases ran
        rw [if_pos admitted]
      · cases ran
        rw [if_neg (by assumption)]

theorem writePacket_newFeedback {e : NewFeedbackEvent}
    (written : writePacket runtime now tables ⟨id, contract, .newFeedback e⟩ =
      .ok after) :
    after = match tables.feedback
        (feedbackKey e.agentId e.clientAddress e.feedbackIndex) with
      | some _ => tables
      | none => tables.setFeedback
          (feedbackKey e.agentId e.clientAddress e.feedbackIndex)
          (insertedFeedback runtime e) := by
  obtain ⟨statement, count, bound, ran⟩ := writePacket_ok_iff.mp written
  obtain ⟨time, isTime, rest⟩ := bind_ok_iff.mp bound
  cases rest
  rw [insertedFeedback, closeTime_of_ok isTime]
  simp only [Tables.exec] at ran
  repeat (split at ran; · cases ran)
  split at ran
  · cases ran
    simp only [feedbackKey, *]
  · split at ran <;> cases ran
    simp only [feedbackKey, Tables.setFeedback, *]

theorem writePacket_feedbackRevoked {e : FeedbackRevokedEvent}
    (written : writePacket runtime now tables
      ⟨id, contract, .feedbackRevoked e⟩ = .ok after) :
    after = match tables.feedback
        (feedbackKey e.agentId e.clientAddress e.feedbackIndex) with
      | none => tables
      | some row =>
          if notAfter row.revokedLedger e.ledger then
            tables.setFeedback
              (feedbackKey e.agentId e.clientAddress e.feedbackIndex)
              { row with isRevoked := true, revokedLedger := some e.ledger }
          else tables := by
  obtain ⟨statement, count, bound, ran⟩ := writePacket_ok_iff.mp written
  cases bound
  simp only [Tables.exec] at ran
  split at ran
  · cases ran
    simp only [feedbackKey, *]
  · rename_i found
    simp only [feedbackKey, found]
    split at ran <;> cases ran
    · rw [if_pos (by assumption)]
      rfl
    · rw [if_neg (by assumption)]

theorem writePacket_responseAppended {e : ResponseAppendedEvent}
    (written : writePacket runtime now tables
      ⟨id, contract, .responseAppended e⟩ = .ok after) :
    (tables.feedbackResponses.any (·.eventId = e.eventId) = true ∧
        after = tables) ∨
      tables.feedbackResponses.any (·.eventId = e.eventId) = false ∧
        (tables.feedback (feedbackKey e.agentId e.clientAddress
          e.feedbackIndex)).isSome = true ∧
        after = { tables with
          feedbackResponses := tables.feedbackResponses ++
            [appendedResponse runtime tables.feedbackResponses e] } := by
  obtain ⟨statement, count, bound, ran⟩ := writePacket_ok_iff.mp written
  obtain ⟨time, isTime, rest⟩ := bind_ok_iff.mp bound
  cases rest
  rw [appendedResponse, closeTime_of_ok isTime]
  simp only [Tables.exec] at ran
  split at ran
  · cases ran
  split at ran
  · cases ran
  split at ran
  · cases ran
    exact .inl ⟨by assumption, rfl⟩
  · split at ran <;> cases ran
    rename_i fresh _ _ found
    refine .inr ⟨by simpa using fresh, ?_, rfl⟩
    simp only [feedbackKey, found, Option.isSome]

theorem writePacket_validationRequest {e : ValidationRequestEvent}
    (written : writePacket runtime now tables
      ⟨id, contract, .validationRequest e⟩ = .ok after) :
    after = match tables.validations e.requestHash with
      | some _ => tables
      | none => tables.setValidation e.requestHash
          (insertedRequest runtime e) := by
  obtain ⟨statement, count, bound, ran⟩ := writePacket_ok_iff.mp written
  obtain ⟨time, isTime, rest⟩ := bind_ok_iff.mp bound
  cases rest
  rw [insertedRequest, closeTime_of_ok isTime]
  simp only [Tables.exec] at ran
  split at ran
  · cases ran
  split at ran
  · cases ran
    simp only [*]
  · split at ran <;> cases ran
    simp only [Tables.setValidation, *]

theorem writePacket_validationResponse {e : ValidationResponseEvent}
    (written : writePacket runtime now tables
      ⟨id, contract, .validationResponse e⟩ = .ok after) :
    after = match tables.validations e.requestHash with
      | none => tables
      | some row =>
          if notAfter row.responseLedger e.ledger then
            tables.setValidation e.requestHash
              (row.withAnswer ((answerStore runtime).written e))
          else tables := by
  obtain ⟨statement, count, bound, ran⟩ := writePacket_ok_iff.mp written
  obtain ⟨time, isTime, rest⟩ := bind_ok_iff.mp bound
  cases rest
  simp only [answerStore, closeTime_of_ok isTime]
  simp only [Tables.exec] at ran
  cases found : tables.validations e.requestHash with
  | none =>
      simp only [found] at ran
      cases ran
      rfl
  | some row =>
      simp only [found] at ran ⊢
      split at ran
      · rename_i admitted
        split at ran <;> cases ran
        rw [if_pos admitted]
        rfl
      · cases ran
        rw [if_neg (by assumption)]

/-! ## What the statements keep -/

/-- What the schema and the identifiers of events promise of the tables:
metadata rows have their agent, and responses answer the feedback their
event names. -/
structure Tables.Consistent (answers : String → FeedbackKey)
    (tables : Tables) : Prop where
  metadataOwned : tables.MetadataOwned
  responseKeys : ∀ row ∈ tables.feedbackResponses,
    row.key = answers row.eventId

/-- A response event answers the feedback its identifier stands for. -/
def ParsedEvent.Answers (answers : String → FeedbackKey) :
    ParsedEvent → Prop
  | .responseAppended e =>
      feedbackKey e.agentId e.clientAddress e.feedbackIndex =
        answers e.eventId
  | _ => True

theorem Tables.Consistent.empty {answers : String → FeedbackKey} :
    Tables.empty.Consistent answers where
  metadataOwned _ _ _ := rfl
  responseKeys _ member := by cases member

variable {answers : String → FeedbackKey}

@[simp] theorem Tables.agents_setAgent (agent other : Nat) (row : AgentRow) :
    (tables.setAgent agent row).agents other =
      if other = agent then some row else tables.agents other := by
  simp [setAgent, Function.update_apply]

theorem Tables.MetadataOwned.setAgent (owned : tables.MetadataOwned)
    (agent : Nat) (row : AgentRow) :
    (tables.setAgent agent row).MetadataOwned := by
  intro other absent key
  apply owned other
  rw [agents_setAgent] at absent
  split at absent
  · cases absent
  · exact absent

/-- The tables a written packet leaves are consistent again. -/
theorem writePacket_consistent
    (written : writePacket runtime now tables packet = .ok after)
    (consistent : tables.Consistent answers)
    (answering : packet.data.Answers answers) :
    after.Consistent answers := by
  obtain ⟨id, contract, data⟩ := packet
  obtain ⟨owned, keys⟩ := consistent
  cases data with
  | registered e =>
      rw [writePacket_registered written]
      split
      · exact ⟨owned, keys⟩
      · exact ⟨owned.setAgent _ _, keys⟩
  | uriUpdated e =>
      rw [writePacket_uriUpdated written]
      split
      · exact ⟨owned, keys⟩
      · split
        · exact ⟨owned.setAgent _ _, keys⟩
        · exact ⟨owned, keys⟩
  | metadataSet e =>
      obtain ⟨present, rfl⟩ := writePacket_metadataSet written
      refine ⟨?_, keys⟩
      intro other absent key
      have different : other ≠ e.agentId := by
        rintro rfl
        rw [absent] at present
        cases present
      simpa [Function.update_of_ne different] using owned other absent key
  | agentWalletSet e =>
      rw [writePacket_agentWalletSet written]
      split
      · exact ⟨owned, keys⟩
      · exact ⟨owned.setAgent _ _, keys⟩
  | agentWalletUnset e =>
      rw [writePacket_agentWalletUnset written]
      split
      · exact ⟨owned, keys⟩
      · exact ⟨owned.setAgent _ _, keys⟩
  | agentTransferred e =>
      rw [writePacket_agentTransferred written]
      split
      · exact ⟨owned, keys⟩
      · split
        · refine ⟨?_, keys⟩
          intro other absent key
          have before := owned.setAgent _ _ other absent key
          by_cases same : other = e.agentId
          · simp [Tables.clearMetadata, same]
          · simpa [Tables.clearMetadata, Function.update_of_ne same]
              using before
        · exact ⟨owned, keys⟩
  | newFeedback e =>
      rw [writePacket_newFeedback written]
      split <;> exact ⟨owned, keys⟩
  | feedbackRevoked e =>
      rw [writePacket_feedbackRevoked written]
      split
      · exact ⟨owned, keys⟩
      · split <;> exact ⟨owned, keys⟩
  | responseAppended e =>
      rcases writePacket_responseAppended written with
        ⟨_, rfl⟩ | ⟨_, _, rfl⟩
      · exact ⟨owned, keys⟩
      · refine ⟨owned, ?_⟩
        intro row member
        rcases List.mem_append.mp member with old | new
        · exact keys row old
        · rw [List.mem_singleton.mp new]
          exact answering
  | validationRequest e =>
      rw [writePacket_validationRequest written]
      split <;> exact ⟨owned, keys⟩
  | validationResponse e =>
      rw [writePacket_validationResponse written]
      split
      · exact ⟨owned, keys⟩
      · split <;> exact ⟨owned, keys⟩

/-! ## The cell a packet touches -/

@[simp] theorem Tables.agentCell_setAgent (agent other : Nat)
    (row : AgentRow) :
    (tables.setAgent agent row).agentCell other =
      if other = agent then some (row.toCell (tables.agentMetadata agent))
      else tables.agentCell other := by
  unfold agentCell
  rw [agents_setAgent]
  split
  · rename_i same
    subst same
    rfl
  · rfl

@[simp] theorem Tables.agentCell_clearMetadata_of_ne {agent other : Nat}
    (different : other ≠ agent) :
    (tables.clearMetadata agent).agentCell other =
      tables.agentCell other := by
  simp [agentCell, clearMetadata, Function.update_of_ne different]

theorem Tables.agentCell_of_some {agent : Nat} {row : AgentRow}
    (found : tables.agents agent = some row) :
    tables.agentCell agent =
      some (row.toCell (tables.agentMetadata agent)) := by
  simp [agentCell, found]

theorem Tables.agentCell_of_none {agent : Nat}
    (absent : tables.agents agent = none) :
    tables.agentCell agent = none := by
  simp [agentCell, absent]

/-- A packet leaves the cells of other agents. -/
theorem agentCell_writePacket_of_ne
    (written : writePacket runtime now tables packet = .ok after)
    {agent : Nat} (elsewhere : packet.data.agent? ≠ some agent) :
    after.agentCell agent = tables.agentCell agent := by
  obtain ⟨id, contract, data⟩ := packet
  cases data with
  | registered e =>
      have other : agent ≠ e.agentId := fun same => elsewhere (same ▸ rfl)
      rw [writePacket_registered written]
      split <;> simp [other]
  | uriUpdated e =>
      have other : agent ≠ e.agentId := fun same => elsewhere (same ▸ rfl)
      rw [writePacket_uriUpdated written]
      split
      · rfl
      · split <;> simp [other]
  | metadataSet e =>
      have other : agent ≠ e.agentId := fun same => elsewhere (same ▸ rfl)
      obtain ⟨_, rfl⟩ := writePacket_metadataSet written
      simp [Tables.agentCell, Function.update_of_ne other]
  | agentWalletSet e =>
      have other : agent ≠ e.agentId := fun same => elsewhere (same ▸ rfl)
      rw [writePacket_agentWalletSet written]
      split <;> simp [other]
  | agentWalletUnset e =>
      have other : agent ≠ e.agentId := fun same => elsewhere (same ▸ rfl)
      rw [writePacket_agentWalletUnset written]
      split <;> simp [other]
  | agentTransferred e =>
      have other : agent ≠ e.agentId := fun same => elsewhere (same ▸ rfl)
      rw [writePacket_agentTransferred written]
      split
      · rfl
      · split <;> simp [other]
  | newFeedback e =>
      rw [writePacket_newFeedback written]
      split <;> rfl
  | feedbackRevoked e =>
      rw [writePacket_feedbackRevoked written]
      split
      · rfl
      · split <;> rfl
  | responseAppended e =>
      rcases writePacket_responseAppended written with
        ⟨_, rfl⟩ | ⟨_, _, rfl⟩ <;> rfl
  | validationRequest e =>
      rw [writePacket_validationRequest written]
      split <;> rfl
  | validationResponse e =>
      rw [writePacket_validationResponse written]
      split
      · rfl
      · split <;> rfl

theorem AgentRow.toCell_wallet (row : AgentRow) (wallet : Option String)
    (metadata : String → Option String) :
    AgentRow.toCell { row with wallet := wallet, updatedAt := now } metadata =
      { row.toCell metadata with
        holding := (row.toCell metadata).holding.apply
          (.put .wallet wallet) } := by
  simp only [toCell, ResettableMap.apply, AgentCell.mk.injEq, true_and]
  refine ⟨rfl, ?_⟩
  congr 1
  funext cell
  cases cell <;> simp

theorem AgentRow.toCell_metadata (row : AgentRow) (key value : String)
    (metadata : String → Option String) :
    row.toCell (Function.update metadata key (some value)) =
      { row.toCell metadata with
        holding := (row.toCell metadata).holding.apply
          (.put (.metadata key) (some value)) } := by
  simp only [toCell, ResettableMap.apply, AgentCell.mk.injEq, true_and]
  congr 1
  funext cell
  cases cell <;> simp [Function.update_apply]

variable (now) in
theorem AgentRow.toCell_reset (row : AgentRow) (owner : String) (ledger : Nat)
    (metadata : String → Option String)
    (admitted : notAfter row.transferredLedger ledger = true) :
    AgentRow.toCell
        { row with
          owner := owner, wallet := none, transferredLedger := some ledger
          updatedAt := now } (fun _ => none) =
      { row.toCell metadata with
        holding := (row.toCell metadata).holding.apply
          (.reset ledger owner) } := by
  have guard : (row.toCell metadata).holding.admits ledger = true := admitted
  simp only [toCell] at guard
  simp only [toCell, ResettableMap.apply, guard, if_true, AgentCell.mk.injEq,
    true_and, ResettableMap.cleared]
  refine ⟨rfl, ?_⟩
  congr 1
  funext cell
  cases cell <;> rfl

theorem Tables.agentCell_setWallet (agent : Nat) (wallet : Option String) :
    (match tables.agents agent with
      | none => tables
      | some row => tables.setAgent agent
          { row with wallet := wallet, updatedAt := now }).agentCell agent =
      (tables.agentCell agent).map fun cell =>
        { cell with holding := cell.holding.apply (.put .wallet wallet) } := by
  cases found : tables.agents agent with
  | none => simp only [Tables.agentCell_of_none found, Option.map_none]
  | some row =>
      rw [Tables.agentCell_of_some found]
      simp only [Tables.agentCell_setAgent, if_true, AgentRow.toCell_wallet,
        Option.map_some]

variable (now) in
theorem AgentRow.toCell_uri (row : AgentRow) (e : UriUpdatedEvent)
    (metadata : String → Option String) :
    (if notAfter row.uriUpdatedLedger e.ledger ∧
        ¬(row.uriUpdatedLedger = some e.ledger ∧
          row.agentUri = some e.newUri) then
        Tables.writeUri row e.newUri e.ledger now
      else row).toCell metadata =
      { row.toCell metadata with
        uri := uriStore.apply (row.toCell metadata).uri e } := by
  have guard : uriStore.admits row.uriColumns e =
      notAfter row.uriUpdatedLedger e.ledger := rfl
  by_cases admitted : notAfter row.uriUpdatedLedger e.ledger = true
  · by_cases same : row.uriUpdatedLedger = some e.ledger ∧
        row.agentUri = some e.newUri
    · rw [if_neg (fun both => both.2 same)]
      have skipped : uriStore.skips e row.uriColumns = true :=
        decide_eq_true same
      simp only [toCell, GuardedWrite.apply, guard, admitted, skipped, if_true]
    · rw [if_pos ⟨admitted, same⟩]
      have kept : uriStore.skips e row.uriColumns = false :=
        decide_eq_false same
      simp only [toCell, GuardedWrite.apply, guard, admitted, kept, if_true,
        Bool.false_eq_true, if_false]
      rfl
  · rw [if_neg (fun both => admitted both.1)]
    simp only [toCell, GuardedWrite.apply, guard, admitted]
    rfl

/-- A packet steps the cell of the agent it is about. -/
theorem agentCell_writePacket_self
    (written : writePacket runtime now tables packet = .ok after)
    (owned : tables.MetadataOwned) {agent : Nat}
    (about : packet.data.agent? = some agent) :
    after.agentCell agent =
      stepAgent runtime (tables.agentCell agent) packet.data := by
  obtain ⟨id, contract, data⟩ := packet
  cases data with
  | registered e =>
      cases about
      rw [writePacket_registered written]
      cases found : tables.agents e.agentId with
      | some row =>
          rw [Tables.agentCell_of_some found]
          rfl
      | none =>
          have bare : tables.agentMetadata e.agentId = fun _ => none :=
            funext (owned _ found)
          rw [Tables.agentCell_of_none found]
          simp only [Tables.agentCell_setAgent, if_true, bare, stepAgent]
          simp only [AgentRow.toCell, registeredCell, Tables.newAgent,
            AgentRow.uriColumns, Option.some.injEq, AgentCell.mk.injEq,
            true_and]
          congr 1
          funext cell
          cases cell <;> rfl
  | uriUpdated e =>
      cases about
      rw [writePacket_uriUpdated written]
      cases found : tables.agents e.agentId with
      | none =>
          rw [Tables.agentCell_of_none found]
          rfl
      | some row =>
          have stepped := AgentRow.toCell_uri now row e
            (tables.agentMetadata e.agentId)
          rw [Tables.agentCell_of_some found]
          simp only [stepAgent, AgentCell.step, ParsedEvent.uriWrite,
            ParsedEvent.holdingWrite, Option.elim]
          rw [← stepped]
          split
          · simp
          · simp [Tables.agentCell_of_some found]
  | metadataSet e =>
      cases about
      obtain ⟨present, rfl⟩ := writePacket_metadataSet written
      obtain ⟨row, found⟩ := Option.isSome_iff_exists.mp present
      rw [Tables.agentCell_of_some found]
      simp only [Tables.agentCell, found, Option.map_some, Function.update_self,
        AgentRow.toCell_metadata]
      rfl
  | agentWalletSet e =>
      cases about
      rw [writePacket_agentWalletSet written, Tables.agentCell_setWallet]
      cases tables.agentCell e.agentId <;> rfl
  | agentWalletUnset e =>
      cases about
      rw [writePacket_agentWalletUnset written, Tables.agentCell_setWallet]
      cases tables.agentCell e.agentId <;> rfl
  | agentTransferred e =>
      cases about
      rw [writePacket_agentTransferred written]
      cases found : tables.agents e.agentId with
      | none =>
          rw [Tables.agentCell_of_none found]
          rfl
      | some row =>
          rw [Tables.agentCell_of_some found]
          simp only []
          split
          · rename_i admitted
            have cell := AgentRow.toCell_reset now row e.to e.ledger
              (tables.agentMetadata e.agentId) admitted
            simp only [Tables.agentCell, Tables.clearMetadata,
              Tables.agents_setAgent, if_true, Option.map_some,
              Function.update_self, cell]
            rfl
          · rename_i refused
            rw [Tables.agentCell_of_some found]
            have guard : (row.toCell (tables.agentMetadata
                e.agentId)).holding.admits e.ledger = false :=
              Bool.eq_false_iff.mpr refused
            simp only [stepAgent, AgentCell.step, ParsedEvent.uriWrite,
              ParsedEvent.holdingWrite, Option.elim, ResettableMap.apply,
              guard]
            rfl
  | newFeedback e => cases about
  | feedbackRevoked e => cases about
  | responseAppended e => cases about
  | validationRequest e => cases about
  | validationResponse e => cases about

@[simp] theorem Tables.feedbackCell_setFeedback (key other : FeedbackKey)
    (row : FeedbackRow) :
    (tables.setFeedback key row).feedbackCell other =
      if other = key then
        { tables.feedbackCell key with row := some row }
      else tables.feedbackCell other := by
  unfold feedbackCell setFeedback
  split
  · rename_i same
    subst same
    simp
  · rename_i different
    simp [Function.update_of_ne different]

/-- A packet leaves the cells of other feedback. -/
theorem feedbackCell_writePacket_of_ne
    (written : writePacket runtime now tables packet = .ok after)
    {key : FeedbackKey} (elsewhere : packet.data.feedback? ≠ some key) :
    after.feedbackCell key = tables.feedbackCell key := by
  obtain ⟨id, contract, data⟩ := packet
  cases data with
  | registered e =>
      rw [writePacket_registered written]
      split <;> rfl
  | uriUpdated e =>
      rw [writePacket_uriUpdated written]
      split
      · rfl
      · split <;> rfl
  | metadataSet e =>
      obtain ⟨_, rfl⟩ := writePacket_metadataSet written
      rfl
  | agentWalletSet e =>
      rw [writePacket_agentWalletSet written]
      split <;> rfl
  | agentWalletUnset e =>
      rw [writePacket_agentWalletUnset written]
      split <;> rfl
  | agentTransferred e =>
      rw [writePacket_agentTransferred written]
      split
      · rfl
      · split <;> rfl
  | newFeedback e =>
      have other : key ≠ feedbackKey e.agentId e.clientAddress
          e.feedbackIndex := fun same => elsewhere (same ▸ rfl)
      rw [writePacket_newFeedback written]
      split <;> simp [other]
  | feedbackRevoked e =>
      have other : key ≠ feedbackKey e.agentId e.clientAddress
          e.feedbackIndex := fun same => elsewhere (same ▸ rfl)
      rw [writePacket_feedbackRevoked written]
      split
      · rfl
      · split <;> simp [other]
  | responseAppended e =>
      have other : feedbackKey e.agentId e.clientAddress
          e.feedbackIndex ≠ key := fun same => elsewhere (same ▸ rfl)
      rcases writePacket_responseAppended written with
        ⟨_, rfl⟩ | ⟨_, _, rfl⟩
      · rfl
      · simp [Tables.feedbackCell, appendedResponse, other]
  | validationRequest e =>
      rw [writePacket_validationRequest written]
      split <;> rfl
  | validationResponse e =>
      rw [writePacket_validationResponse written]
      split
      · rfl
      · split <;> rfl

/-- The responses to one feedback decide the number of the next. -/
theorem maxResponseIndex_filter (rows : List ResponseRow)
    (key : FeedbackKey) :
    maxResponseIndex (rows.filter (·.key = key)) key =
      maxResponseIndex rows key := by
  simp [maxResponseIndex, List.filter_filter]

/-- Identifiers are looked up among the responses to the same feedback. -/
theorem any_eventId_filter (keys : ∀ row ∈ tables.feedbackResponses,
    row.key = answers row.eventId) (eventId : String) :
    (tables.feedbackResponses.filter (·.key = answers eventId)).any
        (·.eventId = eventId) =
      tables.feedbackResponses.any (·.eventId = eventId) := by
  rw [Bool.eq_iff_iff]
  simp only [List.any_eq_true, List.mem_filter, decide_eq_true_eq]
  constructor
  · rintro ⟨row, ⟨member, _⟩, named⟩
    exact ⟨row, member, named⟩
  · rintro ⟨row, member, named⟩
    exact ⟨row, ⟨member, named ▸ keys row member⟩, named⟩

/-- A packet steps the cell of the feedback it is about. -/
theorem feedbackCell_writePacket_self
    (written : writePacket runtime now tables packet = .ok after)
    (consistent : tables.Consistent answers)
    (answering : packet.data.Answers answers) {key : FeedbackKey}
    (about : packet.data.feedback? = some key) :
    after.feedbackCell key =
      stepFeedback runtime (tables.feedbackCell key) packet.data := by
  obtain ⟨id, contract, data⟩ := packet
  cases data with
  | newFeedback e =>
      cases about
      rw [writePacket_newFeedback written]
      cases found : tables.feedback
          (feedbackKey e.agentId e.clientAddress e.feedbackIndex) with
      | some row => simp [stepFeedback, Tables.feedbackCell, found]
      | none =>
          rw [Tables.feedbackCell_setFeedback, if_pos rfl]
          simp [stepFeedback, Tables.feedbackCell, found]
  | feedbackRevoked e =>
      cases about
      rw [writePacket_feedbackRevoked written]
      cases found : tables.feedback
          (feedbackKey e.agentId e.clientAddress e.feedbackIndex) with
      | none => simp [stepFeedback, Tables.feedbackCell, found]
      | some row =>
          have guard : revokedStore.admits row.revoked e =
              notAfter row.revokedLedger e.ledger := rfl
          by_cases admitted : notAfter row.revokedLedger e.ledger = true
          · have applied : revokedStore.apply row.revoked e =
                revokedStore.written e := by
              rw [GuardedWrite.apply, guard, if_pos admitted]
              rfl
            simp only [admitted, if_true, Tables.feedbackCell_setFeedback]
            simp only [stepFeedback, Tables.feedbackCell, found, applied]
            rfl
          · have kept : revokedStore.apply row.revoked e = row.revoked := by
              rw [GuardedWrite.apply, guard, if_neg admitted]
            simp only [admitted, stepFeedback, Tables.feedbackCell, found,
              kept]
            exact FeedbackCell.mk.injEq _ _ _ _ |>.mpr ⟨found, rfl⟩
  | responseAppended e =>
      cases about
      have keyed : feedbackKey e.agentId e.clientAddress e.feedbackIndex =
          answers e.eventId := answering
      have lookup := any_eventId_filter consistent.responseKeys e.eventId
      rw [← keyed] at lookup
      rcases writePacket_responseAppended written with
        ⟨known, rfl⟩ | ⟨fresh, present, rfl⟩
      · rw [known] at lookup
        cases found : after.feedback
            (feedbackKey e.agentId e.clientAddress e.feedbackIndex) with
        | none => simp only [stepFeedback, Tables.feedbackCell, found]
        | some row =>
            simp only [stepFeedback, Tables.feedbackCell, found, lookup,
              if_true]
      · obtain ⟨row, found⟩ := Option.isSome_iff_exists.mp present
        rw [fresh] at lookup
        simp only [stepFeedback, Tables.feedbackCell, found, lookup,
          Bool.false_eq_true, if_false, List.filter_append]
        congr 2
        simp [appendedResponse, maxResponseIndex_filter]
  | registered e => cases about
  | uriUpdated e => cases about
  | metadataSet e => cases about
  | agentWalletSet e => cases about
  | agentWalletUnset e => cases about
  | agentTransferred e => cases about
  | validationRequest e => cases about
  | validationResponse e => cases about

/-- A packet leaves the rows of other validation requests. -/
theorem validations_writePacket_of_ne
    (written : writePacket runtime now tables packet = .ok after)
    {requestHash : String}
    (elsewhere : packet.data.request? ≠ some requestHash) :
    after.validations requestHash = tables.validations requestHash := by
  obtain ⟨id, contract, data⟩ := packet
  cases data with
  | registered e =>
      rw [writePacket_registered written]
      split <;> rfl
  | uriUpdated e =>
      rw [writePacket_uriUpdated written]
      split
      · rfl
      · split <;> rfl
  | metadataSet e =>
      obtain ⟨_, rfl⟩ := writePacket_metadataSet written
      rfl
  | agentWalletSet e =>
      rw [writePacket_agentWalletSet written]
      split <;> rfl
  | agentWalletUnset e =>
      rw [writePacket_agentWalletUnset written]
      split <;> rfl
  | agentTransferred e =>
      rw [writePacket_agentTransferred written]
      split
      · rfl
      · split <;> rfl
  | newFeedback e =>
      rw [writePacket_newFeedback written]
      split <;> rfl
  | feedbackRevoked e =>
      rw [writePacket_feedbackRevoked written]
      split
      · rfl
      · split <;> rfl
  | responseAppended e =>
      rcases writePacket_responseAppended written with
        ⟨_, rfl⟩ | ⟨_, _, rfl⟩ <;> rfl
  | validationRequest e =>
      have other : requestHash ≠ e.requestHash :=
        fun same => elsewhere (same ▸ rfl)
      rw [writePacket_validationRequest written]
      split
      · rfl
      · simp [Tables.setValidation, Function.update_of_ne other]
  | validationResponse e =>
      have other : requestHash ≠ e.requestHash :=
        fun same => elsewhere (same ▸ rfl)
      rw [writePacket_validationResponse written]
      split
      · rfl
      · split <;> simp [Tables.setValidation, Function.update_of_ne other]

/-- A packet steps the row of the validation request it is about. -/
theorem validations_writePacket_self
    (written : writePacket runtime now tables packet = .ok after)
    {requestHash : String}
    (about : packet.data.request? = some requestHash) :
    after.validations requestHash =
      stepValidation runtime (tables.validations requestHash)
        packet.data := by
  obtain ⟨id, contract, data⟩ := packet
  cases data with
  | validationRequest e =>
      cases about
      rw [writePacket_validationRequest written]
      cases found : tables.validations e.requestHash with
      | some row => simp [stepValidation, found]
      | none => simp [stepValidation, Tables.setValidation]
  | validationResponse e =>
      cases about
      rw [writePacket_validationResponse written]
      cases found : tables.validations e.requestHash with
      | none => simp [stepValidation, found]
      | some row =>
          have guard : (answerStore runtime).admits row.answer e =
              notAfter row.responseLedger e.ledger := rfl
          by_cases admitted : notAfter row.responseLedger e.ledger = true
          · have applied : (answerStore runtime).apply row.answer e =
                (answerStore runtime).written e := by
              rw [GuardedWrite.apply, guard, if_pos admitted]
              rfl
            simp [stepValidation, admitted, applied, Tables.setValidation]
          · have kept : (answerStore runtime).apply row.answer e =
                row.answer := by
              rw [GuardedWrite.apply, guard, if_neg admitted]
            simp only [admitted, stepValidation, kept]
            exact found
  | registered e => cases about
  | uriUpdated e => cases about
  | metadataSet e => cases about
  | agentWalletSet e => cases about
  | agentWalletUnset e => cases about
  | agentTransferred e => cases about
  | newFeedback e => cases about
  | feedbackRevoked e => cases about
  | responseAppended e => cases about

end

/-! ## Runs of packets -/

/-- The events of a list of writes, in order. -/
def writtenEvents (writes : List (String × EventPacket)) :
    List ParsedEvent :=
  writes.map fun write => write.2.data

@[simp] theorem writtenEvents_append
    (first second : List (String × EventPacket)) :
    writtenEvents (first ++ second) =
      writtenEvents first ++ writtenEvents second :=
  List.map_append

def aboutAgent (agent : Nat) (events : List ParsedEvent) :
    List ParsedEvent :=
  events.filter fun event => event.agent? = some agent

def aboutFeedback (key : FeedbackKey) (events : List ParsedEvent) :
    List ParsedEvent :=
  events.filter fun event => event.feedback? = some key

def aboutRequest (requestHash : String) (events : List ParsedEvent) :
    List ParsedEvent :=
  events.filter fun event => event.request? = some requestHash

section

variable {runtime : Runtime} {tables after : Tables}
  {answers : String → FeedbackKey} {writes : List (String × EventPacket)}

theorem writeAll_cons_ok {now : String} {packet : EventPacket}
    (written : writeAll runtime ((now, packet) :: writes) tables =
      .ok after) :
    ∃ middle, writePacket runtime now tables packet = .ok middle ∧
      writeAll runtime writes middle = .ok after := by
  simp only [writeAll] at written
  cases first : writePacket runtime now tables packet with
  | error failure =>
      rw [first] at written
      cases written
  | ok middle =>
      rw [first] at written
      exact ⟨middle, rfl, written⟩

theorem writeAll_consistent
    (written : writeAll runtime writes tables = .ok after)
    (consistent : tables.Consistent answers)
    (answering : ∀ event ∈ writtenEvents writes, event.Answers answers) :
    after.Consistent answers := by
  induction writes generalizing tables with
  | nil =>
      cases written
      exact consistent
  | cons write writes induction =>
      obtain ⟨now, packet⟩ := write
      obtain ⟨middle, first, rest⟩ := writeAll_cons_ok written
      have stepped := writePacket_consistent first consistent
        (answering _ List.mem_cons_self)
      exact induction rest stepped fun event member =>
        answering event (List.mem_cons_of_mem _ member)

/-- A run of packets leaves each agent as its own events leave it. -/
theorem agentCell_writeAll
    (written : writeAll runtime writes tables = .ok after)
    (consistent : tables.Consistent answers)
    (answering : ∀ event ∈ writtenEvents writes, event.Answers answers)
    (agent : Nat) :
    after.agentCell agent =
      (aboutAgent agent (writtenEvents writes)).foldl (stepAgent runtime)
        (tables.agentCell agent) := by
  induction writes generalizing tables with
  | nil =>
      cases written
      rfl
  | cons write writes induction =>
      obtain ⟨now, packet⟩ := write
      obtain ⟨middle, first, rest⟩ := writeAll_cons_ok written
      have stepped := writePacket_consistent first consistent
        (answering _ List.mem_cons_self)
      rw [induction rest stepped fun event member =>
        answering event (List.mem_cons_of_mem _ member)]
      by_cases about : packet.data.agent? = some agent
      · rw [agentCell_writePacket_self first consistent.metadataOwned about]
        simp [writtenEvents, aboutAgent, about]
      · rw [agentCell_writePacket_of_ne first about]
        simp [writtenEvents, aboutAgent, about]

/-- A run of packets leaves each feedback as its own events leave it. -/
theorem feedbackCell_writeAll
    (written : writeAll runtime writes tables = .ok after)
    (consistent : tables.Consistent answers)
    (answering : ∀ event ∈ writtenEvents writes, event.Answers answers)
    (key : FeedbackKey) :
    after.feedbackCell key =
      (aboutFeedback key (writtenEvents writes)).foldl (stepFeedback runtime)
        (tables.feedbackCell key) := by
  induction writes generalizing tables with
  | nil =>
      cases written
      rfl
  | cons write writes induction =>
      obtain ⟨now, packet⟩ := write
      obtain ⟨middle, first, rest⟩ := writeAll_cons_ok written
      have answered := answering _ List.mem_cons_self
      have stepped := writePacket_consistent first consistent answered
      rw [induction rest stepped fun event member =>
        answering event (List.mem_cons_of_mem _ member)]
      by_cases about : packet.data.feedback? = some key
      · rw [feedbackCell_writePacket_self first consistent answered about]
        simp [writtenEvents, aboutFeedback, about]
      · rw [feedbackCell_writePacket_of_ne first about]
        simp [writtenEvents, aboutFeedback, about]

/-- A run of packets leaves each request as its own events leave it. -/
theorem validations_writeAll
    (written : writeAll runtime writes tables = .ok after)
    (requestHash : String) :
    after.validations requestHash =
      (aboutRequest requestHash (writtenEvents writes)).foldl
        (stepValidation runtime) (tables.validations requestHash) := by
  induction writes generalizing tables with
  | nil =>
      cases written
      rfl
  | cons write writes induction =>
      obtain ⟨now, packet⟩ := write
      obtain ⟨middle, first, rest⟩ := writeAll_cons_ok written
      rw [induction rest]
      by_cases about : packet.data.request? = some requestHash
      · rw [validations_writePacket_self first about]
        simp [writtenEvents, aboutRequest, about]
      · rw [validations_writePacket_of_ne first about]
        simp [writtenEvents, aboutRequest, about]

end

end Stellar8004.Indexer
