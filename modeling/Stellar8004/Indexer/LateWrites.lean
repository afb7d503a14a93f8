import Stellar8004.Indexer.Convergence

/-!
# Late writes

A run that has lost the lock may still write an event of the page it had
fetched, after a newer run has written everything.  Such a late write changes
no row exactly when the history has settled the event: nothing newer stands
where it writes, or its guard turns it away.  Wallet and metadata writes have
no guard, and the ledger guards let a late write of the same ledger through.
-/

namespace Stellar8004.Indexer

/-! ## The last writers of a history -/

section

variable (events : List ParsedEvent) (agent : Nat)

/-- The writes to the wallet, the metadata and the owner of an agent. -/
def holdingWrites : List (ResettableMap.Write HoldingCell String String Nat) :=
  (events.filter (·.agent? = some agent)).filterMap ParsedEvent.holdingWrite

/-- What the last event that writes the wallet or a metadata key of an agent
leaves there; a transfer leaves nothing. -/
def lastWrite? (cell : HoldingCell) : Option (Option String) :=
  ResettableMap.lastWrite cell (holdingWrites events agent)

/-- Ledger and new owner of the last transfer of an agent. -/
def lastTransfer? : Option (Nat × String) :=
  ResettableMap.lastReset (holdingWrites events agent)

def lastUri? : Option UriUpdatedEvent :=
  ((events.filter (·.agent? = some agent)).filterMap
    ParsedEvent.uriWrite).getLast?

def lastAnswer? (requestHash : String) : Option ValidationResponseEvent :=
  ((events.filter (·.request? = some requestHash)).filterMap
    ParsedEvent.answer).getLast?

end

/-- The history leaves no trace of writing an event once more. -/
def ParsedEvent.Settled (runtime : Runtime) (events : List ParsedEvent) :
    ParsedEvent → Prop
  | uriUpdated e => ∀ last, lastUri? events e.agentId = some last →
      e.ledger < last.ledger ∨ last.newUri = e.newUri
  | metadataSet e =>
      lastWrite? events e.agentId (.metadata e.key) = some (some e.value)
  | agentWalletSet e =>
      lastWrite? events e.agentId .wallet = some (some e.newWallet)
  | agentWalletUnset e => lastWrite? events e.agentId .wallet = some none
  | agentTransferred e => ∀ last, lastTransfer? events e.agentId = some last →
      e.ledger < last.1 ∨ last.2 = e.to ∧
        ∀ cell, lastWrite? events e.agentId cell = some none
  | validationResponse e => ∀ last,
      lastAnswer? events e.requestHash = some last →
      e.ledger < last.ledger ∨
        (answerStore runtime).written last = (answerStore runtime).written e
  | _ => True

section

variable {runtime : Runtime} {events : List ParsedEvent}

/-! ## Agents -/

/-- A history that begins with a registration leaves the last writes. -/
theorem foldl_stepAgent_history (runtime : Runtime) (ordered : LedgerOrdered events)
    (begins : Replay.Begins (fun event => event.isRegistered = true) events)
    (nonempty : events ≠ []) :
    ∃ e, .registered e ∈ events ∧
      events.foldl (stepAgent runtime) none = some
        { registeredCell runtime e with
          uri := ((events.filterMap ParsedEvent.uriWrite).getLast?.map
            writtenUri).getD (registeredCell runtime e).uri
          holding :=
            { stamp := (ResettableMap.lastReset
                (events.filterMap ParsedEvent.holdingWrite)).map Prod.fst
              label := ((ResettableMap.lastReset
                (events.filterMap ParsedEvent.holdingWrite)).map
                  Prod.snd).getD e.owner
              cells := fun cell => (ResettableMap.lastWrite cell
                (events.filterMap ParsedEvent.holdingWrite)).getD
                  none } } := by
  cases events with
  | nil => exact absurd rfl nonempty
  | cons first rest =>
      have isRegistered := begins first rest rfl
      cases first with
      | registered e =>
          refine ⟨e, List.mem_cons_self, ?_⟩
          have later : LedgerOrdered rest := (List.pairwise_cons.mp ordered).2
          change rest.foldl (stepAgent runtime)
            (some (registeredCell runtime e)) = _
          rw [foldl_stepAgent_some, AgentCell.foldl_step,
            uriStore.foldl_apply_fresh _ rfl (fun event => by
              simp [uriStore, registeredCell]) later.uriWrites,
            ResettableMap.foldl_apply_fresh _ rfl later.holdingWrites]
          rfl
      | _ => cases isRegistered

/-- Putting the value once more, after a history that has put it. -/
private theorem put_settled_iff
    {writes : List (ResettableMap.Write HoldingCell String String Nat)}
    (stamp : Option Nat) (label : String) {cell : HoldingCell}
    {value : Option String} (member : .put cell value ∈ writes) :
    ResettableMap.apply
        { stamp, label
          cells := fun cell =>
            (ResettableMap.lastWrite cell writes).getD none }
        (.put cell value) =
        { stamp, label
          cells := fun cell =>
            (ResettableMap.lastWrite cell writes).getD none } ↔
      ResettableMap.lastWrite cell writes = some value := by
  have effective : value ∈ writes.filterMap
      (ResettableMap.Write.effect cell) :=
    List.mem_filterMap.mpr ⟨_, member, by simp [ResettableMap.Write.effect]⟩
  obtain ⟨last, isLast⟩ := Replay.exists_getLast effective
  have same : ResettableMap.lastWrite cell writes = some last := isLast
  rw [ResettableMap.apply_put_eq_iff]
  simp [same]

/-- Transferring once more, after a history that has the transfer. -/
private theorem reset_settled_iff
    {writes : List (ResettableMap.Write HoldingCell String String Nat)}
    {owner : String} {ledger : Nat} {recipient : String}
    (ordered : ResettableMap.Ordered writes)
    (member : .reset ledger recipient ∈ writes) :
    ResettableMap.apply
        { stamp := (ResettableMap.lastReset writes).map Prod.fst
          label := ((ResettableMap.lastReset writes).map Prod.snd).getD owner
          cells := fun cell =>
            (ResettableMap.lastWrite cell writes).getD none }
        (.reset ledger recipient) =
        { stamp := (ResettableMap.lastReset writes).map Prod.fst
          label := ((ResettableMap.lastReset writes).map Prod.snd).getD owner
          cells := fun cell =>
            (ResettableMap.lastWrite cell writes).getD none } ↔
      ∀ last, ResettableMap.lastReset writes = some last →
        ledger < last.1 ∨ last.2 = recipient ∧
          ∀ cell, ResettableMap.lastWrite cell writes = some none := by
  have resets : (ledger, recipient) ∈
      writes.filterMap ResettableMap.Write.reset? :=
    List.mem_filterMap.mpr ⟨_, member, rfl⟩
  obtain ⟨⟨last, newOwner⟩, isLast⟩ := Replay.exists_getLast resets
  have isReset : ResettableMap.lastReset writes = some (last, newOwner) :=
    isLast
  have stamps : (writes.filterMap ResettableMap.Write.reset?).Pairwise
      fun left right => left.1 ≤ right.1 := by
    unfold ResettableMap.Ordered at ordered
    rw [← List.pairwise_map, List.map_filterMap]
    convert ordered using 3 with write
    cases write <;> rfl
  have notLater : ledger ≤ last := Replay.le_getLast Prod.fst stamps resets isLast
  have touched : ∀ cell, ∃ value,
      ResettableMap.lastWrite cell writes = some value := by
    intro cell
    exact Replay.exists_getLast (List.mem_filterMap.mpr ⟨_, member, rfl⟩)
  rw [ResettableMap.apply_reset_eq_iff, isReset]
  simp only [ResettableMap.admits, ResettableMap.cleared, Option.map_some,
    Option.getD_some, Option.all_some, decide_eq_false_iff_not, not_le,
    ResettableMap.mk.injEq, Option.some.injEq, forall_eq']
  constructor
  · rintro (older | ⟨_, sameOwner, empty⟩)
    · exact .inl older
    · refine .inr ⟨sameOwner, ?_⟩
      intro cell
      obtain ⟨value, isValue⟩ := touched cell
      have gone := congrFun empty cell
      simp only [isValue, Option.getD_some] at gone
      rw [isValue, gone]
  · rintro (older | ⟨sameOwner, empty⟩)
    · exact .inl older
    · by_cases older : ledger < last
      · exact .inl older
      · refine .inr ⟨by omega, sameOwner, ?_⟩
        funext cell
        rw [empty cell]
        rfl

/-- Running an event of an agent's history once more. -/
theorem stepAgent_eq_iff (runtime : Runtime) {history : List ParsedEvent}
    {agent : Nat} {event : ParsedEvent} (ordered : LedgerOrdered history)
    (begins : Replay.Begins (fun event => event.isRegistered = true) history)
    (holdings : history.filterMap ParsedEvent.holdingWrite =
      holdingWrites events agent)
    (uris : (history.filterMap ParsedEvent.uriWrite).getLast? =
      lastUri? events agent)
    (member : event ∈ history) (about : event.agent? = some agent) :
    stepAgent runtime (history.foldl (stepAgent runtime) none) event =
        history.foldl (stepAgent runtime) none ↔
      event.Settled runtime events := by
  obtain ⟨created, _, final⟩ := foldl_stepAgent_history runtime ordered begins
    (List.ne_nil_of_mem member)
  have writes : ∀ write, event.holdingWrite = some write →
      write ∈ history.filterMap ParsedEvent.holdingWrite :=
    fun write isWrite => List.mem_filterMap.mpr ⟨event, member, isWrite⟩
  have resets := ordered.holdingWrites
  rw [final]
  rw [holdings] at writes resets ⊢
  rw [uris]
  simp only [stepAgent, AgentCell.step, Option.some.injEq, AgentCell.mk.injEq,
    true_and]
  cases event with
  | registered e => simp [ParsedEvent.uriWrite, ParsedEvent.holdingWrite,
      ParsedEvent.Settled]
  | uriUpdated e =>
      cases about
      have inside : e ∈ history.filterMap ParsedEvent.uriWrite :=
        List.mem_filterMap.mpr ⟨_, member, rfl⟩
      obtain ⟨last, isLast⟩ := Replay.exists_getLast inside
      have notLater : e.ledger ≤ last.ledger :=
        Replay.le_getLast uriStore.stamp ordered.uriWrites inside isLast
      rw [uris] at isLast
      simp only [ParsedEvent.uriWrite, ParsedEvent.holdingWrite,
        ParsedEvent.Settled, Option.elim_some, Option.elim_none, and_true,
        isLast, Option.map_some, Option.getD_some, Option.some.injEq,
        forall_eq']
      change uriStore.apply (uriStore.written last) e =
        uriStore.written last ↔ _
      rw [GuardedWrite.apply_written_eq_iff]
      constructor
      · rintro (older | same)
        · exact .inl older
        · simp only [uriStore, writtenUri, UriColumns.mk.injEq,
            Option.some.injEq] at same
          exact .inr same.1.symm
      · rintro (older | same)
        · exact .inl older
        · by_cases older : e.ledger < last.ledger
          · exact .inl older
          · have sameLedger : e.ledger = last.ledger := by omega
            right
            simp [uriStore, writtenUri, same, sameLedger]
  | metadataSet e =>
      cases about
      simpa [ParsedEvent.uriWrite, ParsedEvent.holdingWrite,
        ParsedEvent.Settled, lastWrite?] using
        put_settled_iff _ _ (writes _ rfl)
  | agentWalletSet e =>
      cases about
      simpa [ParsedEvent.uriWrite, ParsedEvent.holdingWrite,
        ParsedEvent.Settled, lastWrite?] using
        put_settled_iff _ _ (writes _ rfl)
  | agentWalletUnset e =>
      cases about
      simpa [ParsedEvent.uriWrite, ParsedEvent.holdingWrite,
        ParsedEvent.Settled, lastWrite?] using
        put_settled_iff _ _ (writes _ rfl)
  | agentTransferred e =>
      cases about
      simpa [ParsedEvent.uriWrite, ParsedEvent.holdingWrite,
        ParsedEvent.Settled, lastWrite?, lastTransfer?] using
        reset_settled_iff resets (writes _ rfl)
  | _ => cases about

/-! ## Feedback -/

/-- Running an event of a feedback's history once more does nothing. -/
theorem stepFeedback_eq (runtime : Runtime) {history : List ParsedEvent}
    {event : ParsedEvent} (ordered : LedgerOrdered history)
    (begins : Replay.Begins (fun event => event.isNewFeedback = true) history)
    (member : event ∈ history) :
    stepFeedback runtime
        (history.foldl (stepFeedback runtime) { row := none, responses := [] })
        event =
      history.foldl (stepFeedback runtime)
        { row := none, responses := [] } := by
  cases history with
  | nil => cases member
  | cons first rest =>
      have isNew := begins first rest rfl
      cases first with
      | newFeedback created =>
          have later : LedgerOrdered rest := (List.pairwise_cons.mp ordered).2
          have born : stepFeedback runtime { row := none, responses := [] }
              (.newFeedback created) =
                { row := some (insertedFeedback runtime created)
                  responses := [] } := rfl
          rw [List.foldl_cons, born, foldl_stepFeedback_some]
          rcases List.mem_cons.mp member with rfl | inside
          · rfl
          cases event with
          | feedbackRevoked e =>
              have revokes : e ∈ rest.filterMap ParsedEvent.revocation :=
                List.mem_filterMap.mpr ⟨_, inside, rfl⟩
              obtain ⟨last, isLast⟩ := Replay.exists_getLast revokes
              have notLater := Replay.le_getLast revokedStore.stamp
                later.revocations revokes isLast
              have again : revokedStore.apply (revokedStore.written last) e =
                  revokedStore.written last := by
                rw [GuardedWrite.apply_written_eq_iff]
                rcases Nat.lt_or_eq_of_le notLater with older | same
                · exact .inl older
                · right
                  simpa [revokedStore] using same
              simp only [stepFeedback]
              rw [revokedStore.foldl_apply_fresh _ rfl (fun _ => rfl)
                later.revocations, isLast]
              congr 2
              exact congrArg (insertedFeedback runtime created).withRevoked
                again
          | responseAppended e =>
              have responds : e ∈ rest.filterMap ParsedEvent.response :=
                List.mem_filterMap.mpr ⟨_, inside, rfl⟩
              simp only [stepFeedback]
              rw [if_pos (foldl_appendResponse_knows runtime _ [] e responds)]
          | _ => rfl
      | _ => cases isNew

/-! ## Validations -/

/-- Running an event of a request's history once more. -/
theorem stepValidation_eq_iff (runtime : Runtime)
    {history : List ParsedEvent} {event : ParsedEvent} {requestHash : String}
    (ordered : LedgerOrdered history)
    (begins : Replay.Begins (fun event => event.isValidationRequest = true)
      history)
    (answers : (history.filterMap ParsedEvent.answer).getLast? =
      lastAnswer? events requestHash)
    (member : event ∈ history) (about : event.request? = some requestHash) :
    stepValidation runtime (history.foldl (stepValidation runtime) none)
        event = history.foldl (stepValidation runtime) none ↔
      event.Settled runtime events := by
  cases history with
  | nil => cases member
  | cons first rest =>
      have isRequest := begins first rest rfl
      cases first with
      | validationRequest created =>
          have later : LedgerOrdered rest := (List.pairwise_cons.mp ordered).2
          rw [List.foldl_cons, stepValidation, foldl_stepValidation_some]
          rcases List.mem_cons.mp member with rfl | inside
          · simp [stepValidation, ParsedEvent.Settled]
          cases event with
          | validationRequest e => simp [stepValidation, ParsedEvent.Settled]
          | validationResponse e =>
              cases about
              have responds : e ∈ rest.filterMap ParsedEvent.answer :=
                List.mem_filterMap.mpr ⟨_, inside, rfl⟩
              obtain ⟨last, isLast⟩ := Replay.exists_getLast responds
              have isAnswer : lastAnswer? events e.requestHash = some last :=
                answers.symm.trans isLast
              rw [(answerStore runtime).foldl_apply_fresh _ rfl
                (fun _ => rfl) (later.answers runtime), isLast]
              simp only [ParsedEvent.Settled, isAnswer, Option.some.injEq,
                forall_eq', stepValidation, Option.map_some, Option.getD_some]
              have again : (answerStore runtime).apply
                  ((answerStore runtime).written last) e =
                    (answerStore runtime).written last ↔
                  e.ledger < last.ledger ∨ (answerStore runtime).written e =
                    (answerStore runtime).written last :=
                GuardedWrite.apply_written_eq_iff
              rw [eq_comm (a := (answerStore runtime).written last), ← again]
              constructor
              · intro same
                exact congrArg ValidationRow.answer same
              · intro same
                exact congrArg (insertedRequest runtime created).withAnswer
                  same
          | _ => cases about
      | _ => cases isRequest

end

/-! ## Rows and cells -/

section

variable {left right : Tables} (same : left.SameRows right)

include same

theorem Tables.SameRows.agentCell (id : Nat) :
    left.agentCell id = right.agentCell id := by
  have rows := same.agents id
  unfold Tables.agentCell
  rw [same.agentMetadata]
  have cell : ∀ row : AgentRow,
      row.toCell (right.agentMetadata id) =
        row.settled.toCell (right.agentMetadata id) := fun _ => rfl
  cases first : left.agents id with
  | none =>
      rw [first, Option.map_none] at rows
      rw [Option.map_eq_none_iff.mp rows.symm]
  | some row =>
      rw [first, Option.map_some] at rows
      obtain ⟨other, second, settled⟩ := Option.map_eq_some_iff.mp rows.symm
      rw [second, Option.map_some, Option.map_some, cell row, cell other,
        settled]

theorem Tables.SameRows.feedbackCell (key : FeedbackKey) :
    left.feedbackCell key = right.feedbackCell key := by
  unfold Tables.feedbackCell
  rw [same.feedback, same.feedbackResponses]

end

/-- Every event touches one cell of one family. -/
theorem ParsedEvent.touches (event : ParsedEvent) :
    (∃ id, event.agent? = some id ∧ event.feedback? = none ∧
      event.request? = none) ∨
    (∃ key, event.feedback? = some key ∧ event.agent? = none ∧
      event.request? = none) ∨
    ∃ requestHash, event.request? = some requestHash ∧
      event.agent? = none ∧ event.feedback? = none := by
  cases event <;>
    simp [ParsedEvent.agent?, ParsedEvent.feedback?, ParsedEvent.request?]

/-! ## A late write after everything has been indexed -/

section

variable {runtime : Runtime} {chain : List EventPacket} {origin : Nat}
  {checkpoints : ContractName → Nat} {tables : Tables}

/-- Events other than registrations come in chain order. -/
theorem CellView.filterMap_history {κ σ α : Type} [DecidableEq κ]
    (view : CellView runtime κ σ) (cell : κ) (select : ParsedEvent → Option α)
    (silent : ∀ event, event.isRegistered = true → select event = none) :
    (view.history chain cell).filterMap select =
      ((chain.map EventPacket.data).filter
        (fun event => view.key event = some cell)).filterMap select := by
  have none : (chain.filter fun packet => packet.data.isRegistered).filterMap
      (fun packet => if view.key packet.data = some cell then
        select packet.data else none) = [] := by
    apply List.filterMap_eq_nil_iff.mpr
    intro packet member
    rw [silent _ (List.mem_filter.mp member).2]
    split <;> rfl
  have rest : (chain.filter fun packet => !packet.data.isRegistered).filterMap
      (fun packet => if view.key packet.data = some cell then
        select packet.data else Option.none) =
      chain.filterMap (fun packet => if view.key packet.data = some cell then
        select packet.data else Option.none) := by
    rw [List.filterMap_filter]
    congr 1
    funext packet
    by_cases isRegistered : packet.data.isRegistered = true
    · simp [isRegistered, silent _ isRegistered]
    · simp [isRegistered]
  simp only [CellView.history, parentsFirst, List.map_append,
    List.filter_append, List.filterMap_append, List.filterMap_filter,
    List.filterMap_map, Function.comp_def, decide_eq_true_eq] at none rest ⊢
  rw [none, rest, List.nil_append]

/-- Writing one event steps the cell it touches and no other. -/
theorem CellView.read_written {κ σ : Type} [DecidableEq κ]
    (view : CellView runtime κ σ) {answers : String → FeedbackKey}
    {after : Tables} {packet : EventPacket} {now : String}
    (written : writePacket runtime now tables packet = .ok after)
    (consistent : tables.Consistent answers)
    (answered : packet.data.Answers answers) (cell : κ) :
    view.read after cell =
      if view.key packet.data = some cell then
        view.step (view.read tables cell) packet.data
      else view.read tables cell := by
  have whole : writeAll runtime [(now, packet)] tables = .ok after := by
    simp only [writeAll, written]
  have reads := view.reads whole consistent (fun event isEvent => by
    rw [List.mem_singleton.mp isEvent]
    exact answered) cell
  by_cases touches : view.key packet.data = some cell
  · rw [reads, if_pos touches]
    simp [writtenEvents, touches]
  · rw [reads, if_neg touches]
    simp [writtenEvents, touches]

/-- Writing one event changes no row exactly when it changes no cell it
touches. -/
theorem sameRows_written_iff {answers : String → FeedbackKey} {after : Tables}
    {packet : EventPacket} {now : String}
    (written : writePacket runtime now tables packet = .ok after)
    (consistent : tables.Consistent answers)
    (answered : packet.data.Answers answers) :
    after.SameRows tables ↔
      (∀ id, packet.data.agent? = some id →
        after.agentCell id = tables.agentCell id) ∧
      (∀ key, packet.data.feedback? = some key →
        after.feedbackCell key = tables.feedbackCell key) ∧
      ∀ requestHash, packet.data.request? = some requestHash →
        after.validations requestHash = tables.validations requestHash := by
  have elsewhere : ∀ {κ σ : Type} [DecidableEq κ]
      (view : CellView runtime κ σ) (cell : κ),
      view.key packet.data ≠ some cell →
      view.read after cell = view.read tables cell := by
    intro κ σ _ view cell other
    rw [view.read_written written consistent answered, if_neg other]
  constructor
  · intro same
    exact ⟨fun id _ => same.agentCell id, fun key _ => same.feedbackCell key,
      fun requestHash _ => congrFun same.validations requestHash⟩
  · intro ⟨agents, feedback, validations⟩
    have afterConsistent := writePacket_consistent written consistent answered
    apply Tables.SameRows.of_cells afterConsistent.metadataOwned
      consistent.metadataOwned
    · intro id
      by_cases touches : packet.data.agent? = some id
      · exact agents id touches
      · exact elsewhere (agentView runtime) id touches
    · intro key
      by_cases touches : packet.data.feedback? = some key
      · exact feedback key touches
      · exact elsewhere (feedbackView runtime) key touches
    · intro requestHash
      by_cases touches : packet.data.request? = some requestHash
      · exact validations requestHash touches
      · exact elsewhere (requestView runtime) requestHash touches

/-! ## The cell a late write touches -/

section

variable {packet : EventPacket}

theorem CellView.mem_history_of_key {κ σ : Type} [DecidableEq κ]
    (view : CellView runtime κ σ) (member : packet ∈ chain) {cell : κ}
    (touches : view.key packet.data = some cell) :
    packet.data ∈ view.history chain cell :=
  view.mem_history.mpr ⟨packet, member, rfl, touches⟩

variable (wellFormed : WellFormed runtime chain) (member : packet ∈ chain)

include wellFormed member

theorem stepAgent_history_eq_iff {id : Nat}
    (touches : packet.data.agent? = some id) :
    stepAgent runtime
        (((agentView runtime).history chain id).foldl (stepAgent runtime) none)
        packet.data =
      ((agentView runtime).history chain id).foldl (stepAgent runtime) none ↔
      packet.data.Settled runtime (chain.map EventPacket.data) := by
  have tracks := wellFormed.agentView
  have holdings : ((agentView runtime).history chain id).filterMap
      ParsedEvent.holdingWrite = _ :=
    (agentView runtime).filterMap_history id _ (by
      intro event isRegistered
      cases event <;> first | rfl | cases isRegistered)
  have uris : ((agentView runtime).history chain id).filterMap
      ParsedEvent.uriWrite = _ :=
    (agentView runtime).filterMap_history id _ (by
      intro event isRegistered
      cases event <;> first | rfl | cases isRegistered)
  exact stepAgent_eq_iff runtime (tracks.ordered id) (tracks.begins id)
    holdings (congrArg List.getLast? uris)
    ((agentView runtime).mem_history_of_key member touches) touches

theorem stepFeedback_history_eq {key : FeedbackKey}
    (touches : packet.data.feedback? = some key) :
    stepFeedback runtime (((feedbackView runtime).history chain key).foldl
        (stepFeedback runtime) ((feedbackView runtime).read Tables.empty key))
        packet.data =
      ((feedbackView runtime).history chain key).foldl
        (stepFeedback runtime) ((feedbackView runtime).read Tables.empty key) :=
  have tracks := wellFormed.feedbackView
  stepFeedback_eq runtime (tracks.ordered key) (tracks.begins key)
    ((feedbackView runtime).mem_history_of_key member touches)

theorem stepValidation_history_eq_iff {requestHash : String}
    (touches : packet.data.request? = some requestHash) :
    stepValidation runtime (((requestView runtime).history chain
        requestHash).foldl (stepValidation runtime) none) packet.data =
      ((requestView runtime).history chain requestHash).foldl
        (stepValidation runtime) none ↔
      packet.data.Settled runtime (chain.map EventPacket.data) := by
  have tracks := wellFormed.requestView
  have answers : ((requestView runtime).history chain requestHash).filterMap
      ParsedEvent.answer = _ :=
    (requestView runtime).filterMap_history requestHash _ (by
      intro event isRegistered
      cases event <;> first | rfl | cases isRegistered)
  exact stepValidation_eq_iff runtime (tracks.ordered requestHash)
    (tracks.begins requestHash) (congrArg List.getLast? answers)
    ((requestView runtime).mem_history_of_key member touches) touches

end

/-- Writing an event once more, after everything has been indexed, succeeds;
it changes no row exactly when the history has settled the event. -/
theorem Indexes.late_write
    (indexed : Indexes runtime chain origin checkpoints tables)
    (wellFormed : WellFormed runtime chain)
    (later : ∀ packet ∈ chain, origin < packet.ledger)
    (done : ∀ packet ∈ chain, packet.ledger ≤ checkpoints packet.contract)
    {packet : EventPacket} (member : packet ∈ chain) (now : String) :
    ∃ after, writePacket runtime now tables packet = .ok after ∧
      (after.SameRows tables ↔
        packet.data.Settled runtime (chain.map EventPacket.data)) := by
  obtain ⟨answers, answering⟩ := wellFormed.exists_answers
  have consistent := indexed.consistent answering
  have parents : ∀ parent, packet.data.parent? = some parent →
      tables.Has parent := by
    intro parent isParent
    obtain ⟨creator, held, creates⟩ :=
      wellFormed.exists_creator packet member parent isParent
    exact indexed.has later creator held (done creator held) parent creates
  obtain ⟨after, written⟩ := writePacket_ok now
    (wellFormed.timed packet member) (wellFormed.checked packet member)
    parents
  refine ⟨after, written, ?_⟩
  have answered := answering packet member
  -- the cell the event touches stands where the whole chain has left it
  have here : ∀ {κ σ : Type} [DecidableEq κ] (view : CellView runtime κ σ)
      (cell : κ), view.Tracks chain → view.key packet.data = some cell →
      view.read tables cell = (view.history chain cell).foldl view.step
          (view.read Tables.empty cell) ∧
        view.read after cell =
          view.step (view.read tables cell) packet.data := by
    intro κ σ _ view cell tracks touches
    constructor
    · exact indexed.read_eq view cell tracks wellFormed.contract answering
        later done
    · rw [view.read_written written consistent answered, if_pos touches]
  rw [sameRows_written_iff written consistent answered]
  rcases packet.data.touches with ⟨id, touches, noFeedback, noRequest⟩ |
    ⟨key, touches, noAgent, noRequest⟩ |
    ⟨requestHash, touches, noAgent, noFeedback⟩
  · obtain ⟨before, stepped⟩ :=
      here (agentView runtime) id wellFormed.agentView touches
    have cell : after.agentCell id = tables.agentCell id ↔
        packet.data.Settled runtime (chain.map EventPacket.data) := by
      have first : tables.agentCell id = _ := before
      have second : after.agentCell id =
        stepAgent runtime (tables.agentCell id) packet.data := stepped
      rw [second, first]
      exact stepAgent_history_eq_iff wellFormed member touches
    simp [touches, noFeedback, noRequest, cell]
  · obtain ⟨before, stepped⟩ :=
      here (feedbackView runtime) key wellFormed.feedbackView touches
    have cell : after.feedbackCell key = tables.feedbackCell key := by
      have first : tables.feedbackCell key = _ := before
      have second : after.feedbackCell key =
        stepFeedback runtime (tables.feedbackCell key) packet.data := stepped
      rw [second, first]
      exact stepFeedback_history_eq wellFormed member touches
    have settled : packet.data.Settled runtime
        (chain.map EventPacket.data) := by
      cases data : packet.data <;> rw [data] at touches <;> trivial
    simp [touches, noAgent, noRequest, cell, settled]
  · obtain ⟨before, stepped⟩ :=
      here (requestView runtime) requestHash wellFormed.requestView touches
    have cell : after.validations requestHash =
        tables.validations requestHash ↔
          packet.data.Settled runtime (chain.map EventPacket.data) := by
      have first : tables.validations requestHash = _ := before
      have second : after.validations requestHash =
        stepValidation runtime (tables.validations requestHash)
          packet.data := stepped
      rw [second, first]
      exact stepValidation_history_eq_iff wellFormed member touches
    simp [touches, noAgent, noFeedback, cell]

end

end Stellar8004.Indexer
