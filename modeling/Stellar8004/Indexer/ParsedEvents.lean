import Stellar8004.Indexer.Constraints

/-!
# What parsing guarantees

Every event a parser returns passes the CHECKs of its statement, belongs to
the contract it was parsed for, and carries the raw event's ledger, closing
time, transaction and identifier.
-/

namespace Stellar8004.Indexer

private theorem takeWhile_length_le {α : Type} (keep : α → Bool)
    (items : List α) : (items.takeWhile keep).length ≤ items.length :=
  (List.takeWhile_prefix keep).length_le

theorem length_le_jsLength (text : String) :
    text.toList.length ≤ jsLength text := by
  unfold jsLength
  generalize text.toList = chars
  induction chars with
  | nil => exact Nat.le_refl 0
  | cons char chars induction =>
      have unit : 1 ≤ if char.toNat < 0x10000 then 1 else 2 := by
        split <;> decide
      simp only [List.length_cons, List.map_cons, List.sum_cons]
      omega

/-- Addresses the indexer accepts fit the columns that hold them. -/
theorem sqlLength_le_of_valid {address : String}
    (valid : isValidStellarAddress address = true) :
    sqlLength address ≤ 256 := by
  have units : jsLength address = 56 := by
    unfold isValidStellarAddress at valid
    split at valid
    · cases valid
    · rename_i same
      exact Decidable.not_not.mp same
  have shorter : sqlLength address ≤ address.toList.length :=
    takeWhile_length_le _ _
  have chars := length_le_jsLength address
  omega

/-- What holds of an event the parser of a contract returns. -/
structure ParsedEvent.ReadFrom (event : ParsedEvent)
    (contract : ContractName) (raw : EventResponse) : Prop where
  checked : event.Checked
  kind : event.contract = contract
  base : event.base = raw.base
  eventId : ∀ e, event = .responseAppended e → e.eventId = raw.id

theorem parseTransfer_readFrom {raw : EventResponse} {event : ParsedEvent}
    (parsed : parseTransfer raw = .ok (some event)) : event.ReadFrom .identity raw := by
  unfold parseTransfer at parsed
  simp only [bind, Except.bind, pure, Except.pure] at parsed
  split at parsed
  · cases parsed
  split at parsed
  · cases parsed
  rename_i valid
  split at parsed
  · cases parsed
  split at parsed
  · cases parsed
  cases parsed
  simp only [Bool.or_eq_true, Bool.not_eq_true', not_or, Bool.not_eq_false] at valid
  exact ⟨sqlLength_le_of_valid valid.2, rfl, rfl, fun _ same => by cases same⟩

theorem parseMetadataSet_readFrom {raw : EventResponse} {event : ParsedEvent}
    {agentId : Nat}
    (parsed : parseMetadataSet raw agentId = .ok (some event)) :
    event.ReadFrom .identity raw := by
  unfold parseMetadataSet at parsed
  simp only [bind, Except.bind, pure, Except.pure] at parsed
  split at parsed
  · cases parsed
  split at parsed
  · cases parsed
  split at parsed
  · split at parsed
    · cases parsed
    split at parsed
    · cases parsed
      exact ⟨trivial, rfl, rfl, fun _ same => by cases same⟩
    split at parsed
    · cases parsed
    cases parsed
    rename_i valid
    exact ⟨sqlLength_le_of_valid (by simpa using valid), rfl, rfl, fun _ same => by cases same⟩
  · split at parsed
    · cases parsed
    cases parsed
    exact ⟨trivial, rfl, rfl, fun _ same => by cases same⟩

theorem parseIdentityEventInner_readFrom {raw : EventResponse} {event : ParsedEvent}
    (parsed : parseIdentityEventInner raw = .ok (some event)) :
    event.ReadFrom .identity raw := by
  unfold parseIdentityEventInner at parsed
  simp only [bind, Except.bind, pure, Except.pure] at parsed
  split at parsed
  · cases parsed
  split at parsed
  · exact parseTransfer_readFrom parsed
  split at parsed
  · cases parsed
  split at parsed
  · cases parsed
  split at parsed
  · split at parsed
    · cases parsed
    split at parsed
    · cases parsed
    rename_i valid
    split at parsed
    · cases parsed
    cases parsed
    exact ⟨sqlLength_le_of_valid (by simpa using valid), rfl, rfl,
      fun _ same => by cases same⟩
  · split at parsed
    · cases parsed
    split at parsed
    · cases parsed
    split at parsed
    · cases parsed
    cases parsed
    exact ⟨trivial, rfl, rfl, fun _ same => by cases same⟩
  · exact parseMetadataSet_readFrom parsed
  · split at parsed
    · cases parsed
    split at parsed
    · cases parsed
    rename_i valid
    cases parsed
    exact ⟨sqlLength_le_of_valid (by simpa using valid), rfl, rfl,
      fun _ same => by cases same⟩
  · cases parsed
    exact ⟨trivial, rfl, rfl, fun _ same => by cases same⟩
  · cases parsed

/-- A positive integer stays positive as a natural number. -/
private theorem toNat_pos {index : Int} (positive : ¬ index < 1) :
    1 ≤ index.toNat := by
  omega

theorem parseNewFeedback_readFrom {raw : EventResponse} {event : ParsedEvent}
    {agentId : Nat} {clientAddress : String}
    (client : isValidStellarAddress clientAddress = true)
    (parsed : parseNewFeedback raw agentId clientAddress =
      .ok (some event)) : event.ReadFrom .reputation raw := by
  unfold parseNewFeedback at parsed
  simp only [bind, Except.bind, pure, Except.pure] at parsed
  split at parsed
  · cases parsed
  split at parsed
  · cases parsed
  split at parsed
  · cases parsed
  split at parsed
  · cases parsed
  rename_i positive
  split at parsed
  · cases parsed
  split at parsed
  · cases parsed
  rename_i scale
  split at parsed
  · cases parsed
  split at parsed
  · cases parsed
  split at parsed
  · cases parsed
  split at parsed
  · cases parsed
  cases parsed
  simp only [Bool.or_eq_true, decide_eq_true_eq, not_or] at scale
  refine ⟨⟨sqlLength_le_of_valid client, toNat_pos positive, ?_⟩, rfl, rfl,
    fun _ same => by cases same⟩
  simp only []
  omega

theorem parseFeedbackRevoked_readFrom {raw : EventResponse}
    {event : ParsedEvent} {agentId : Nat} {clientAddress : String}
    (parsed : parseFeedbackRevoked raw agentId clientAddress =
      .ok (some event)) : event.ReadFrom .reputation raw := by
  unfold parseFeedbackRevoked at parsed
  simp only [bind, Except.bind, pure, Except.pure] at parsed
  split at parsed
  · cases parsed
  split at parsed
  · cases parsed
  split at parsed
  · cases parsed
  cases parsed
  exact ⟨trivial, rfl, rfl, fun _ same => by cases same⟩

theorem parseResponseAppended_readFrom {raw : EventResponse}
    {event : ParsedEvent} {agentId : Nat} {clientAddress : String}
    (client : isValidStellarAddress clientAddress = true)
    (parsed : parseResponseAppended raw agentId clientAddress =
      .ok (some event)) : event.ReadFrom .reputation raw := by
  unfold parseResponseAppended at parsed
  simp only [bind, Except.bind, pure, Except.pure] at parsed
  split at parsed
  · cases parsed
  split at parsed
  · cases parsed
  rename_i valid
  split at parsed
  · cases parsed
  split at parsed
  · cases parsed
  split at parsed
  · cases parsed
  cases parsed
  refine ⟨⟨sqlLength_le_of_valid client,
    sqlLength_le_of_valid (by simpa using valid)⟩, rfl, rfl, ?_⟩
  intro e same
  cases same
  rfl

theorem parseReputationEventInner_readFrom {raw : EventResponse}
    {event : ParsedEvent}
    (parsed : parseReputationEventInner raw = .ok (some event)) :
    event.ReadFrom .reputation raw := by
  unfold parseReputationEventInner at parsed
  simp only [bind, Except.bind, pure, Except.pure] at parsed
  split at parsed
  · cases parsed
  split at parsed
  · cases parsed
  split at parsed
  · cases parsed
  split at parsed
  · cases parsed
  rename_i valid
  have client : isValidStellarAddress (raw.nativeTopic 2).toJsString = true :=
    by simpa using valid
  split at parsed
  · exact parseNewFeedback_readFrom client parsed
  · exact parseFeedbackRevoked_readFrom parsed
  · exact parseResponseAppended_readFrom client parsed
  · cases parsed

theorem parseValidationRequest_readFrom {raw : EventResponse}
    {event : ParsedEvent} {agentId : Nat}
    {validatorAddress requestHash : String}
    (validator : isValidStellarAddress validatorAddress = true)
    (parsed : parseValidationRequest raw agentId validatorAddress
      requestHash = .ok (some event)) : event.ReadFrom .validation raw := by
  unfold parseValidationRequest at parsed
  simp only [bind, Except.bind, pure, Except.pure] at parsed
  split at parsed
  · split at parsed
    · cases parsed
    cases parsed
    exact ⟨sqlLength_le_of_valid validator, rfl, rfl, fun _ same => by cases same⟩
  · cases parsed

theorem parseValidationResponse_readFrom {raw : EventResponse}
    {event : ParsedEvent} {agentId : Nat}
    {validatorAddress requestHash : String}
    (parsed : parseValidationResponse raw agentId validatorAddress
      requestHash = .ok (some event)) : event.ReadFrom .validation raw := by
  unfold parseValidationResponse at parsed
  simp only [bind, Except.bind, pure, Except.pure] at parsed
  split at parsed
  · cases parsed
  · cases parsed
  split at parsed
  · cases parsed
  split at parsed
  · cases parsed
  rename_i range
  split at parsed
  · cases parsed
  split at parsed
  · cases parsed
  cases parsed
  simp only [Bool.or_eq_true, decide_eq_true_eq, not_or] at range
  refine ⟨?_, rfl, rfl, fun _ same => by cases same⟩
  simp only [ParsedEvent.Checked]
  omega

theorem parseValidationEventInner_readFrom {raw : EventResponse}
    {event : ParsedEvent}
    (parsed : parseValidationEventInner raw = .ok (some event)) :
    event.ReadFrom .validation raw := by
  unfold parseValidationEventInner at parsed
  simp only [bind, Except.bind, pure, Except.pure] at parsed
  split at parsed
  · cases parsed
  split at parsed
  · cases parsed
  rename_i valid
  have validator : isValidStellarAddress
      (raw.nativeTopic 1).toJsString = true := by simpa using valid
  split at parsed
  · cases parsed
  split at parsed
  · cases parsed
  split at parsed
  · cases parsed
  split at parsed
  · exact parseValidationRequest_readFrom validator parsed
  · exact parseValidationResponse_readFrom parsed
  · cases parsed

private theorem caught_some {inner : EventResponse →
    Except String (Option ParsedEvent)} {raw : EventResponse}
    {event : ParsedEvent} (parsed : caught inner raw = some event) :
    inner raw = .ok (some event) := by
  unfold caught at parsed
  split at parsed
  · rename_i result same
    rw [same, parsed]
  · cases parsed

private theorem interpretEvent_parsed {raw : EventResponse}
    {names : List String} {parse : EventResponse → Option ParsedEvent}
    {event : ParsedEvent}
    (parsed : interpretEvent raw names parse = .parsed event) :
    parse raw = some event := by
  unfold interpretEvent at parsed
  split at parsed
  · cases parsed
  split at parsed
  · cases parsed
    assumption
  split at parsed
  · cases parsed
  split at parsed
  · split at parsed <;> cases parsed
  · cases parsed

/-- An accepted event is what the contract's parser returns. -/
theorem parsed_of_interpret {contract : ContractName} {raw : EventResponse}
    {event : ParsedEvent} (parsed : interpret contract raw = .parsed event) :
    (match contract with
      | .identity => parseIdentityEventInner raw
      | .reputation => parseReputationEventInner raw
      | .validation => parseValidationEventInner raw) = .ok (some event) := by
  cases contract <;> exact caught_some (interpretEvent_parsed parsed)

/-- Every event the interpreter accepts passes the CHECKs of its statement
and keeps the raw event's ledger, closing time, transaction and identifier. -/
theorem interpret_readFrom {contract : ContractName} {raw : EventResponse}
    {event : ParsedEvent} (parsed : interpret contract raw = .parsed event) :
    event.ReadFrom contract raw := by
  have inner := parsed_of_interpret parsed
  cases contract with
  | identity => exact parseIdentityEventInner_readFrom inner
  | reputation => exact parseReputationEventInner_readFrom inner
  | validation => exact parseValidationEventInner_readFrom inner

end Stellar8004.Indexer
