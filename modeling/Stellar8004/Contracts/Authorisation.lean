import Stellar8004.Contracts.IdentityStorage
import Stellar8004.Contracts.ReputationStorage
import Stellar8004.Contracts.ValidationStorage

/-!
# Who manages an agent and who may review it

Three contracts decide separately whether an address manages an agent.  The
decisions agree, so over any run of the three contracts feedback comes from
addresses that do not manage the agent when they give it, and everything else
about the agent from addresses that do.
-/

namespace Stellar8004.Contracts

/-- The owner of an agent, its approved address or an operator of its
owner. -/
def Manages (identity : IdentityState) (approvals : Approvals)
    (caller : Address) (agent : Nat) : Prop :=
  ∃ owner, identity.owner agent = some owner ∧
    (caller = owner ∨ approvals.getApproved agent = some caller ∨
      approvals.isApprovedForAll owner caller = true)

/-- A call with the approvals that stand and the ledger it is made at. -/
structure ChainAction where
  approvals : Approvals
  ledger : Nat
  request : ContractCall

/-- What the identity registry answers the reputation registry. -/
def Chain.identityAnswers (chain : Chain) (approvals : Approvals) :
    IdentityAnswers :=
  { agentExists := chain.identity.agentExists
    isAuthorizedOrOwner := chain.identity.isAuthorizedOrOwner approvals }

/-- What the identity registry answers the validation registry. -/
def Chain.ownerAnswers (chain : Chain) (approvals : Approvals) :
    OwnerAnswers :=
  { findOwner := chain.identity.findOwner
    getApproved := approvals.getApproved
    isApprovedForAll := approvals.isApprovedForAll }

def Chain.step (chain : Chain) (action : ChainAction) : Option Chain :=
  (chain.call action.approvals action.ledger action.request).map Prod.fst

/-! ## The three checks -/

section

variable (identity : IdentityState) (approvals : Approvals)
  (caller : Address) (agent : Nat)

theorem isAuthorizedOrOwner_iff :
    identity.isAuthorizedOrOwner approvals caller agent = true ↔
      Manages identity approvals caller agent := by
  unfold IdentityState.isAuthorizedOrOwner IdentityState.findOwner Manages
  cases identity.owner agent with
  | none => simp
  | some owner => simp [or_assoc]

theorem requireOwnerOrApproved_iff :
    identity.requireOwnerOrApproved approvals caller agent = .ok () ↔
      Manages identity approvals caller agent := by
  unfold IdentityState.requireOwnerOrApproved IdentityState.findOwner Manages
  cases identity.owner agent with
  | none => simp
  | some owner =>
      simp only [Option.some.injEq, exists_eq_left']
      split
      · simp [*]
      · split
        · simp [*]
        · split <;> simp [*]

/-- The check inside `validation_request`. -/
theorem validation_requireOwnerOrApproved_iff :
    ValidationState.requireOwnerOrApproved
        { findOwner := identity.findOwner
          getApproved := approvals.getApproved
          isApprovedForAll := approvals.isApprovedForAll } caller agent =
        .ok () ↔
      Manages identity approvals caller agent := by
  simp only [ValidationState.requireOwnerOrApproved, IdentityState.findOwner,
    Manages]
  cases identity.owner agent with
  | none => simp
  | some owner =>
      simp only [Option.some.injEq, exists_eq_left']
      split
      · simp [*]
      · split
        · simp [*]
        · split <;> simp [*]

end

/-- The errors by which `validation_request` turns a caller away. -/
def Unauthorised {α : Type} (result : Except ValidationError α) : Prop :=
  result = .error .agentNotFound ∨ result = .error .notOwnerOrApproved

theorem unauthorised_of_required {identity : OwnerAnswers}
    {caller : Address} {agent : Nat}
    (refused : ValidationState.requireOwnerOrApproved identity caller agent ≠
      .ok ()) :
    Unauthorised
      (ValidationState.requireOwnerOrApproved identity caller agent) := by
  unfold ValidationState.requireOwnerOrApproved at refused ⊢
  split
  · exact .inl rfl
  · rename_i owner found
    simp only [found] at refused
    split
    · simp [*] at refused
    · split
      · simp [*] at refused
      · split
        · simp [*] at refused
        · exact .inr rfl

theorem addAgentValidation_error {state : ValidationState} {agentId : Nat}
    {requestHash : Vector UInt8 32} {failure : ValidationError}
    (failed : state.addAgentValidation agentId requestHash =
      .error failure) : failure = .counterOverflow := by
  unfold ValidationState.addAgentValidation at failed
  split at failed
  · cases failed
  · cases failed
    rfl

theorem addValidatorRequest_error {state : ValidationState}
    {validator : Address} {requestHash : Vector UInt8 32}
    {failure : ValidationError}
    (failed : state.addValidatorRequest validator requestHash =
      .error failure) : failure = .counterOverflow := by
  unfold ValidationState.addValidatorRequest at failed
  split at failed
  · cases failed
  · cases failed
    rfl

/-- Past its check, `validation_request` fails in two other ways only. -/
theorem validationRequest_error {state : ValidationState}
    {identity : OwnerAnswers} {sequence : Nat}
    {caller validatorAddress : Address} {agentId : UInt32}
    {requestUri : Bytes} {requestHash : Vector UInt8 32}
    {failure : ValidationError}
    (required : ValidationState.requireOwnerOrApproved identity caller
      agentId.toNat = .ok ())
    (failed : state.call identity sequence
      (.validationRequest caller validatorAddress agentId requestUri
        requestHash) = .error failure) :
    failure = .requestAlreadyExists ∨ failure = .counterOverflow := by
  simp only [ValidationState.call] at failed
  rw [required] at failed
  rcases bind_error_iff.mp failed with turnedAway | ⟨_, _, rest⟩
  · cases turnedAway
  split at rest
  · cases rest
    exact .inl rfl
  · right
    rcases bind_error_iff.mp rest with full | ⟨_, _, rest⟩
    · exact addAgentValidation_error full
    rcases bind_error_iff.mp rest with full | ⟨_, _, rest⟩
    · exact addValidatorRequest_error full
    · cases rest

/-- `validation_request` turns away exactly those its check turns away. -/
theorem validationRequest_unauthorised_iff (state : ValidationState)
    (identity : OwnerAnswers) (sequence : Nat)
    (caller validatorAddress : Address) (agentId : UInt32)
    (requestUri : Bytes) (requestHash : Vector UInt8 32) :
    Unauthorised (state.call identity sequence
        (.validationRequest caller validatorAddress agentId requestUri
          requestHash)) ↔
      ValidationState.requireOwnerOrApproved identity caller
        agentId.toNat ≠ .ok () := by
  constructor
  · rintro (isError | isError) required
    · rcases validationRequest_error required isError with same | same <;>
        cases same
    · rcases validationRequest_error required isError with same | same <;>
        cases same
  · intro refused
    simp only [ValidationState.call]
    rcases unauthorised_of_required refused with isError | isError
    · rw [isError]
      exact .inl rfl
    · rw [isError]
      exact .inr rfl

/-! ## Steps of the chain -/

/-- What one step does, by the contract that takes it. -/
inductive Chain.Takes (chain : Chain) (action : ChainAction) :
    Chain → Prop where
  | identity {request : IdentityCall} {after : IdentityState}
      (isCall : action.request = .identity request)
      (takes : chain.identity.Takes action.approvals request after) :
      Takes chain action { chain with identity := after }
  | reputation {request : ReputationCall} {after : ReputationState}
      (isCall : action.request = .reputation request)
      (takes : chain.reputation.Takes (chain.identityAnswers action.approvals)
        request after) :
      Takes chain action { chain with reputation := after }
  | validation {request : ValidationCall} {after : ValidationState}
      (isCall : action.request = .validation request)
      (takes : chain.validation.Takes (chain.ownerAnswers action.approvals)
        action.ledger request after) :
      Takes chain action { chain with validation := after }

theorem Chain.step_takes {chain after : Chain} {action : ChainAction}
    (taken : chain.step action = some after) : chain.Takes action after := by
  obtain ⟨⟨reached, events⟩, success, rfl⟩ := Option.map_eq_some_iff.mp taken
  cases isCall : action.request with
  | identity request =>
      simp only [isCall, call] at success
      split at success
      · cases success
      · rename_i result
        cases success
        exact .identity isCall (IdentityState.call_ok result).1
  | reputation request =>
      simp only [isCall, call] at success
      split at success
      · cases success
      · rename_i result
        cases success
        exact .reputation isCall (ReputationState.call_ok result).1
  | validation request =>
      simp only [isCall, call] at success
      split at success
      · cases success
      · rename_i result
        cases success
        exact .validation isCall (ValidationState.call_ok result).1

/-! ## Reviews -/

/-- An entry was given by a client that did not manage the agent, which
existed, and holds what the client gave. -/
def GivenByOutsider (history : List ChainAction) (agent : Nat)
    (client : Address) (index : Nat) (data : FeedbackData) : Prop :=
  ∃ before action after middle request original,
    history = before ++ action :: after ∧
    Accepted Chain.step .initial before middle ∧
    action.request = .reputation request ∧
    request.gives agent client = some original ∧
    data = { original with isRevoked := data.isRevoked } ∧
    index = middle.reputation.lastIndex agent client + 1 ∧
    (middle.identity.owner agent).isSome = true ∧
    ¬ Manages middle.identity action.approvals client agent

theorem GivenByOutsider.snoc {history : List ChainAction} {agent : Nat}
    {client : Address} {index : Nat} {data : FeedbackData}
    (given : GivenByOutsider history agent client index data)
    (action : ChainAction) (isRevoked : Bool) :
    GivenByOutsider (history ++ [action]) agent client index
      { data with isRevoked } := by
  obtain ⟨before, giver, after, middle, request, original, rfl, run, isCall,
    gives, isData, isIndex, living, outsider⟩ := given
  refine ⟨before, giver, after ++ [action], middle, request, original,
    by simp, run, isCall, gives, ?_, isIndex, living, outsider⟩
  rw [isData]

theorem feedback_outsider {history : List ChainAction} {chain : Chain}
    (run : Accepted Chain.step .initial history chain) :
    ∀ agent client index data,
      chain.reputation.feedback agent client index = some data →
        GivenByOutsider history agent client index data := by
  apply run.invariant fun history chain => ∀ agent client index data,
    chain.reputation.feedback agent client index = some data →
      GivenByOutsider history agent client index data
  · exact fun _ _ _ _ found => (nomatch found)
  · intro history chain action after earlier given taken agent client index
      data found
    cases Chain.step_takes taken with
    | identity isCall takes =>
        exact (given agent client index data found).snoc action data.isRevoked
    | validation isCall takes =>
        exact (given agent client index data found).snoc action data.isRevoked
    | reputation isCall takes =>
        cases takes with
        | giveFeedback caller agentId value valueDecimals tag1 tag2 endpoint
            feedbackUri feedbackHash scale range living outsider ensured
            room =>
            have same := (ReputationState.ensureClient_ok ensured).1
            simp only [ReputationState.setFeedback_feedback] at found
            split at found
            · rename_i mine
              obtain ⟨rfl, rfl, rfl⟩ := mine
              cases found
              refine ⟨history, action, [], chain, _,
                ⟨value, valueDecimals.toNat, false, tag1, tag2⟩, rfl, earlier,
                isCall, ?_, rfl, rfl, living, fun manages => ?_⟩
              · simp [ReputationCall.gives]
              · rw [← isAuthorizedOrOwner_iff] at manages
                exact Bool.false_ne_true (outsider.symm.trans manages)
            · simp only [ReputationState.setLastIndex, same] at found
              exact (given agent client index data found).snoc action
                data.isRevoked
        | revokeFeedback caller agentId feedbackIndex isEntry standing =>
            simp only [ReputationState.setFeedback_feedback] at found
            split at found
            · rename_i mine
              obtain ⟨rfl, rfl, rfl⟩ := mine
              cases found
              exact (given _ _ _ _ isEntry).snoc action true
            · exact (given agent client index data found).snoc action
                data.isRevoked
        | appendResponse caller agentId clientAddress feedbackIndex
            responseUri responseHash isEntry =>
            exact (given agent client index data found).snoc action
              data.isRevoked

/-! ## Management -/

/-- Who makes a call. -/
def IdentityCall.caller : IdentityCall → Address
  | register caller => caller
  | registerWithUri caller _ => caller
  | registerFull caller _ _ => caller
  | setAgentUri caller _ _ => caller
  | setMetadata caller _ _ _ => caller
  | setAgentWallet caller _ _ => caller
  | unsetAgentWallet caller _ => caller
  | transfer «from» _ _ => «from»
  | transferFrom spender _ _ _ => spender

/-- A call registers a fresh agent for its caller, transfers its agent, or is
made by one who manages the agent and leaves its owner. -/
theorem IdentityState.Takes.authorised {state after : IdentityState}
    {approvals : Approvals} {request : IdentityCall}
    (takes : state.Takes approvals request after) :
    (request.subject state.nextTokenId = state.nextTokenId ∧
      after.owner state.nextTokenId = some request.caller) ∨
    request.transfers (request.subject state.nextTokenId) = true ∨
    (Manages state approvals request.caller
        (request.subject state.nextTokenId) ∧
      after.owner = state.owner) := by
  have owned : ∀ caller agentUri entries,
      (state.registered caller agentUri entries).owner state.nextTokenId =
        some caller := by
    intro caller agentUri entries
    rw [(state.registered_keeps caller agentUri entries).1,
      Function.update_self]
  cases takes with
  | register caller room => exact .inl ⟨rfl, owned _ _ _⟩
  | registerWithUri caller agentUri room => exact .inl ⟨rfl, owned _ _ _⟩
  | registerFull caller agentUri metadata few storable room =>
      exact .inl ⟨rfl, owned _ _ _⟩
  | setAgentUri caller agentId newUri required =>
      exact .inr (.inr ⟨(requireOwnerOrApproved_iff ..).mp required, rfl⟩)
  | setMetadata caller agentId key value storable required room =>
      exact .inr (.inr ⟨(requireOwnerOrApproved_iff ..).mp required,
        (state.setMetadata_keeps agentId.toNat key value).1⟩)
  | setAgentWallet caller agentId newWallet required =>
      exact .inr (.inr ⟨(requireOwnerOrApproved_iff ..).mp required, rfl⟩)
  | unsetAgentWallet caller agentId required =>
      exact .inr (.inr ⟨(requireOwnerOrApproved_iff ..).mp required, rfl⟩)
  | transfer «from» «to» tokenId owned =>
      exact .inr (.inl (by
        simp [IdentityCall.transfers, IdentityCall.subject]))
  | transferFrom spender «from» «to» tokenId owned approved =>
      exact .inr (.inl (by
        simp [IdentityCall.transfers, IdentityCall.subject]))

theorem Chain.identity_consistent {history : List ChainAction}
    {chain : Chain} (run : Accepted Chain.step .initial history chain) :
    chain.identity.Consistent := by
  apply run.invariant fun _ chain => chain.identity.Consistent
  · exact .initial
  · intro history chain action after earlier consistent taken
    cases Chain.step_takes taken with
    | identity isCall takes => exact consistent.takes takes
    | reputation isCall takes => exact consistent
    | validation isCall takes => exact consistent

/-- The URI, the metadata and the wallet of an agent. -/
def IdentityState.profile (state : IdentityState) (agent : Nat) :
    Option Bytes × (Bytes → Option Bytes) × Option Address :=
  (state.agentUri agent, state.metadata agent, state.agentWallet agent)

/-- The profile of an agent changes only by a transfer, by one who manages it,
or by the registration that makes the caller its owner. -/
theorem profile_changed_by_manager {history : List ChainAction}
    {chain after : Chain} {action : ChainAction}
    (run : Accepted Chain.step .initial history chain)
    (taken : chain.step action = some after) {agent : Nat}
    (changed : after.identity.profile agent ≠ chain.identity.profile agent) :
    ∃ request, action.request = .identity request ∧
      (request.transfers agent = true ∨
        Manages after.identity action.approvals request.caller agent ∧
          (chain.identity.owner agent = none ∨
            Manages chain.identity action.approvals request.caller agent)) := by
  have consistent := Chain.identity_consistent run
  cases Chain.step_takes taken with
  | reputation isCall takes => exact absurd rfl changed
  | validation isCall takes => exact absurd rfl changed
  | @identity request state isCall takes =>
      refine ⟨request, isCall, ?_⟩
      by_cases mine : agent = request.subject chain.identity.nextTokenId
      · subst mine
        rcases takes.authorised with
          ⟨fresh, owned⟩ | transfers | ⟨manages, sameOwner⟩
        · right
          rw [fresh]
          refine ⟨⟨request.caller, owned, .inl rfl⟩, .inl ?_⟩
          rw [← Option.not_isSome_iff_eq_none, consistent.minted]
          exact Nat.lt_irrefl _
        · exact .inl transfers
        · obtain ⟨owner, isOwner, reason⟩ := manages
          exact .inr ⟨⟨owner, sameOwner ▸ isOwner, reason⟩,
            .inr ⟨owner, isOwner, reason⟩⟩
      · have same := takes.others mine
        simp only [IdentityState.entriesOf, Prod.mk.injEq] at same
        apply absurd _ changed
        simp only [IdentityState.profile, same]

theorem validation_requested_by_manager {chain after : Chain}
    {action : ChainAction} (taken : chain.step action = some after)
    {caller validatorAddress : Address} {agentId : UInt32}
    {requestUri : Bytes} {requestHash : Vector UInt8 32}
    (isRequest : action.request = .validation (.validationRequest caller
      validatorAddress agentId requestUri requestHash)) :
    Manages chain.identity action.approvals caller agentId.toNat := by
  cases Chain.step_takes taken with
  | identity isCall takes => rw [isCall] at isRequest; cases isRequest
  | reputation isCall takes => rw [isCall] at isRequest; cases isRequest
  | validation isCall takes =>
      rw [isCall] at isRequest
      cases isRequest
      cases takes with
      | validationRequest caller validatorAddress agentId requestUri
          requestHash required fresh =>
          exact (validation_requireOwnerOrApproved_iff ..).mp required

/-- The three checks agree on every identity state.  Hence over every run of
the three contracts each stored entry was given by one who did not manage the
agent, while profiles and validation requests come from those who did. -/
theorem managing_excludes_reviewing :
    (∀ (identity : IdentityState) (approvals : Approvals) (caller : Address)
      (agentId : UInt32),
      (identity.isAuthorizedOrOwner approvals caller agentId.toNat = true ↔
        identity.requireOwnerOrApproved approvals caller agentId.toNat =
          .ok ()) ∧
      ∀ (validation : ValidationState) (ledger : Nat)
        (validatorAddress : Address) (requestUri : Bytes)
        (requestHash : Vector UInt8 32),
        identity.isAuthorizedOrOwner approvals caller agentId.toNat =
            true ↔
          ¬ Unauthorised (validation.call
            { findOwner := identity.findOwner
              getApproved := approvals.getApproved
              isApprovedForAll := approvals.isApprovedForAll } ledger
            (.validationRequest caller validatorAddress agentId requestUri
              requestHash))) ∧
    ∀ history chain, Accepted Chain.step .initial history chain →
      (∀ agent client index data,
        chain.reputation.feedback agent client index = some data →
          GivenByOutsider history agent client index data) ∧
      ∀ action after, chain.step action = some after →
        (∀ agent,
          after.identity.profile agent ≠ chain.identity.profile agent →
          ∃ request, action.request = .identity request ∧
            (request.transfers agent = true ∨
              Manages after.identity action.approvals request.caller agent ∧
                (chain.identity.owner agent = none ∨
                  Manages chain.identity action.approvals request.caller
                    agent))) ∧
        ∀ caller validatorAddress agentId requestUri requestHash,
          action.request = .validation (.validationRequest caller
            validatorAddress agentId requestUri requestHash) →
          Manages chain.identity action.approvals caller agentId.toNat := by
  constructor
  · intro identity approvals caller agentId
    refine ⟨?_, fun validation ledger validatorAddress requestUri
      requestHash => ?_⟩
    · rw [isAuthorizedOrOwner_iff, requireOwnerOrApproved_iff]
    · rw [validationRequest_unauthorised_iff, not_not,
        validation_requireOwnerOrApproved_iff, isAuthorizedOrOwner_iff]
  · intro history chain run
    refine ⟨feedback_outsider run, fun action after taken => ⟨?_, ?_⟩⟩
    · exact fun agent changed => profile_changed_by_manager run taken changed
    · exact fun caller validatorAddress agentId requestUri requestHash
        isRequest => validation_requested_by_manager taken isRequest

/-- An agent is registered and reviewed. -/
def reviewedHistory : List ChainAction :=
  [⟨noApprovals, 1, .identity (.register firstOwner)⟩,
    ⟨noApprovals, 2, .reputation (.giveFeedback secondOwner 0 5 0 ⟨#[]⟩ ⟨#[]⟩
      ⟨#[]⟩ ⟨#[]⟩ (Vector.replicate 32 0))⟩]

theorem managing_excludes_reviewing_reviewed :
    ∃ chain, Accepted Chain.step .initial reviewedHistory chain ∧
      GivenByOutsider reviewedHistory 0 secondOwner 1
        { value := 5, valueDecimals := 0, isRevoked := false
          tag1 := ⟨#[]⟩, tag2 := ⟨#[]⟩ } := by
  have run : Accepted Chain.step .initial reviewedHistory _ :=
    .took (.took .start rfl) rfl
  refine ⟨_, run, ?_⟩
  apply (managing_excludes_reviewing.2 _ _ run).1
  rfl

end Stellar8004.Contracts
