import Stellar8004.Contracts.Runs
import Stellar8004.Contracts.Validation
import Stellar8004.Library.Accepted
import Stellar8004.Library.IndexedList

/-!
# What the validation registry stores

A request is stored once under its hash and listed twice, for its agent and
for its validator.  After every run the three views agree, and a status only
ever changes by a response of its validator.
-/

namespace Stellar8004.Contracts

/-- A call, the ledger it is made at and what the identity registry answers
during it. -/
structure ValidationAction where
  identity : OwnerAnswers
  sequence : Nat
  request : ValidationCall

/-- A request as it is listed. -/
structure Listing where
  requestHash : Vector UInt8 32
  validatorAddress : Address
  agentId : Nat
  deriving DecidableEq

def ValidationCall.listing : ValidationCall → Option Listing
  | validationRequest _ validatorAddress agentId _ requestHash =>
      some { requestHash, validatorAddress, agentId := agentId.toNat }
  | validationResponse .. => none

/-- The requests of a history, in order. -/
def listings (history : List ValidationAction) : List Listing :=
  history.filterMap fun action => action.request.listing

/-- The hashes requested for an agent, in order. -/
def agentRequests (history : List ValidationAction) (agent : Nat) :
    List (Vector UInt8 32) :=
  ((listings history).filter (·.agentId = agent)).map Listing.requestHash

/-- The hashes requested of a validator, in order. -/
def validatorRequests (history : List ValidationAction)
    (validator : Address) : List (Vector UInt8 32) :=
  ((listings history).filter (·.validatorAddress = validator)).map
    Listing.requestHash

def ValidationStatus.listing (status : ValidationStatus)
    (requestHash : Vector UInt8 32) : Listing :=
  { requestHash, validatorAddress := status.validatorAddress
    agentId := status.agentId }

namespace ValidationState

def step (state : ValidationState) (action : ValidationAction) :
    Option ValidationState :=
  match state.call action.identity action.sequence action.request with
  | .ok (after, _) => some after
  | .error _ => none

/-! ## What each call does -/

theorem step_takes {state after : ValidationState}
    {action : ValidationAction} (taken : state.step action = some after) :
    state.Takes action.identity action.sequence action.request after := by
  unfold step at taken
  split at taken
  · rename_i success
    cases taken
    exact (call_ok success).1
  · cases taken

/-- The counters of the two lists fit a `u32`. -/
structure Counted (state : ValidationState) : Prop where
  agents : ∀ agent, state.agentValidationCount agent < 2 ^ 32
  validators : ∀ validator, state.validatorRequestCount validator < 2 ^ 32

/-- A counter is raised where there is room. -/
theorem Counted.addAgentValidation {state after : ValidationState}
    {agentId : Nat} {requestHash : Vector UInt8 32} (counted : state.Counted)
    (added : state.addAgentValidation agentId requestHash = .ok after) :
    after.Counted := by
  unfold ValidationState.addAgentValidation at added
  split at added
  · rename_i room
    cases added
    refine ⟨fun agent => ?_, counted.validators⟩
    dsimp only
    rw [Function.update_apply]
    split
    · exact room
    · exact counted.agents agent
  · cases added

theorem Counted.addValidatorRequest {state after : ValidationState}
    {validator : Address} {requestHash : Vector UInt8 32}
    (counted : state.Counted)
    (added : state.addValidatorRequest validator requestHash = .ok after) :
    after.Counted := by
  unfold ValidationState.addValidatorRequest at added
  split at added
  · rename_i room
    cases added
    refine ⟨counted.agents, fun other => ?_⟩
    dsimp only
    rw [Function.update_apply]
    split
    · exact room
    · exact counted.validators other
  · cases added

theorem call_counted {state after : ValidationState}
    {identity : OwnerAnswers} {sequence : Nat} {request : ValidationCall}
    {events : List ValidationEvent} (counted : state.Counted)
    (success : state.call identity sequence request = .ok (after, events)) :
    after.Counted := by
  cases request with
  | validationRequest caller validatorAddress agentId requestUri
      requestHash =>
      obtain ⟨_, _, rest⟩ := bind_ok_iff.mp success
      split at rest
      · cases rest
      obtain ⟨counts, added, rest⟩ := bind_ok_iff.mp rest
      obtain ⟨listed, recorded, rest⟩ := bind_ok_iff.mp rest
      cases rest
      have stored : ∀ status,
          (state.setValidation requestHash status).Counted :=
        fun _ => ⟨counted.agents, counted.validators⟩
      exact ((stored _).addAgentValidation added).addValidatorRequest recorded
  | validationResponse caller requestHash response responseUri responseHash
      tag =>
      simp only [call] at success
      repeat' split at success
      all_goals cases success
      exact ⟨counted.agents, counted.validators⟩

theorem Counted.run {history : List ValidationAction}
    {state : ValidationState}
    (run : Accepted step .initial history state) : state.Counted := by
  apply run.invariant fun _ state => state.Counted
  · exact ⟨fun _ => Nat.two_pow_pos 32, fun _ => Nat.two_pow_pos 32⟩
  · intro actions state action after _ counted taken
    unfold step at taken
    split at taken
    · rename_i success
      cases taken
      exact call_counted counted success
    · cases taken

/-! ## The invariant -/

/-- What the store holds after a history of successful calls. -/
structure Remembers (history : List ValidationAction)
    (state : ValidationState) : Prop where
  listed : ∀ listing, listing ∈ listings history ↔
    ∃ status, state.validation listing.requestHash = some status ∧
      status.listing listing.requestHash = listing
  distinct : ((listings history).map Listing.requestHash).Nodup
  agents : ∀ agent, IndexedList (state.agentValidationCount agent)
    (state.agentValidationAt agent) (agentRequests history agent)
  validators : ∀ validator,
    IndexedList (state.validatorRequestCount validator)
      (state.validatorRequestAt validator)
      (validatorRequests history validator)
  small : ∀ hash status, state.validation hash = some status →
    status.response ≤ 100
  unanswered : ∀ hash status, state.validation hash = some status →
    status.hasResponse = false → status = .requested
      status.validatorAddress status.agentId status.lastUpdate

namespace Remembers

variable {history : List ValidationAction} {state : ValidationState}
  {action : ValidationAction}

theorem initial : Remembers [] ValidationState.initial where
  listed listing := by simp [listings, ValidationState.initial]
  distinct := .nil
  agents _ := .empty
  validators _ := .empty
  small _ _ nothing := nomatch nothing
  unanswered _ _ nothing := nomatch nothing

theorem listings_snoc (history : List ValidationAction)
    (action : ValidationAction) :
    listings (history ++ [action]) =
      listings history ++ action.request.listing.toList := by
  simp only [listings, List.filterMap_append]
  cases isListing : action.request.listing <;> simp [isListing]

/-- A selection of the listings grows by a new listing it selects. -/
private theorem selected_snoc (select : Listing → Bool)
    (entries : List Listing) (entry : Listing) :
    ((entries ++ [entry]).filter select).map Listing.requestHash =
      if select entry then
        (entries.filter select).map Listing.requestHash ++
          [entry.requestHash]
      else (entries.filter select).map Listing.requestHash := by
  rw [List.filter_append, List.map_append]
  cases selected : select entry <;> simp [selected]

/-- A hash that is not stored is not listed. -/
theorem unlisted (remembers : Remembers history state)
    {hash : Vector UInt8 32} (fresh : state.validation hash = none) :
    hash ∉ (listings history).map Listing.requestHash := by
  intro member
  obtain ⟨listing, isListed, rfl⟩ := List.mem_map.mp member
  obtain ⟨status, found, _⟩ := (remembers.listed listing).mp isListed
  rw [fresh] at found
  cases found

theorem validationRequest (remembers : Remembers history state)
    {caller validatorAddress : Address} {agentId : UInt32}
    {requestUri : Bytes} {requestHash : Vector UInt8 32}
    {after : ValidationState} (sequence : Nat)
    (isCall : action.request = .validationRequest caller validatorAddress
      agentId requestUri requestHash)
    (fresh : state.validation requestHash = none)
    (stored : after.validation = Function.update state.validation requestHash
      (some (.requested validatorAddress agentId.toNat sequence)))
    (agentCount : after.agentValidationCount = Function.update
      state.agentValidationCount agentId.toNat
      (state.agentValidationCount agentId.toNat + 1))
    (agentAt : after.agentValidationAt = Function.update
      state.agentValidationAt agentId.toNat
      (Function.update (state.agentValidationAt agentId.toNat)
        (state.agentValidationCount agentId.toNat) (some requestHash)))
    (validatorCount : after.validatorRequestCount = Function.update
      state.validatorRequestCount validatorAddress
      (state.validatorRequestCount validatorAddress + 1))
    (validatorAt : after.validatorRequestAt = Function.update
      state.validatorRequestAt validatorAddress
      (Function.update (state.validatorRequestAt validatorAddress)
        (state.validatorRequestCount validatorAddress)
        (some requestHash))) :
    Remembers (history ++ [action]) after := by
  have grown : listings (history ++ [action]) = listings history ++
      [{ requestHash, validatorAddress, agentId := agentId.toNat }] := by
    rw [listings_snoc, isCall]
    rfl
  have unlisted := remembers.unlisted fresh
  constructor
  · intro listing
    rw [grown, List.mem_append, List.mem_singleton, stored]
    by_cases mine : listing.requestHash = requestHash
    · have old : listing ∉ listings history := fun isListed =>
        unlisted (mine ▸ List.mem_map_of_mem isListed)
      rw [mine, Function.update_self]
      constructor
      · rintro (isListed | rfl)
        · exact absurd isListed old
        · exact ⟨_, rfl, rfl⟩
      · rintro ⟨status, isStatus, same⟩
        rw [← Option.some.inj isStatus] at same
        exact .inr same.symm
    · rw [Function.update_of_ne mine, remembers.listed, or_iff_left]
      rintro rfl
      exact mine rfl
  · rw [grown, List.map_append, List.nodup_append]
    refine ⟨remembers.distinct, List.nodup_singleton _, ?_⟩
    rintro old isOld new isNew rfl
    rw [List.map_singleton, List.mem_singleton] at isNew
    rw [isNew] at isOld
    exact unlisted isOld
  · intro agent
    have before := remembers.agents agent
    rw [agentCount, agentAt]
    unfold agentRequests at before ⊢
    rw [grown, selected_snoc]
    by_cases mine : agent = agentId.toNat
    · subst mine
      simp only [decide_true, if_true, Function.update_self]
      exact before.push requestHash
    · rw [Function.update_of_ne mine, Function.update_of_ne mine,
        if_neg (by simpa using fun same => mine same.symm)]
      exact before
  · intro validator
    have before := remembers.validators validator
    rw [validatorCount, validatorAt]
    unfold validatorRequests at before ⊢
    rw [grown, selected_snoc]
    by_cases mine : validator = validatorAddress
    · subst mine
      simp only [decide_true, if_true, Function.update_self]
      exact before.push requestHash
    · rw [Function.update_of_ne mine, Function.update_of_ne mine,
        if_neg (by simpa using fun same => mine same.symm)]
      exact before
  · intro hash status found
    rw [stored] at found
    by_cases mine : hash = requestHash
    · rw [mine, Function.update_self] at found
      cases found
      exact Nat.zero_le 100
    · rw [Function.update_of_ne mine] at found
      exact remembers.small hash status found
  · intro hash status found waits
    rw [stored] at found
    by_cases mine : hash = requestHash
    · rw [mine, Function.update_self] at found
      cases found
      rfl
    · rw [Function.update_of_ne mine] at found
      exact remembers.unanswered hash status found waits

theorem validationResponse (remembers : Remembers history state)
    {status : ValidationStatus} {caller : Address}
    {requestHash : Vector UInt8 32} {response : UInt32} {responseUri : Bytes}
    {responseHash : Vector UInt8 32} {tag : Bytes} (sequence : Nat)
    (isCall : action.request = .validationResponse caller requestHash
      response responseUri responseHash tag)
    (small : response.toNat ≤ 100)
    (found : state.validation requestHash = some status) :
    Remembers (history ++ [action])
      (state.setValidation requestHash
        { status with
          response := response.toNat, responseHash, tag
          lastUpdate := sequence, hasResponse := true }) := by
  have same : listings (history ++ [action]) = listings history := by
    rw [listings_snoc, isCall]
    exact List.append_nil _
  constructor
  · intro listing
    rw [same, remembers.listed]
    simp only [setValidation]
    by_cases mine : listing.requestHash = requestHash
    · rw [mine, Function.update_self, found]
      simp [ValidationStatus.listing]
    · rw [Function.update_of_ne mine]
  · rw [same]
    exact remembers.distinct
  · intro agent
    rw [agentRequests, same]
    exact remembers.agents agent
  · intro validator
    rw [validatorRequests, same]
    exact remembers.validators validator
  · intro hash updated stored
    simp only [setValidation] at stored
    by_cases mine : hash = requestHash
    · rw [mine, Function.update_self] at stored
      cases stored
      exact small
    · rw [Function.update_of_ne mine] at stored
      exact remembers.small hash updated stored
  · intro hash updated stored waits
    simp only [setValidation] at stored
    by_cases mine : hash = requestHash
    · rw [mine, Function.update_self] at stored
      cases stored
      cases waits
    · rw [Function.update_of_ne mine] at stored
      exact remembers.unanswered hash updated stored waits

theorem step (remembers : Remembers history state) {after : ValidationState}
    (taken : state.step action = some after) :
    Remembers (history ++ [action]) after := by
  have takes := step_takes taken
  generalize isCall : action.request = request at takes
  cases takes with
  | validationRequest caller validatorAddress agentId requestUri requestHash
      required fresh =>
      exact remembers.validationRequest action.sequence isCall fresh rfl rfl
        rfl rfl rfl
  | validationResponse requestHash response responseUri responseHash tag small
      found =>
      exact remembers.validationResponse action.sequence isCall small found

theorem run (run : Accepted ValidationState.step .initial history state) :
    Remembers history state :=
  run.invariant Remembers initial fun _ remembers taken =>
    remembers.step taken

end Remembers

/-! ## One status over time -/

/-- A status that is there stays: it keeps its validator and agent, and once
answered stays answered. -/
def Lasts (status later : ValidationStatus) : Prop :=
  later.validatorAddress = status.validatorAddress ∧
    later.agentId = status.agentId ∧
    (status.hasResponse = true → later.hasResponse = true)

/-- One call changes a status only as its validator's response. -/
theorem Takes.status {state after : ValidationState}
    {identity : OwnerAnswers} {sequence : Nat} {request : ValidationCall}
    (takes : state.Takes identity sequence request after)
    {hash : Vector UInt8 32} {status : ValidationStatus}
    (found : state.validation hash = some status) :
    ∃ later, after.validation hash = some later ∧ Lasts status later ∧
      (later = status ∨ ∃ response responseUri responseHash tag, request =
        .validationResponse status.validatorAddress hash response responseUri
          responseHash tag) := by
  cases takes with
  | validationRequest caller validatorAddress agentId requestUri requestHash
      required fresh =>
      have other : hash ≠ requestHash := by
        rintro rfl
        rw [fresh] at found
        cases found
      exact ⟨status, (Function.update_of_ne other _ _).trans found,
        ⟨rfl, rfl, id⟩, .inl rfl⟩
  | validationResponse requestHash response responseUri responseHash tag small
      isStatus =>
      by_cases mine : hash = requestHash
      · subst mine
        obtain rfl := Option.some.inj (isStatus.symm.trans found)
        exact ⟨_, Function.update_self _ _ _, ⟨rfl, rfl, fun _ => rfl⟩,
          .inr ⟨response, responseUri, responseHash, tag, rfl⟩⟩
      · exact ⟨status, (Function.update_of_ne mine _ _).trans found,
          ⟨rfl, rfl, id⟩, .inl rfl⟩

theorem status_lasts {state later : ValidationState}
    {more : List ValidationAction} (continued : Accepted step state more later)
    {hash : Vector UInt8 32} {status : ValidationStatus}
    (found : state.validation hash = some status) :
    ∃ final, later.validation hash = some final ∧ Lasts status final := by
  induction continued with
  | start => exact ⟨status, found, rfl, rfl, id⟩
  | took earlier taken induction =>
      obtain ⟨middle, isMiddle, sameValidator, sameAgent, answered⟩ :=
        induction
      obtain ⟨final, isFinal, ⟨keptValidator, keptAgent, stays⟩, _⟩ :=
        (step_takes taken).status isMiddle
      exact ⟨final, isFinal, keptValidator.trans sameValidator,
        keptAgent.trans sameAgent, fun has => stays (answered has)⟩
  | refused earlier refused induction => exact induction

/-- After every run the lists of agents and validators hold, in the order of
their requests and once each, exactly the hashes stored for them; statuses are
bounded and empty until answered; and from there on a status keeps its
validator and agent, stays answered, and changes only by its validator. -/
theorem validation_history {history : List ValidationAction}
    {state : ValidationState} (run : Accepted step .initial history state) :
    (∀ agent,
      IndexedList (state.agentValidationCount agent)
        (state.agentValidationAt agent) (agentRequests history agent) ∧
      (agentRequests history agent).Nodup ∧
      ∀ hash, hash ∈ agentRequests history agent ↔ ∃ status,
        state.validation hash = some status ∧ status.agentId = agent) ∧
    (∀ validator,
      IndexedList (state.validatorRequestCount validator)
        (state.validatorRequestAt validator)
        (validatorRequests history validator) ∧
      (validatorRequests history validator).Nodup ∧
      ∀ hash, hash ∈ validatorRequests history validator ↔ ∃ status,
        state.validation hash = some status ∧
          status.validatorAddress = validator) ∧
    (∀ hash status, state.validation hash = some status →
      status.response ≤ 100 ∧
      (status.hasResponse = false → status.response = 0 ∧
        status.responseHash = Vector.replicate 32 0 ∧
        status.tag = ByteArray.empty) ∧
      (∀ more later, Accepted step state more later →
        ∃ final, later.validation hash = some final ∧ Lasts status final) ∧
      ∀ action after, state.step action = some after →
        after.validation hash ≠ some status →
        ∃ response responseUri responseHash tag, action.request =
          .validationResponse status.validatorAddress hash response
            responseUri responseHash tag) := by
  have remembers := Remembers.run run
  have once : ∀ select : Listing → Bool,
      (((listings history).filter select).map Listing.requestHash).Nodup :=
    fun select => remembers.distinct.sublist
      (List.filter_sublist.map Listing.requestHash)
  have selected : ∀ (select : Listing → Bool) (hash : Vector UInt8 32),
      hash ∈ ((listings history).filter select).map Listing.requestHash ↔
        ∃ status, state.validation hash = some status ∧
          select (status.listing hash) = true := by
    intro select hash
    simp only [List.mem_map, List.mem_filter, remembers.listed]
    constructor
    · rintro ⟨listing, ⟨⟨status, found, isListing⟩, chosen⟩, rfl⟩
      exact ⟨status, found, isListing ▸ chosen⟩
    · rintro ⟨status, found, chosen⟩
      exact ⟨status.listing hash, ⟨⟨status, found, rfl⟩, chosen⟩, rfl⟩
  refine ⟨fun agent => ⟨remembers.agents agent, once _, fun hash => ?_⟩,
    fun validator => ⟨remembers.validators validator, once _,
      fun hash => ?_⟩, fun hash status found => ⟨?_, ?_, ?_, ?_⟩⟩
  · rw [agentRequests, selected]
    simp only [decide_eq_true_eq]
    exact Iff.rfl
  · rw [validatorRequests, selected]
    simp only [decide_eq_true_eq]
    exact Iff.rfl
  · exact remembers.small hash status found
  · intro waits
    have isRequested := remembers.unanswered hash status found waits
    rw [isRequested]
    exact ⟨rfl, rfl, rfl⟩
  · exact fun more later continued => status_lasts continued found
  · intro action after taken changed
    obtain ⟨later, isLater, _, same | isResponse⟩ :=
      (step_takes taken).status found
    · exact absurd (same ▸ isLater) changed
    · exact isResponse

/-- One agent, owned by the first owner. -/
def ownedAnswers : OwnerAnswers :=
  { findOwner := fun _ => some firstOwner, getApproved := fun _ => none
    isApprovedForAll := fun _ _ => false }

/-- A request and two responses. -/
def answeredHistory : List ValidationAction :=
  [⟨ownedAnswers, 7, .validationRequest firstOwner secondOwner 0 ⟨#[]⟩
      (Vector.replicate 32 9)⟩,
    ⟨ownedAnswers, 8, .validationResponse secondOwner
      (Vector.replicate 32 9) 50 ⟨#[]⟩ (Vector.replicate 32 0) ⟨#[]⟩⟩,
    ⟨ownedAnswers, 9, .validationResponse secondOwner
      (Vector.replicate 32 9) 100 ⟨#[]⟩ (Vector.replicate 32 0) ⟨#[]⟩⟩]

theorem validation_history_answered :
    ∃ state, Accepted step .initial answeredHistory state ∧
      agentRequests answeredHistory 0 = [Vector.replicate 32 9] ∧
      ∃ status, state.validation (Vector.replicate 32 9) = some status ∧
        status.agentId = 0 := by
  have run : Accepted step .initial answeredHistory _ :=
    .took (.took (.took .start rfl) rfl) rfl
  refine ⟨_, run, by decide, ?_⟩
  apply (((validation_history run).1 0).2.2 _).mp
  decide

end ValidationState

end Stellar8004.Contracts
