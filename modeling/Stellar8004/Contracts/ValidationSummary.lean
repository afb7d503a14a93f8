import Stellar8004.Contracts.ValidationStorage
import Stellar8004.Library.Loops

/-!
# Summaries of validations

`get_summary` of the validation registry walks an agent's list of requests and
averages the responses that pass its filters.  In every reached state that is
the floor of the mean over the matching requests, each counted once.
-/

namespace Stellar8004.Contracts

structure ValidationSummary where
  count : Nat
  averageResponse : Nat
  deriving DecidableEq

/-- The accumulators of the loop. -/
structure ResponseTally where
  totalResponse : Nat
  matchCount : Nat
  deriving DecidableEq

/-- Addition of `u64`, which panics on overflow. -/
def addU64 (left right : Nat) : Except ValidationError Nat :=
  if left + right < 2 ^ 64 then .ok (left + right)
  else .error (.panic "attempt to add with overflow")

/-- The loop over the validators, with its `break`. -/
def validatorFound (address : Address) : List Address → Bool
  | [] => false
  | validator :: validators =>
      if validator = address then true
      else validatorFound address validators

/-- The checks of the loop that `continue`. -/
def ValidationStatus.counts (validatorAddresses : List Address) (tag : Bytes)
    (status : ValidationStatus) : Bool :=
  if !status.hasResponse then false
  else if !validatorAddresses.isEmpty &&
      !validatorFound status.validatorAddress validatorAddresses then false
  else if tag.size ≠ 0 ∧ status.tag ≠ tag then false
  else true

namespace ValidationState

/-- One round of the loop. -/
def tallyAt (state : ValidationState) (agentId : Nat)
    (validatorAddresses : List Address) (tag : Bytes)
    (tally : ResponseTally) (position : Nat) :
    Except ValidationError ResponseTally :=
  match state.agentValidationAt agentId position with
  | none => .ok tally
  | some hash =>
      match state.validation hash with
      | none => .ok tally
      | some status =>
          if status.counts validatorAddresses tag then do
            let totalResponse ← addU64 tally.totalResponse status.response
            let matchCount ← addU64 tally.matchCount 1
            return { totalResponse, matchCount }
          else .ok tally

/-- `as u32` keeps the low 32 bits. -/
def getSummary (state : ValidationState) (agentId : Nat)
    (validatorAddresses : List Address) (tag : Bytes) :
    Except ValidationError ValidationSummary := do
  let tally ← (List.range (state.agentValidationCount agentId)).foldlM
    (state.tallyAt agentId validatorAddresses tag)
    { totalResponse := 0, matchCount := 0 }
  return {
    count := tally.matchCount
    averageResponse :=
      if 0 < tally.matchCount then
        tally.totalResponse / tally.matchCount % 2 ^ 32
      else 0 }

/-! ## What is summarised -/

/-- An answered request about the agent that passes the filters. -/
def Matches (state : ValidationState) (agentId : Nat)
    (validatorAddresses : List Address) (tag : Bytes)
    (hash : Vector UInt8 32) : Prop :=
  ∃ status, state.validation hash = some status ∧
    status.agentId = agentId ∧ status.hasResponse = true ∧
    (validatorAddresses = [] ∨
      status.validatorAddress ∈ validatorAddresses) ∧
    (tag.size = 0 ∨ status.tag = tag)

/-- The current response to a request. -/
def responseTo (state : ValidationState) (hash : Vector UInt8 32) : Nat :=
  match state.validation hash with
  | some status => status.response
  | none => 0

/-- Whether the loop counts a request. -/
def counted (state : ValidationState) (validatorAddresses : List Address)
    (tag : Bytes) (hash : Vector UInt8 32) : Bool :=
  match state.validation hash with
  | some status => status.counts validatorAddresses tag
  | none => false

end ValidationState

theorem validatorFound_iff {address : Address} {validators : List Address} :
    validatorFound address validators = true ↔ address ∈ validators := by
  induction validators with
  | nil => simp [validatorFound]
  | cons validator validators induction =>
      rw [validatorFound, List.mem_cons]
      by_cases same : validator = address
      · simp [same]
      · rw [if_neg same, induction]
        constructor
        · exact .inr
        · rintro (rfl | member)
          · exact absurd rfl same
          · exact member

theorem ValidationStatus.counts_iff {validators : List Address}
    {tag : Bytes} {status : ValidationStatus} :
    status.counts validators tag = true ↔
      status.hasResponse = true ∧
        (validators = [] ∨ status.validatorAddress ∈ validators) ∧
        (tag.size = 0 ∨ status.tag = tag) := by
  rw [← validatorFound_iff]
  unfold counts
  cases answered : status.hasResponse with
  | false => simp
  | true =>
      cases found : validatorFound status.validatorAddress validators <;>
        cases validators <;> by_cases same : status.tag = tag <;>
          by_cases none : tag.size = 0 <;> simp_all

namespace ValidationState

section

variable {history : List ValidationAction} {state : ValidationState}
  {agentId : Nat} {validators : List Address} {tag : Bytes}

theorem Remembers.matches_iff (remembers : Remembers history state)
    {hash : Vector UInt8 32} :
    state.Matches agentId validators tag hash ↔
      hash ∈ (agentRequests history agentId).filter
        (state.counted validators tag) := by
  rw [List.mem_filter]
  constructor
  · rintro ⟨status, found, about, passes⟩
    constructor
    · have listed : status.listing hash ∈ listings history :=
        (remembers.listed (status.listing hash)).mpr ⟨status, found, rfl⟩
      apply List.mem_map.mpr
      exact ⟨status.listing hash,
        List.mem_filter.mpr ⟨listed, decide_eq_true about⟩, rfl⟩
    · simp only [counted, found]
      exact ValidationStatus.counts_iff.mpr passes
  · rintro ⟨requested, passes⟩
    obtain ⟨listing, member, rfl⟩ := List.mem_map.mp requested
    obtain ⟨listed, about⟩ := List.mem_filter.mp member
    obtain ⟨status, found, isListing⟩ := (remembers.listed listing).mp listed
    simp only [counted, found] at passes
    refine ⟨status, found, ?_, ValidationStatus.counts_iff.mp passes⟩
    have same : status.agentId = listing.agentId :=
      congrArg Listing.agentId isListing
    rw [same]
    exact of_decide_eq_true about

theorem Remembers.agentRequests_nodup (remembers : Remembers history state)
    (agentId : Nat) : (agentRequests history agentId).Nodup :=
  remembers.distinct.sublist (List.filter_sublist.map _)

theorem Remembers.responseTo_le (remembers : Remembers history state)
    (hash : Vector UInt8 32) : state.responseTo hash ≤ 100 := by
  unfold responseTo
  split
  · rename_i status found
    exact remembers.small hash status found
  · exact Nat.zero_le _

/-! ## The loop -/

/-- The request the loop counts at a position. -/
def countedAt (state : ValidationState) (agentId : Nat)
    (validators : List Address) (tag : Bytes) (position : Nat) :
    Option (Vector UInt8 32) :=
  (state.agentValidationAt agentId position).filter
    (state.counted validators tag)

/-- The accumulators after counting requests. -/
def tallyOf (state : ValidationState) (hashes : List (Vector UInt8 32)) :
    ResponseTally :=
  { totalResponse := (hashes.map state.responseTo).sum
    matchCount := hashes.length }

theorem tallyAt_eq {hashes : List (Vector UInt8 32)} {position : Nat}
    (small : ∀ hash, state.responseTo hash ≤ 100)
    (few : hashes.length + 1 < 2 ^ 32) :
    state.tallyAt agentId validators tag (state.tallyOf hashes) position =
      .ok (state.tallyOf
        (hashes ++ (state.countedAt agentId validators tag position).toList))
      := by
  have bounded : (hashes.map state.responseTo).sum ≤ hashes.length * 100 := by
    have sums := List.sum_le_card_nsmul (hashes.map state.responseTo) 100
      (by simp [small])
    simpa using sums
  have skips : ∀ hash, state.counted validators tag hash = false →
      state.tallyOf hashes = state.tallyOf (hashes ++
        (Option.filter (state.counted validators tag) (some hash)).toList) := by
    intro hash passed
    rw [Option.filter_some, passed]
    simp
  unfold tallyAt countedAt
  cases found : state.agentValidationAt agentId position with
  | none => simp
  | some hash =>
      dsimp only
      have response := small hash
      cases stored : state.validation hash with
      | none => exact congrArg _ (skips hash (by simp only [counted, stored]))
      | some status =>
          have isCounted : state.counted validators tag hash =
              status.counts validators tag := by
            simp only [counted, stored]
          have isResponse : state.responseTo hash = status.response := by
            simp only [responseTo, stored]
          rw [isResponse] at response
          cases passes : status.counts validators tag with
          | false =>
              rw [← skips hash (isCounted.trans passes)]
              simp only [passes, Bool.false_eq_true, if_false]
          | true =>
              have total : addU64 (state.tallyOf hashes).totalResponse
                  status.response = .ok ((state.tallyOf hashes).totalResponse +
                    status.response) := by
                apply if_pos
                change (hashes.map state.responseTo).sum + status.response < _
                omega
              have count : addU64 (state.tallyOf hashes).matchCount 1 =
                  .ok ((state.tallyOf hashes).matchCount + 1) := by
                apply if_pos
                change hashes.length + 1 < _
                omega
              rw [Option.filter_some, isCounted, passes]
              simp only [passes, if_true, total, count, Option.toList_some]
              simp only [tallyOf, List.map_append, List.sum_append,
                List.length_append, List.map_cons, List.map_nil, isResponse,
                List.sum_singleton, List.length_singleton]
              rfl

/-- The loop over an agent's list. -/
theorem Remembers.getSummary_eq (remembers : Remembers history state)
    (few : state.agentValidationCount agentId < 2 ^ 32) :
    let hashes := (agentRequests history agentId).filter
      (state.counted validators tag)
    state.getSummary agentId validators tag = .ok
      { count := hashes.length
        averageResponse :=
          (hashes.map state.responseTo).sum / hashes.length } := by
  intro hashes
  have small := remembers.responseTo_le
  have loop : LoopSummary (state.tallyAt agentId validators tag)
      (fun positions => state.tallyOf
        (positions.filterMap (state.countedAt agentId validators tag)))
      (fun positions => positions.length < 2 ^ 32) := by
    refine ⟨Nat.two_pow_pos 32, ?_, ?_⟩
    · intro before item good
      rw [List.length_append] at good
      omega
    · intro before item good
      rw [List.length_append, List.length_singleton] at good
      have fewer := List.length_filterMap_le
        (state.countedAt agentId validators tag) before
      rw [tallyAt_eq small (by omega), List.filterMap_append]
      cases isCounted : state.countedAt agentId validators tag item <;>
        simp [isCounted]
  have counted := loop.foldlM_good
    (show (List.range (state.agentValidationCount agentId)).length < 2 ^ 32 by
      rwa [List.length_range])
  have positions : (List.range (state.agentValidationCount agentId)).filterMap
      (state.countedAt agentId validators tag) = hashes := by
    have entries := congrArg
      (List.filterMap (Option.filter (state.counted validators tag)))
      (remembers.agents agentId).map_range
    rw [List.filterMap_map, List.filterMap_map] at entries
    refine entries.trans ?_
    have chosen : Option.filter (state.counted validators tag) ∘ some =
        Option.guard (state.counted validators tag) := by
      funext hash
      rw [Function.comp_apply, Option.filter_some, Option.guard]
    rw [chosen]
    exact congrFun List.filterMap_eq_filter _
  have isTally : (List.range (state.agentValidationCount agentId)).foldlM
      (state.tallyAt agentId validators tag) (state.tallyOf []) =
        .ok (state.tallyOf hashes) := by
    rw [← positions]
    exact counted
  have tallied : state.getSummary agentId validators tag = .ok
      { count := hashes.length
        averageResponse := if 0 < hashes.length then
          (hashes.map state.responseTo).sum / hashes.length % 2 ^ 32
          else 0 } := by
    have zero : ({ totalResponse := 0, matchCount := 0 } : ResponseTally) =
      state.tallyOf [] := rfl
    unfold getSummary
    rw [zero, isTally]
    rfl
  have bounded : (hashes.map state.responseTo).sum ≤ hashes.length * 100 := by
    have sums := List.sum_le_card_nsmul (hashes.map state.responseTo) 100
      (by simp [small])
    simpa using sums
  rw [tallied]
  by_cases some : 0 < hashes.length
  · have mean : (hashes.map state.responseTo).sum / hashes.length ≤ 100 := by
      apply Nat.div_le_of_le_mul
      exact bounded
    rw [if_pos some, Nat.mod_eq_of_lt (by omega)]
  · have none : hashes.length = 0 := by omega
    rw [if_neg some, none, Nat.div_zero]

/-- `get_summary` is the floor of the mean over the matching requests, each
counted once; nothing overflows, and the order and the repetitions of the
validators do not matter. -/
theorem summary_floor_mean (run : Accepted step .initial history state)
    (agentId : Nat) (validators : List Address) (tag : Bytes) :
    ∃ requests : Finset (Vector UInt8 32),
      (∀ hash, hash ∈ requests ↔
        state.Matches agentId validators tag hash) ∧
      state.getSummary agentId validators tag = .ok
        { count := requests.card
          averageResponse :=
            (∑ hash ∈ requests, state.responseTo hash) / requests.card } ∧
      (∑ hash ∈ requests, state.responseTo hash) / requests.card ≤ 100 ∧
      ∀ others : List Address,
        (∀ validator, validator ∈ others ↔ validator ∈ validators) →
          state.getSummary agentId others tag =
            state.getSummary agentId validators tag := by
  have remembers := Remembers.run run
  have few := (Counted.run run).agents agentId
  have distinct : ((agentRequests history agentId).filter
      (state.counted validators tag)).Nodup :=
    (remembers.agentRequests_nodup agentId).filter _
  refine ⟨((agentRequests history agentId).filter
    (state.counted validators tag)).toFinset, ?_, ?_, ?_, ?_⟩
  · intro hash
    rw [List.mem_toFinset]
    exact remembers.matches_iff.symm
  · rw [remembers.getSummary_eq few, List.toFinset_card_of_nodup distinct,
      List.sum_toFinset _ distinct]
  · apply Nat.div_le_of_le_mul
    apply Finset.sum_le_card_nsmul
    intro hash _
    exact remembers.responseTo_le hash
  · intro others same
    have none : others = [] ↔ validators = [] := by
      simp only [List.eq_nil_iff_forall_not_mem, same]
    have sameCounts : ∀ status : ValidationStatus,
        status.counts others tag = status.counts validators tag := by
      intro status
      rw [Bool.eq_iff_iff, ValidationStatus.counts_iff,
        ValidationStatus.counts_iff, none, same]
    have sameCounted : state.counted others tag =
        state.counted validators tag := by
      funext hash
      simp only [counted, sameCounts]
    rw [remembers.getSummary_eq few, remembers.getSummary_eq few,
      sameCounted]

theorem summary_floor_mean_answered :
    ∃ state, Accepted step .initial answeredHistory state ∧
      ∃ requests : Finset (Vector UInt8 32),
        (∀ hash, hash ∈ requests ↔
          state.Matches 0 [secondOwner] ByteArray.empty hash) ∧
        Vector.replicate 32 9 ∈ requests ∧
        state.getSummary 0 [secondOwner] ByteArray.empty =
          .ok { count := 1, averageResponse := 100 } := by
  have run : Accepted step .initial answeredHistory _ :=
    .took (.took (.took .start rfl) rfl) rfl
  obtain ⟨requests, isMatch, _⟩ :=
    summary_floor_mean run 0 [secondOwner] ByteArray.empty
  refine ⟨_, run, requests, isMatch, ?_, by decide⟩
  apply (isMatch _).mpr
  exact ⟨_, rfl, rfl, rfl, .inr List.mem_cons_self, .inl rfl⟩

end

end ValidationState

end Stellar8004.Contracts
