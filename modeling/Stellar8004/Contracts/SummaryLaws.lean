import Stellar8004.Contracts.Summary

/-!
# Laws of the summary

Over every store the reputation registry can reach: the mean is exact, how
often a client is listed counts, and two orders of one list agree on every
summary they both return.
-/

namespace Stellar8004.Contracts

namespace ReputationState

variable {history : List ReputationAction} {state : ReputationState}

/-- Every entry that is summarised was accepted with at most 18 decimals. -/
theorem matching_scaled (run : Accepted step .initial history state)
    (agentId : Nat) (clientAddresses : List Address) (tag1 tag2 : Bytes) :
    ∀ data ∈ state.matching agentId clientAddresses tag1 tag2,
      data.valueDecimals ≤ 18 := by
  intro data member
  unfold matching at member
  obtain ⟨client, _, isMatch⟩ := List.mem_flatMap.mp member
  have isEntry := (List.mem_filter.mp isMatch).1
  obtain ⟨index, _, found⟩ := List.mem_filterMap.mp isEntry
  have remembers := Remembers.run run
  obtain ⟨_, original, _, isGiven, rfl⟩ := remembers.given_of_found found
  exact (remembers.bounded agentId client original
    (List.mem_of_getElem? isGiven)).2.2

/-! ## The exact mean -/

/-- The mean is exact, and an empty list and an overflow are the only
errors. -/
def SummaryExact (state : ReputationState) (agentId : Nat)
    (clientAddresses : List Address) (tag1 tag2 : Bytes) : Prop :=
  match state.getSummary agentId clientAddresses tag1 tag2 with
  | .ok result => clientAddresses ≠ [] ∧
      IsSummary (state.matching agentId clientAddresses tag1 tag2) result
  | .error failure =>
      failure = .clientAddressesRequired ∧ clientAddresses = [] ∨
        failure = .aggregateOverflow ∧ clientAddresses ≠ []

/-- In every reachable store the summary is exact, unless the entries fill a
slot of `decimal_counts`. -/
theorem summaryExact_iff (run : Accepted step .initial history state)
    (agentId : Nat) (clientAddresses : List Address) (tag1 tag2 : Bytes) :
    state.SummaryExact agentId clientAddresses tag1 tag2 ↔
      ¬ FillsSlot (state.matching agentId clientAddresses tag1 tag2) := by
  unfold SummaryExact
  by_cases none : clientAddresses = []
  · subst none
    constructor
    · rintro _ ⟨many, _⟩
      have empty : state.matching agentId [] tag1 tag2 = [] := rfl
      rw [empty, List.length_nil] at many
      exact absurd many (by decide)
    · exact fun _ => .inl ⟨rfl, rfl⟩
  · rcases getSummary_cases
      (matching_scaled run agentId clientAddresses tag1 tag2) none with
      ⟨good, result, isResult, isSummary⟩ | ⟨fills, _, stops⟩ |
      ⟨fills, _, stops⟩
    · rw [isResult]
      refine ⟨fun _ fills => ?_, fun _ => ⟨none, isSummary⟩⟩
      exact absurd fills.1 (Nat.not_le.mpr good.2.2)
    · rw [stops]
      simp [fills]
    · rw [stops]
      simp [fills, none]

/-- Feedback of value zero. -/
def zeroFeedback : ReputationAction :=
  (openAnswers, .giveFeedback secondOwner 0 0 0 ⟨#[]⟩ ⟨#[]⟩ ⟨#[]⟩ ⟨#[]⟩
    (Vector.replicate 32 0))

def zeroData : FeedbackData :=
  { value := 0, valueDecimals := 0, isRevoked := false
    tag1 := ⟨#[]⟩, tag2 := ⟨#[]⟩ }

theorem step_zeroFeedback
    (listed : state.clientExists 0 secondOwner = true ∨
      state.clientCount 0 = 0)
    (room : state.lastIndex 0 secondOwner + 1 < 2 ^ 64) :
    ∃ after, state.step zeroFeedback = some after := by
  obtain ⟨counted, ensured⟩ :
      ∃ counted, state.ensureClient 0 secondOwner = .ok counted := by
    unfold ensureClient
    rcases listed with known | none
    · rw [if_pos known]
      exact ⟨_, rfl⟩
    · unfold addClient
      split
      · exact ⟨_, rfl⟩
      · rw [none, if_pos (by decide)]
        exact ⟨_, rfl⟩
  have same := (ensureClient_ok ensured).2.1
  have inRange : ¬ 2 ^ 64 ≤ counted.lastIndex 0 secondOwner + 1 := by
    rw [same]
    omega
  have isCall : state.call zeroFeedback.1 zeroFeedback.2 =
      (state.ensureClient 0 secondOwner >>= fun state =>
        if 2 ^ 64 ≤ state.lastIndex 0 secondOwner + 1 then
          .error (.panic "attempt to add with overflow")
        else .ok _) := rfl
  obtain ⟨result, success⟩ :
      ∃ result, state.call zeroFeedback.1 zeroFeedback.2 = .ok result := by
    rw [isCall, ensured]
    exact ⟨_, if_neg inRange⟩
  unfold step
  rw [success]
  exact ⟨_, rfl⟩

theorem given_zeroFeedback (number : Nat) :
    given (List.replicate number zeroFeedback) 0 secondOwner =
      List.replicate number zeroData := by
  unfold given
  rw [List.filterMap_replicate_of_some]
  rfl

/-- A client can give as many entries as its index can count. -/
theorem zeroFeedback_accepted {number : Nat} (room : number < 2 ^ 64) :
    ∃ state, Accepted step .initial (List.replicate number zeroFeedback)
      state := by
  induction number with
  | zero => exact ⟨_, .start⟩
  | succ number induction =>
      obtain ⟨state, run⟩ := induction (by omega)
      have remembers := Remembers.run run
      have index : state.lastIndex 0 secondOwner = number := by
        rw [remembers.lastIndex, given_zeroFeedback, List.length_replicate]
      have listed : state.clientExists 0 secondOwner = true ∨
          state.clientCount 0 = 0 := by
        rw [remembers.known, mem_firstClients_iff, given_zeroFeedback,
          (remembers.clients 0).counts]
        cases number with
        | zero => exact .inr rfl
        | succ number => exact .inl (by simp)
      obtain ⟨after, taken⟩ := step_zeroFeedback listed (by omega)
      refine ⟨after, ?_⟩
      rw [List.replicate_succ']
      exact .took run taken

/-- The entries of a client that gave nothing but zeros. -/
theorem matchingBy_zeroFeedback {number : Nat}
    (run : Accepted step .initial (List.replicate number zeroFeedback)
      state) :
    state.matchingBy 0 ⟨#[]⟩ ⟨#[]⟩ secondOwner =
      List.replicate number zeroData := by
  have remembers := Remembers.run run
  have index : state.lastIndex 0 secondOwner = number := by
    rw [remembers.lastIndex, given_zeroFeedback, List.length_replicate]
  have standing : ∀ index, revocations
      (List.replicate number zeroFeedback) 0 secondOwner index = 0 := by
    intro index
    unfold revocations
    rw [List.countP_replicate]
    rfl
  have entries : state.entriesBy 0 secondOwner =
      List.replicate number zeroData := by
    unfold entriesBy
    rw [index]
    trans (List.range' 1 number).filterMap fun _ => some zeroData
    · apply List.filterMap_congr
      intro place member
      obtain ⟨position, inside, rfl⟩ := List.mem_range'.mp member
      rw [Nat.one_mul, Nat.add_comm, remembers.entry, given_zeroFeedback,
        standing, List.getElem?_replicate, if_pos inside]
      rfl
    · rw [List.filterMap_eq_map', List.map_const', List.length_range']
  unfold matchingBy
  rw [entries, List.filter_replicate]
  rfl

/-- Feedback of two clients with different decimals, a negative value and one
entry under another tag. -/
def mixedHistory : List ReputationAction :=
  [(openAnswers, .giveFeedback secondOwner 0 (-5) 1 ⟨#[116]⟩ ⟨#[]⟩ ⟨#[]⟩ ⟨#[]⟩
      (Vector.replicate 32 0)),
    (openAnswers, .giveFeedback secondOwner 0 7 0 ⟨#[117]⟩ ⟨#[]⟩ ⟨#[]⟩ ⟨#[]⟩
      (Vector.replicate 32 0)),
    (openAnswers, .giveFeedback firstOwner 0 250 2 ⟨#[116]⟩ ⟨#[]⟩ ⟨#[]⟩ ⟨#[]⟩
      (Vector.replicate 32 0))]

theorem summaryExact_iff_mixed :
    ∃ state, Accepted step .initial mixedHistory state ∧
      (state.matching 0 [secondOwner, firstOwner] ⟨#[116]⟩ ⟨#[]⟩).map
        (fun data => (data.value, data.valueDecimals)) = [(-5, 1), (250, 2)] ∧
      state.SummaryExact 0 [secondOwner, firstOwner] ⟨#[116]⟩ ⟨#[]⟩ := by
  have run : Accepted step .initial mixedHistory _ :=
    .took (.took (.took .start rfl) rfl) rfl
  refine ⟨_, run, by decide +kernel, (summaryExact_iff run 0 _ _ _).mpr ?_⟩
  rintro ⟨many, _⟩
  exact absurd many (by decide +kernel)

theorem inRange_zeroData (number : Nat) :
    InRange (List.replicate number zeroData) := by
  constructor
  · intro data member
    rw [List.eq_of_mem_replicate member]
    decide
  · intro before isPrefix
    have zeros : ∀ value ∈ before, value = 0 := by
      intro value member
      have inside := isPrefix.subset member
      rw [List.map_replicate] at inside
      exact List.eq_of_mem_replicate inside
    rw [List.sum_eq_zero zeros]
    decide

/-- A client with `2^64 - 1` entries of value zero, listed twice, traps the
function. -/
theorem summaryExact_fails_listed_twice :
    ∃ history state, Accepted step .initial history state ∧
      state.lastIndex 0 secondOwner = 2 ^ 64 - 1 ∧
      state.getSummary 0 [secondOwner, secondOwner] ⟨#[]⟩ ⟨#[]⟩ =
        .error (.panic "attempt to add with overflow") ∧
      ¬ state.SummaryExact 0 [secondOwner, secondOwner] ⟨#[]⟩ ⟨#[]⟩ := by
  obtain ⟨state, run⟩ := zeroFeedback_accepted
    (show 2 ^ 64 - 1 < 2 ^ 64 by decide)
  have index : state.lastIndex 0 secondOwner = 2 ^ 64 - 1 := by
    rw [(Remembers.run run).lastIndex, given_zeroFeedback,
      List.length_replicate]
  have entries : state.matching 0 [secondOwner, secondOwner] ⟨#[]⟩ ⟨#[]⟩ =
      List.replicate (2 ^ 64 - 1 + (2 ^ 64 - 1)) zeroData := by
    have twice : state.matching 0 [secondOwner, secondOwner] ⟨#[]⟩ ⟨#[]⟩ =
        state.matchingBy 0 ⟨#[]⟩ ⟨#[]⟩ secondOwner ++
          state.matchingBy 0 ⟨#[]⟩ ⟨#[]⟩ secondOwner := by
      simp [matching, MAX_SUMMARY_CLIENTS]
    rw [twice, matchingBy_zeroFeedback run, List.replicate_append_replicate]
  have fills : FillsSlot
      (state.matching 0 [secondOwner, secondOwner] ⟨#[]⟩ ⟨#[]⟩) := by
    rw [entries]
    refine ⟨?_, ?_, 0, ?_⟩
    · rw [List.length_replicate]
      decide
    · rw [List.take_replicate]
      exact inRange_zeroData _
    · intro data member
      rw [List.eq_of_mem_replicate (List.mem_of_mem_take member)]
      rfl
  have stops : state.getSummary 0 [secondOwner, secondOwner] ⟨#[]⟩ ⟨#[]⟩ =
      .error (.panic "attempt to add with overflow") := by
    rcases getSummary_cases (matching_scaled run 0
      [secondOwner, secondOwner] ⟨#[]⟩ ⟨#[]⟩) (by simp) with
      ⟨good, _⟩ | ⟨_, _, stops⟩ | ⟨none, _⟩
    · exact absurd fills.1 (Nat.not_le.mpr good.2.2)
    · exact stops
    · exact absurd fills none
  refine ⟨_, state, run, index, stops, ?_⟩
  unfold SummaryExact
  rw [stops]
  simp

/-! ## Repeated clients -/

/-- The entries of a client that are not revoked. -/
def standingBy (state : ReputationState) (agentId : Nat) (client : Address) :
    List FeedbackData :=
  (state.entriesBy agentId client).filter (·.isRevoked = false)

theorem matching_eq {clientAddresses : List Address}
    (few : clientAddresses.length ≤ MAX_SUMMARY_CLIENTS)
    (state : ReputationState) (agentId : Nat) (tag1 tag2 : Bytes) :
    state.matching agentId clientAddresses tag1 tag2 =
      clientAddresses.flatMap (state.matchingBy agentId tag1 tag2) := by
  unfold matching
  rw [List.take_of_length_le few]

/-- The summary depends on the list through the entries that match. -/
theorem getSummary_congr {state : ReputationState} {agentId : Nat}
    {first second : List Address} {tag1 tag2 : Bytes}
    (empty : first = [] ↔ second = [])
    (same : state.matching agentId first tag1 tag2 =
      state.matching agentId second tag1 tag2) :
    state.getSummary agentId first tag1 tag2 =
      state.getSummary agentId second tag1 tag2 := by
  unfold getSummary
  dsimp only
  rw [summarize_eq, summarize_eq, same]
  simp only [empty]

theorem count_of_ok (run : Accepted step .initial history state)
    {agentId : Nat} {clientAddresses : List Address} {tag1 tag2 : Bytes}
    {result : SummaryResult}
    (isResult : state.getSummary agentId clientAddresses tag1 tag2 =
      .ok result) :
    Summable (state.matching agentId clientAddresses tag1 tag2) ∧
      IsSummary (state.matching agentId clientAddresses tag1 tag2)
        result := by
  have some : clientAddresses ≠ [] := by
    rintro rfl
    cases isResult
  rcases getSummary_cases
    (matching_scaled run agentId clientAddresses tag1 tag2) some with
    ⟨good, other, isOther, isSummary⟩ | ⟨_, _, stops⟩ | ⟨_, _, stops⟩
  · rw [isResult] at isOther
    cases isOther
    exact ⟨good, isSummary⟩
  · rw [isResult] at stops
    cases stops
  · rw [isResult] at stops
    cases stops

theorem length_matchingBy_le (state : ReputationState) (agentId : Nat)
    (tag1 tag2 : Bytes) (client : Address) :
    (state.matchingBy agentId tag1 tag2 client).length ≤
      (state.standingBy agentId client).length := by
  unfold matchingBy standingBy
  rw [← List.countP_eq_length_filter, ← List.countP_eq_length_filter]
  apply List.countP_mono_left
  intro data _ isMatch
  simp only [decide_eq_true_eq] at isMatch ⊢
  exact isMatch.1

theorem count_eq_sum (run : Accepted step .initial history state)
    {agentId : Nat} {clientAddresses : List Address} {tag1 tag2 : Bytes}
    {result : SummaryResult}
    (few : clientAddresses.length ≤ MAX_SUMMARY_CLIENTS)
    (isResult : state.getSummary agentId clientAddresses tag1 tag2 =
      .ok result) :
    result.count = (clientAddresses.map fun client =>
      (state.matchingBy agentId tag1 tag2 client).length).sum := by
  rw [(count_of_ok run isResult).2.count, matching_eq few,
    List.length_flatMap]

/-- Without repeats an item is listed less often exactly if it was
repeated. -/
theorem count_lt_iff {items distinct : List Address}
    (nodup : distinct.Nodup) (all : ∀ item ∈ items, item ∈ distinct)
    (item : Address) :
    distinct.count item < items.count item ↔ 1 < items.count item := by
  by_cases member : item ∈ items
  · rw [List.count_eq_one_of_mem nodup (all item member)]
  · rw [List.count_eq_zero_of_not_mem member]
    omega

/-- Each position of a list of at most five clients is counted.  Removing
repeated clients is harmless exactly where they have no matching entry. -/
theorem summary_counts_positions
    (run : Accepted step .initial history state) (agentId : Nat)
    {clientAddresses : List Address}
    (few : clientAddresses.length ≤ MAX_SUMMARY_CLIENTS)
    (tag1 tag2 : Bytes) :
    (∀ result,
      state.getSummary agentId clientAddresses tag1 tag2 = .ok result →
        result.count = (clientAddresses.map fun client =>
          (state.matchingBy agentId tag1 tag2 client).length).sum ∧
        result.count ≤ (clientAddresses.map fun client =>
          (state.standingBy agentId client).length).sum) ∧
    ∀ distinct : List Address, distinct.Sublist clientAddresses →
      distinct.Nodup → (∀ client ∈ clientAddresses, client ∈ distinct) →
      ((∀ client, 1 < clientAddresses.count client →
          state.matchingBy agentId tag1 tag2 client = []) →
        state.getSummary agentId clientAddresses tag1 tag2 =
          state.getSummary agentId distinct tag1 tag2) ∧
      ∀ result once,
        state.getSummary agentId clientAddresses tag1 tag2 = .ok result →
        state.getSummary agentId distinct tag1 tag2 = .ok once →
        (result = once ↔ ∀ client, 1 < clientAddresses.count client →
          state.matchingBy agentId tag1 tag2 client = []) := by
  constructor
  · intro result isResult
    rw [count_eq_sum run few isResult]
    refine ⟨rfl, List.sum_le_sum ?_⟩
    exact fun client _ =>
      length_matchingBy_le state agentId tag1 tag2 client
  · intro distinct sublist nodup all
    have fewer : distinct.length ≤ MAX_SUMMARY_CLIENTS :=
      sublist.length_le.trans few
    have harmless : (∀ client, 1 < clientAddresses.count client →
        state.matchingBy agentId tag1 tag2 client = []) →
        state.getSummary agentId clientAddresses tag1 tag2 =
          state.getSummary agentId distinct tag1 tag2 := by
      intro nothing
      apply getSummary_congr
      · constructor
        · rintro rfl
          exact List.sublist_nil.mp sublist
        · rintro rfl
          exact List.eq_nil_iff_forall_not_mem.mpr fun client member =>
            List.not_mem_nil (all client member)
      · rw [matching_eq few, matching_eq fewer]
        apply flatMap_sublist sublist
        intro client dropped
        exact nothing client ((count_lt_iff nodup all client).mp dropped)
    refine ⟨harmless, fun result once isResult isOnce => ⟨?_, ?_⟩⟩
    · rintro rfl client repeated
      have sums := (count_eq_sum run few isResult).symm.trans
        (count_eq_sum run fewer isOnce)
      exact List.length_eq_zero_iff.mp (weight_of_sum_sublist sublist sums
        client ((count_lt_iff nodup all client).mpr repeated))
    · intro nothing
      rw [harmless nothing, isOnce] at isResult
      exact (Except.ok.inj isResult).symm

theorem summary_counts_positions_twice :
    ∃ state result, Accepted step .initial [zeroFeedback] state ∧
      state.getSummary 0 [secondOwner, secondOwner] ⟨#[]⟩ ⟨#[]⟩ =
        .ok result ∧
      result.count = ([secondOwner, secondOwner].map fun client =>
        (state.matchingBy 0 ⟨#[]⟩ ⟨#[]⟩ client).length).sum := by
  have run : Accepted step .initial [zeroFeedback] _ := .took .start rfl
  refine ⟨_, ⟨2, 0, 0⟩, run, rfl, ?_⟩
  exact ((summary_counts_positions run 0 (by decide) ⟨#[]⟩ ⟨#[]⟩).1
    ⟨2, 0, 0⟩ rfl).1

/-- One entry of a client that is listed twice is counted twice. -/
theorem repeated_client_counted_twice :
    ∃ state, Accepted step .initial [zeroFeedback] state ∧
      state.getSummary 0 [secondOwner] ⟨#[]⟩ ⟨#[]⟩ =
        .ok { count := 1, summaryValue := 0, summaryValueDecimals := 0 } ∧
      state.getSummary 0 [secondOwner, secondOwner] ⟨#[]⟩ ⟨#[]⟩ =
        .ok { count := 2, summaryValue := 0, summaryValueDecimals := 0 } ∧
      (state.standingBy 0 secondOwner).length = 1 := by
  have run : Accepted step .initial [zeroFeedback] _ := .took .start rfl
  exact ⟨_, run, rfl, rfl, rfl⟩

/-! ## The order of clients -/

theorem wadSum_perm {first second : List FeedbackData}
    (perm : first.Perm second) : wadSum first = wadSum second :=
  (perm.map FeedbackData.wad).sum_eq

theorem IsMode.unique {first second : List FeedbackData}
    (perm : first.Perm second) {decimals other : Nat}
    (isMode : IsMode first decimals) (isOther : IsMode second other) :
    decimals = other := by
  have same : ∀ place, frequency first place = frequency second place :=
    fun _ => perm.countP_eq _
  rcases Nat.lt_trichotomy decimals other with less | equal | less
  · have above := isMode.1 other
    have below := isOther.2 decimals less
    rw [same, same] at above
    omega
  · exact equal
  · have above := isOther.1 decimals
    have below := isMode.2 other less
    rw [same, same] at below
    omega

/-- Entries in two orders have one summary. -/
theorem IsSummary.unique {first second : List FeedbackData}
    (perm : first.Perm second) {result other : SummaryResult}
    (isSummary : IsSummary first result) (isOther : IsSummary second other) :
    result = other := by
  by_cases none : first = []
  · subst none
    rw [isSummary.empty rfl, isOther.empty (List.nil_perm.mp perm)]
  · have some : second ≠ [] := fun isNone =>
      none (List.perm_nil.mp (isNone ▸ perm))
    have decimals : result.summaryValueDecimals =
        other.summaryValueDecimals :=
      IsMode.unique perm (isSummary.mode none) (isOther.mode some)
    have counts : result.count = other.count := by
      rw [isSummary.count, isOther.count, perm.length_eq]
    have values : result.summaryValue = other.summaryValue := by
      rw [isSummary.value none, isOther.value some, wadSum_perm perm,
        perm.length_eq, decimals]
    cases result
    cases other
    simp_all

theorem matching_perm {first second : List Address}
    (few : first.length ≤ MAX_SUMMARY_CLIENTS) (perm : first.Perm second)
    (state : ReputationState) (agentId : Nat) (tag1 tag2 : Bytes) :
    (state.matching agentId first tag1 tag2).Perm
      (state.matching agentId second tag1 tag2) := by
  rw [matching_eq few, matching_eq (perm.length_eq ▸ few)]
  exact perm.flatMap_right _

theorem ok_of_inRange (run : Accepted step .initial history state)
    {agentId : Nat} {clientAddresses : List Address} {tag1 tag2 : Bytes}
    (some : clientAddresses ≠ [])
    (counted : (state.matching agentId clientAddresses tag1 tag2).length <
      2 ^ 64)
    (inRange : InRange
      (state.matching agentId clientAddresses tag1 tag2)) :
    ∃ result,
      state.getSummary agentId clientAddresses tag1 tag2 = .ok result := by
  have scaled := matching_scaled run agentId clientAddresses tag1 tag2
  rcases getSummary_cases scaled some with
    ⟨_, result, isResult, _⟩ | ⟨_, bad, _⟩ | ⟨_, bad, _⟩
  · exact ⟨result, isResult⟩
  · exact absurd ⟨scaled, inRange, counted⟩ bad
  · exact absurd ⟨scaled, inRange, counted⟩ bad

/-- With few enough entries, the range of `i128` alone decides. -/
theorem aggregateOverflow_iff (run : Accepted step .initial history state)
    {agentId : Nat} {clientAddresses : List Address} {tag1 tag2 : Bytes}
    (counted : (state.matching agentId clientAddresses tag1 tag2).length <
      2 ^ 64) :
    state.getSummary agentId clientAddresses tag1 tag2 =
        .error .aggregateOverflow ↔
      ¬ InRange (state.matching agentId clientAddresses tag1 tag2) := by
  by_cases none : clientAddresses = []
  · subst none
    constructor
    · intro stops
      cases stops
    · exact fun outside => absurd .nil outside
  · have scaled := matching_scaled run agentId clientAddresses tag1 tag2
    rcases getSummary_cases scaled none with
      ⟨good, result, isResult, _⟩ | ⟨fills, _⟩ | ⟨_, bad, stops⟩
    · rw [isResult]
      constructor
      · intro stops
        cases stops
      · exact fun outside => absurd good.2.1 outside
    · exact absurd fills.1 (Nat.not_le.mpr counted)
    · rw [stops]
      refine ⟨fun _ inRange => bad ⟨scaled, inRange, counted⟩, fun _ => rfl⟩

/-- Values of one sign stay in range when each of them and the total do. -/
theorem inRange_of_sign {entries : List FeedbackData}
    (sign : (∀ data ∈ entries, 0 ≤ data.value) ∨
      ∀ data ∈ entries, data.value ≤ 0)
    (fits : ∀ data ∈ entries, Fits data.wad) (total : Fits (wadSum entries)) :
    InRange entries := by
  have scale : ∀ data : FeedbackData,
      (0 : Int) ≤ 10 ^ (18 - data.valueDecimals) :=
    fun _ => Int.pow_nonneg (by decide)
  refine ⟨fits, ?_⟩
  rcases sign with positive | negative
  · apply PartialSums.of_nonneg (by decide) _ total.2
    intro value member
    obtain ⟨data, isEntry, rfl⟩ := List.mem_map.mp member
    exact Int.mul_nonneg (positive data isEntry) (scale data)
  · apply PartialSums.of_nonpos (by decide) _ total.1
    intro value member
    obtain ⟨data, isEntry, rfl⟩ := List.mem_map.mp member
    exact Int.mul_nonpos_of_nonpos_of_nonneg (negative data isEntry)
      (scale data)

/-- Two orders of at most five clients never return different summaries.
Where they differ, one of them overflows at a partial sum; that takes values
of both signs, and no value and no total outside of `i128`. -/
theorem summary_orders_agree (run : Accepted step .initial history state)
    (agentId : Nat) {first second : List Address}
    (few : first.length ≤ MAX_SUMMARY_CLIENTS) (perm : first.Perm second)
    (tag1 tag2 : Bytes) :
    (∀ result other, state.getSummary agentId first tag1 tag2 = .ok result →
      state.getSummary agentId second tag1 tag2 = .ok other →
        result = other) ∧
    ((state.matching agentId first tag1 tag2).length < 2 ^ 64 →
      (state.getSummary agentId first tag1 tag2 =
          .error .aggregateOverflow ↔
        ¬ InRange (state.matching agentId first tag1 tag2)) ∧
      ((∃ data ∈ state.matching agentId first tag1 tag2, ¬ Fits data.wad) ∨
          ¬ Fits (wadSum (state.matching agentId first tag1 tag2)) →
        state.getSummary agentId first tag1 tag2 =
            .error .aggregateOverflow ∧
          state.getSummary agentId second tag1 tag2 =
            .error .aggregateOverflow) ∧
      ((∀ data ∈ state.matching agentId first tag1 tag2, 0 ≤ data.value) ∨
          (∀ data ∈ state.matching agentId first tag1 tag2,
            data.value ≤ 0) →
        state.getSummary agentId first tag1 tag2 =
          state.getSummary agentId second tag1 tag2)) := by
  have permuted := matching_perm few perm state agentId tag1 tag2
  have agree : ∀ result other,
      state.getSummary agentId first tag1 tag2 = .ok result →
      state.getSummary agentId second tag1 tag2 = .ok other →
        result = other :=
    fun result other isResult isOther => IsSummary.unique permuted
      (count_of_ok run isResult).2 (count_of_ok run isOther).2
  refine ⟨agree, fun counted => ?_⟩
  have countedToo : (state.matching agentId second tag1 tag2).length <
      2 ^ 64 := permuted.length_eq ▸ counted
  have overflow := aggregateOverflow_iff run counted
  have overflowToo := aggregateOverflow_iff run countedToo
  have exceeds : (∃ data ∈ state.matching agentId first tag1 tag2,
      ¬ Fits data.wad) ∨
      ¬ Fits (wadSum (state.matching agentId first tag1 tag2)) →
      state.getSummary agentId first tag1 tag2 = .error .aggregateOverflow ∧
        state.getSummary agentId second tag1 tag2 =
          .error .aggregateOverflow := by
    intro outside
    rw [overflow, overflowToo]
    rcases outside with ⟨data, member, large⟩ | large
    · exact ⟨fun inRange => large (inRange.1 data member),
        fun inRange => large (inRange.1 data (permuted.subset member))⟩
    · refine ⟨fun inRange => large inRange.2.sum_mem, fun inRange => ?_⟩
      rw [wadSum_perm permuted] at large
      exact large inRange.2.sum_mem
  refine ⟨overflow, exceeds, fun sign => ?_⟩
  by_cases outside : (∃ data ∈ state.matching agentId first tag1 tag2,
      ¬ Fits data.wad) ∨
      ¬ Fits (wadSum (state.matching agentId first tag1 tag2))
  · rw [(exceeds outside).1, (exceeds outside).2]
  · push Not at outside
    obtain ⟨fits, total⟩ := outside
    have inRange := inRange_of_sign sign fits total
    have inRangeToo :
        InRange (state.matching agentId second tag1 tag2) := by
      apply inRange_of_sign
      · simpa only [permuted.mem_iff] using sign
      · exact fun data member => fits data (permuted.symm.subset member)
      · rwa [← wadSum_perm permuted]
    by_cases none : first = []
    · subst none
      rw [List.nil_perm.mp perm]
    · have some : second ≠ [] := fun isNone =>
        none (List.perm_nil.mp (isNone ▸ perm))
      obtain ⟨result, isResult⟩ := ok_of_inRange run none counted inRange
      obtain ⟨other, isOther⟩ := ok_of_inRange run some countedToo inRangeToo
      rw [isResult, isOther, agree result other isResult isOther]

/-- Feedback of a client with 18 decimals. -/
def wadFeedback (client : Address) (value : Int) : ReputationAction :=
  (openAnswers, .giveFeedback client 0 value 18 ⟨#[]⟩ ⟨#[]⟩ ⟨#[]⟩ ⟨#[]⟩
    (Vector.replicate 32 0))

def thirdOwner : Address :=
  { kind := .account, payload := Vector.replicate 32 3 }

/-- Two clients give the greatest value and one the least. -/
def extremeHistory : List ReputationAction :=
  [wadFeedback firstOwner MAX_ABS_VALUE, wadFeedback secondOwner MAX_ABS_VALUE,
    wadFeedback thirdOwner (-MAX_ABS_VALUE)]

theorem summary_orders_agree_extreme :
    ∃ state, Accepted step .initial extremeHistory state ∧
      ∀ result other,
        state.getSummary 0 [firstOwner, thirdOwner, secondOwner] ⟨#[]⟩
          ⟨#[]⟩ = .ok result →
        state.getSummary 0 [thirdOwner, firstOwner, secondOwner] ⟨#[]⟩
          ⟨#[]⟩ = .ok other → result = other := by
  have run : Accepted step .initial extremeHistory _ :=
    .took (.took (.took .start rfl) rfl) rfl
  have perm : [firstOwner, thirdOwner, secondOwner].Perm
      [thirdOwner, firstOwner, secondOwner] := .swap _ _ _
  exact ⟨_, run, (summary_orders_agree run 0 (by decide) perm ⟨#[]⟩
    ⟨#[]⟩).1⟩

/-- One order of three clients overflows at a partial sum, another returns
the mean; every value and the total fit. -/
theorem partial_sum_overflows :
    ∃ state, Accepted step .initial extremeHistory state ∧
      state.getSummary 0 [firstOwner, secondOwner, thirdOwner] ⟨#[]⟩
        ⟨#[]⟩ = .error .aggregateOverflow ∧
      state.getSummary 0 [firstOwner, thirdOwner, secondOwner] ⟨#[]⟩
        ⟨#[]⟩ = .ok { count := 3
                      summaryValue := 33333333333333333333333333333333333333
                      summaryValueDecimals := 18 } ∧
      (∀ data ∈ state.matching 0 [firstOwner, secondOwner, thirdOwner] ⟨#[]⟩
        ⟨#[]⟩, Fits data.wad) ∧
      Fits (wadSum (state.matching 0 [firstOwner, secondOwner, thirdOwner]
        ⟨#[]⟩ ⟨#[]⟩)) := by
  have run : Accepted step .initial extremeHistory _ :=
    .took (.took (.took .start rfl) rfl) rfl
  refine ⟨_, run, rfl, rfl, ?_, ?_⟩
  · decide
  · decide

end ReputationState

end Stellar8004.Contracts
