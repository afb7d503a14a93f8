import Stellar8004.Contracts.ReputationStorage
import Stellar8004.Library.Loops

/-!
# Summaries of feedback

`get_summary` of the reputation registry averages the feedback of listed
clients.  Values are brought to 18 decimals and added with checked 128-bit
arithmetic; the mean is returned with the most frequent decimals.  What can
stop the function, an error or a trap, is modelled step by step.
-/

namespace Stellar8004.Contracts

structure SummaryResult where
  count : Nat
  summaryValue : Int
  summaryValueDecimals : Nat
  deriving DecidableEq

def MAX_SUMMARY_CLIENTS : Nat := 5

def I128_MIN : Int := -2 ^ 127
def I128_MAX : Int := 2 ^ 127 - 1

def POW10 : Vector Int 19 :=
  #v[1, 10, 100, 1000, 10000, 100000, 1000000, 10000000, 100000000,
    1000000000, 10000000000, 100000000000, 1000000000000, 10000000000000,
    100000000000000, 1000000000000000, 10000000000000000,
    100000000000000000, 1000000000000000000]

/-- An array read; it traps outside the array. -/
def readSlot {α : Type} {size : Nat} (slots : Vector α size) (index : Nat) :
    Except ReputationError α :=
  match slots[index]? with
  | some value => .ok value
  | none => .error (.panic "index out of bounds")

def pow10 (exp : Nat) : Except ReputationError Int :=
  readSlot POW10 exp

/-- The result of `checked_mul` or `checked_add` with
`ok_or(AggregateOverflow)`. -/
def checkedI128 (value : Int) : Except ReputationError Int :=
  if I128_MIN ≤ value ∧ value ≤ I128_MAX then .ok value
  else .error .aggregateOverflow

/-- `/` on `i128`: truncates toward zero and traps. -/
def divideI128 (dividend divisor : Int) : Except ReputationError Int :=
  if divisor = 0 then .error (.panic "attempt to divide by zero")
  else if dividend = I128_MIN ∧ divisor = -1 then
    .error (.panic "attempt to divide with overflow")
  else .ok (dividend.tdiv divisor)

/-- `slots[index] += 1` on 64-bit slots, with overflow checks. -/
def incrementSlot {size : Nat} (slots : Vector Nat size) (index : Nat) :
    Except ReputationError (Vector Nat size) := do
  let value ← readSlot slots index
  if value + 1 < 2 ^ 64 then .ok (slots.setIfInBounds index (value + 1))
  else .error (.panic "attempt to add with overflow")

/-- `count.checked_add(1)` on a 64-bit count. -/
def incrementCount (count : Nat) : Except ReputationError Nat :=
  if count + 1 < 2 ^ 64 then .ok (count + 1)
  else .error .aggregateOverflow

/-- The variables of the loop. -/
structure Tally where
  sumWad : Int
  count : Nat
  decimalCounts : Vector Nat 19

def Tally.zero : Tally :=
  { sumWad := 0, count := 0, decimalCounts := Vector.replicate 19 0 }

/-- The entries the loop does not skip. -/
def FeedbackData.counts (tag1 tag2 : Bytes) (data : FeedbackData) : Bool :=
  if data.isRevoked then false
  else if tag1.size ≠ 0 ∧ data.tag1 ≠ tag1 then false
  else if tag2.size ≠ 0 ∧ data.tag2 ≠ tag2 then false
  else true

/-- What the loop does with an entry it does not skip. -/
def Tally.add (tally : Tally) (data : FeedbackData) :
    Except ReputationError Tally := do
  let dec := if 18 < data.valueDecimals then 18 else data.valueDecimals
  let factor ← pow10 (18 - dec)
  let normalized ← checkedI128 (data.value * factor)
  let sumWad ← checkedI128 (tally.sumWad + normalized)
  let decimalCounts ← incrementSlot tally.decimalCounts dec
  let count ← incrementCount tally.count
  return { sumWad, count, decimalCounts }

/-- The most frequent decimals; of equals the lowest. -/
def modeDecimals (decimalCounts : Vector Nat 19) :
    Except ReputationError Nat := do
  let (modeDec, _) ← (List.range 19).foldlM (fun best d => do
    let freq ← readSlot decimalCounts d
    return if best.2 < freq then (d, freq) else best) (0, 0)
  return modeDec

namespace ReputationState

/-- The inner loop, over the indices `1..=last` of a client. -/
def summarizeClient (state : ReputationState) (agentId : Nat)
    (tag1 tag2 : Bytes) (tally : Tally) (client : Address) :
    Except ReputationError Tally :=
  (List.range' 1 (state.lastIndex agentId client)).foldlM (fun tally index =>
    match state.feedback agentId client index with
    | none => .ok tally
    | some data =>
        if data.counts tag1 tag2 then tally.add data else .ok tally) tally

def getSummary (state : ReputationState) (agentId : Nat)
    (clientAddresses : List Address) (tag1 tag2 : Bytes) :
    Except ReputationError SummaryResult := do
  if clientAddresses = [] then .error .clientAddressesRequired
  else
    let limit := min clientAddresses.length MAX_SUMMARY_CLIENTS
    let tally ← (clientAddresses.take limit).foldlM
      (state.summarizeClient agentId tag1 tag2) Tally.zero
    if tally.count = 0 then
      return { count := 0, summaryValue := 0, summaryValueDecimals := 0 }
    else
      let modeDec ← modeDecimals tally.decimalCounts
      let avgWad ← divideI128 tally.sumWad tally.count
      let scale ← pow10 (18 - modeDec)
      let summaryValue ← divideI128 avgWad scale
      return { count := tally.count, summaryValue
               summaryValueDecimals := modeDec }

end ReputationState

/-! ## What is summarised -/

/-- Not revoked, with every tag that is asked for. -/
def FeedbackData.Matches (tag1 tag2 : Bytes) (data : FeedbackData) : Prop :=
  data.isRevoked = false ∧ (tag1.size ≠ 0 → data.tag1 = tag1) ∧
    (tag2.size ≠ 0 → data.tag2 = tag2)

instance (tag1 tag2 : Bytes) (data : FeedbackData) :
    Decidable (data.Matches tag1 tag2) :=
  inferInstanceAs (Decidable (_ ∧ _ ∧ _))

namespace ReputationState

/-- The entries of a client about an agent, in the order of their index. -/
def entriesBy (state : ReputationState) (agentId : Nat) (client : Address) :
    List FeedbackData :=
  (List.range' 1 (state.lastIndex agentId client)).filterMap
    (state.feedback agentId client)

/-- The entries of a client that match the tags. -/
def matchingBy (state : ReputationState) (agentId : Nat) (tag1 tag2 : Bytes)
    (client : Address) : List FeedbackData :=
  (state.entriesBy agentId client).filter (·.Matches tag1 tag2)

/-- The entries that match, for the first five positions of a list. -/
def matching (state : ReputationState) (agentId : Nat)
    (clientAddresses : List Address) (tag1 tag2 : Bytes) :
    List FeedbackData :=
  (clientAddresses.take MAX_SUMMARY_CLIENTS).flatMap
    (state.matchingBy agentId tag1 tag2)

end ReputationState

theorem FeedbackData.counts_eq (tag1 tag2 : Bytes) (data : FeedbackData) :
    data.counts tag1 tag2 = decide (data.Matches tag1 tag2) := by
  unfold counts Matches
  split
  · simp [*]
  split
  · rename_i differs
    simp [differs]
  split
  · rename_i differs
    simp [differs]
  · simp_all

namespace ReputationState

variable (state : ReputationState) (agentId : Nat) (tag1 tag2 : Bytes)

theorem summarizeClient_eq (tally : Tally) (client : Address) :
    state.summarizeClient agentId tag1 tag2 tally client =
      (state.matchingBy agentId tag1 tag2 client).foldlM Tally.add tally := by
  unfold summarizeClient matchingBy entriesBy
  rw [List.foldlM_filter, List.foldlM_filterMap]
  congr 1
  funext tally index
  cases state.feedback agentId client index with
  | none => rfl
  | some data => simp only [FeedbackData.counts_eq, decide_eq_true_eq]; rfl

/-- The two loops run over the matching entries. -/
theorem summarize_eq (clientAddresses : List Address) (tally : Tally) :
    (clientAddresses.take
        (min clientAddresses.length MAX_SUMMARY_CLIENTS)).foldlM
      (state.summarizeClient agentId tag1 tag2) tally =
      (state.matching agentId clientAddresses tag1 tag2).foldlM Tally.add
        tally := by
  unfold matching
  rw [Nat.min_comm, ← List.take_take, List.take_length]
  generalize clientAddresses.take MAX_SUMMARY_CLIENTS = clients
  induction clients generalizing tally with
  | nil => rfl
  | cons client clients induction =>
      rw [List.foldlM_cons, List.flatMap_cons, List.foldlM_append,
        summarizeClient_eq]
      congr 1
      funext tally
      exact induction tally

end ReputationState

/-! ## One entry -/

/-- A value at 18 decimals. -/
def FeedbackData.wad (data : FeedbackData) : Int :=
  data.value * 10 ^ (18 - data.valueDecimals)

/-- The exact sum of the values. -/
def wadSum (entries : List FeedbackData) : Int :=
  (entries.map FeedbackData.wad).sum

def Fits (value : Int) : Prop :=
  value ∈ Set.Icc I128_MIN I128_MAX

instance (value : Int) : Decidable (Fits value) :=
  inferInstanceAs (Decidable (_ ∧ _))

/-- How many entries have the given decimals. -/
def frequency (entries : List FeedbackData) (decimals : Nat) : Nat :=
  entries.countP (·.valueDecimals = decimals)

/-- The loop's variables after all of some entries. -/
def Tally.of (entries : List FeedbackData) : Tally :=
  { sumWad := wadSum entries, count := entries.length
    decimalCounts := Vector.ofFn fun slot => frequency entries slot }

theorem pow10_eq {exp : Nat} (small : exp ≤ 18) :
    pow10 exp = .ok (10 ^ exp) := by
  unfold pow10 readSlot
  interval_cases exp <;> rfl

theorem readSlot_ofFn {α : Type} {size : Nat} (value : Fin size → α)
    {index : Nat} (inside : index < size) :
    readSlot (Vector.ofFn value) index = .ok (value ⟨index, inside⟩) := by
  unfold readSlot
  rw [Vector.getElem?_eq_getElem inside, Vector.getElem_ofFn]

theorem wadSum_snoc (entries : List FeedbackData) (data : FeedbackData) :
    wadSum (entries ++ [data]) = wadSum entries + data.wad := by
  simp [wadSum]

theorem frequency_snoc (entries : List FeedbackData) (data : FeedbackData)
    (decimals : Nat) :
    frequency (entries ++ [data]) decimals =
      frequency entries decimals +
        if data.valueDecimals = decimals then 1 else 0 := by
  simp [frequency, List.countP_append, List.countP_cons]

/-- The slot of an entry counts one more; the others stay. -/
theorem setIfInBounds_of (entries : List FeedbackData) (data : FeedbackData) :
    (Tally.of entries).decimalCounts.setIfInBounds data.valueDecimals
        (frequency entries data.valueDecimals + 1) =
      (Tally.of (entries ++ [data])).decimalCounts := by
  apply Vector.ext
  intro index inside
  simp only [Tally.of, Vector.getElem_setIfInBounds, Vector.getElem_ofFn,
    frequency_snoc]
  split
  · rename_i same
    rw [same]
  · rfl

theorem incrementSlot_of (entries : List FeedbackData) {data : FeedbackData}
    (scale : data.valueDecimals ≤ 18) :
    incrementSlot (Tally.of entries).decimalCounts data.valueDecimals =
      if 2 ^ 64 ≤ frequency entries data.valueDecimals + 1 then
        .error (.panic "attempt to add with overflow")
      else .ok (Tally.of (entries ++ [data])).decimalCounts := by
  have slot : readSlot (Tally.of entries).decimalCounts data.valueDecimals =
      .ok (frequency entries data.valueDecimals) :=
    readSlot_ofFn _ (by omega)
  unfold incrementSlot
  simp only [slot, bind, Except.bind, setIfInBounds_of]
  split
  · rw [if_neg (by omega)]
  · rw [if_pos (by omega)]

theorem incrementCount_eq (count : Nat) :
    incrementCount count =
      if 2 ^ 64 ≤ count + 1 then .error .aggregateOverflow
      else .ok (count + 1) := by
  unfold incrementCount
  split
  · rw [if_neg (by omega)]
  · rw [if_pos (by omega)]

/-- What the loop does with one entry, after those it has seen. -/
theorem Tally.add_of (entries : List FeedbackData) {data : FeedbackData}
    (scale : data.valueDecimals ≤ 18) :
    (Tally.of entries).add data =
      if ¬ Fits data.wad ∨ ¬ Fits (wadSum (entries ++ [data])) then
        .error .aggregateOverflow
      else if 2 ^ 64 ≤ frequency entries data.valueDecimals + 1 then
        .error (.panic "attempt to add with overflow")
      else if 2 ^ 64 ≤ entries.length + 1 then .error .aggregateOverflow
      else .ok (Tally.of (entries ++ [data])) := by
  have small : ¬ 18 < data.valueDecimals := Nat.not_lt.mpr scale
  have checked : ∀ value, checkedI128 value =
      if Fits value then .ok value else .error .aggregateOverflow :=
    fun _ => rfl
  have sum : (Tally.of entries).sumWad + data.wad =
      wadSum (entries ++ [data]) := (wadSum_snoc entries data).symm
  simp only [Tally.add, if_neg small, pow10_eq (Nat.sub_le 18 _)]
  by_cases fits : Fits data.wad
  · have normalized : checkedI128 (data.value *
        10 ^ (18 - data.valueDecimals)) = .ok data.wad := if_pos fits
    by_cases fitsSum : Fits (wadSum (entries ++ [data]))
    · rw [if_neg (by simp [fits, fitsSum])]
      simp only [bind, Except.bind, normalized, sum, checked, if_pos fitsSum,
        incrementSlot_of entries scale]
      by_cases full : 2 ^ 64 ≤ frequency entries data.valueDecimals + 1
      · simp only [if_pos full]
      · simp only [if_neg full]
        have counted := incrementCount_eq (Tally.of entries).count
        by_cases many : 2 ^ 64 ≤ entries.length + 1
        · rw [counted.trans (if_pos many), if_pos many]
        · rw [counted.trans (if_neg many), if_neg many]
          simp [Tally.of, pure, Except.pure]
    · rw [if_pos (.inr fitsSum)]
      simp only [bind, Except.bind, normalized, sum, checked,
        if_neg fitsSum]
  · have overflows : checkedI128 (data.value *
        10 ^ (18 - data.valueDecimals)) = .error .aggregateOverflow :=
      if_neg fits
    rw [if_pos (.inl fits)]
    simp only [bind, Except.bind, overflows]

/-! ## All entries -/

/-- No value and no partial sum leaves `i128`. -/
def InRange (entries : List FeedbackData) : Prop :=
  (∀ data ∈ entries, Fits data.wad) ∧
    PartialSums I128_MIN I128_MAX (entries.map FeedbackData.wad)

/-- The entries that fill a slot of `decimal_counts` before the count is
full: the first `2^64` of them have the same decimals, and nothing leaves
`i128` on the way there. -/
def FillsSlot (entries : List FeedbackData) : Prop :=
  2 ^ 64 ≤ entries.length ∧ InRange (entries.take (2 ^ 64)) ∧
    ∃ decimals, ∀ data ∈ entries.take (2 ^ 64), data.valueDecimals = decimals

theorem InRange.nil : InRange [] := by
  refine ⟨by simp, fun before isPrefix => ?_⟩
  rw [List.prefix_nil.mp isPrefix]
  decide

theorem InRange.snoc_iff {entries : List FeedbackData}
    {data : FeedbackData} :
    InRange (entries ++ [data]) ↔ InRange entries ∧ Fits data.wad ∧
      Fits (wadSum (entries ++ [data])) := by
  unfold InRange
  rw [List.map_append, List.map_singleton, PartialSums.snoc_iff,
    List.forall_mem_append]
  simp only [List.mem_singleton, forall_eq, wadSum, Fits, List.map_append,
    List.map_singleton]
  tauto

theorem InRange.of_prefix {entries before : List FeedbackData}
    (inRange : InRange entries) (isPrefix : before <+: entries) :
    InRange before := by
  refine ⟨fun data member => inRange.1 data (isPrefix.subset member), ?_⟩
  exact fun first earlier => inRange.2 first
    (earlier.trans (isPrefix.map FeedbackData.wad))

/-- Entries as the loop gets through them. -/
def Summable (entries : List FeedbackData) : Prop :=
  (∀ data ∈ entries, data.valueDecimals ≤ 18) ∧ InRange entries ∧
    entries.length < 2 ^ 64

theorem Tally.zero_eq : Tally.zero = Tally.of [] := by
  have slots : Vector.replicate 19 0 =
      Vector.ofFn fun slot : Fin 19 => frequency [] slot := by
    apply Vector.ext
    intro index inside
    simp [frequency]
  simp [Tally.zero, Tally.of, slots, wadSum]

theorem frequency_le (entries : List FeedbackData) (decimals : Nat) :
    frequency entries decimals ≤ entries.length :=
  List.countP_le_length

theorem frequency_eq_length_iff {entries : List FeedbackData}
    {decimals : Nat} :
    frequency entries decimals = entries.length ↔
      ∀ data ∈ entries, data.valueDecimals = decimals := by
  unfold frequency
  rw [List.countP_eq_length]
  simp

theorem Summable.loop :
    LoopSummary Tally.add Tally.of Summable where
  start := ⟨by simp, .nil, by decide⟩
  earlier := by
    rintro before data ⟨scaled, inRange, few⟩
    rw [List.length_append] at few
    exact ⟨fun other member => scaled other (by simp [member]),
      (InRange.snoc_iff.mp inRange).1, by omega⟩
  goesOn := by
    rintro before data ⟨scaled, inRange, few⟩
    obtain ⟨_, fits, fitsSum⟩ := InRange.snoc_iff.mp inRange
    have bound := frequency_le before data.valueDecimals
    rw [List.length_append, List.length_singleton] at few
    rw [Tally.add_of before (scaled data (by simp)),
      if_neg (by simp [fits, fitsSum]), if_neg (by omega),
      if_neg (by omega)]

/-- Up to the entry that fills a slot, the entries are the first `2^64`. -/
theorem fillsSlot_iff {before rest : List FeedbackData} {data : FeedbackData}
    (full : before.length + 1 = 2 ^ 64)
    (inRange : InRange (before ++ [data])) :
    FillsSlot (before ++ data :: rest) ↔
      2 ^ 64 ≤ frequency before data.valueDecimals + 1 := by
  have firsts : (before ++ data :: rest).take (2 ^ 64) = before ++ [data] := by
    have split : before ++ data :: rest = (before ++ [data]) ++ rest := by
      simp
    rw [split, ← full, List.take_left' (by simp)]
  have bound := frequency_le before data.valueDecimals
  unfold FillsSlot
  rw [firsts]
  constructor
  · rintro ⟨_, _, decimals, same⟩
    have isSame : data.valueDecimals = decimals := same data (by simp)
    have all : frequency before data.valueDecimals = before.length := by
      apply frequency_eq_length_iff.mpr
      intro other member
      rw [isSame]
      exact same other (by simp [member])
    omega
  · intro filled
    have all : frequency before data.valueDecimals = before.length := by
      omega
    refine ⟨?_, inRange, data.valueDecimals, ?_⟩
    · rw [List.length_append, List.length_cons]
      omega
    · intro other member
      rcases List.mem_append.mp member with old | new
      · exact frequency_eq_length_iff.mp all other old
      · rw [List.mem_singleton.mp new]

/-- Where the loop ends, by the entries it runs over. -/
theorem foldlM_add {entries : List FeedbackData}
    (scaled : ∀ data ∈ entries, data.valueDecimals ≤ 18) :
    (Summable entries ∧
      entries.foldlM Tally.add Tally.zero = .ok (Tally.of entries)) ∨
    (FillsSlot entries ∧ ¬ Summable entries ∧
      entries.foldlM Tally.add Tally.zero =
        .error (.panic "attempt to add with overflow")) ∨
    (¬ FillsSlot entries ∧ ¬ Summable entries ∧
      entries.foldlM Tally.add Tally.zero = .error .aggregateOverflow) := by
  rw [Tally.zero_eq]
  by_cases good : Summable entries
  · exact .inl ⟨good, Summable.loop.foldlM_good good⟩
  · right
    obtain ⟨before, data, rest, rfl, isGood, isBad, stops⟩ :=
      Summable.loop.foldlM_bad good
    rw [stops, Tally.add_of before (scaled data (by simp))]
    by_cases inRange : InRange (before ++ [data])
    · -- only the number of entries can be too large
      have full : before.length + 1 = 2 ^ 64 := by
        have short := isGood.2.2
        by_contra room
        apply isBad
        refine ⟨fun other member => scaled other ?_, inRange, ?_⟩
        · rcases List.mem_append.mp member with old | new
          · simp [old]
          · simp [List.mem_singleton.mp new]
        · rw [List.length_append, List.length_singleton]
          omega
      obtain ⟨_, fits, fitsSum⟩ := InRange.snoc_iff.mp inRange
      rw [fillsSlot_iff full inRange, if_neg (by simp [fits, fitsSum])]
      by_cases fills : 2 ^ 64 ≤ frequency before data.valueDecimals + 1
      · left
        rw [if_pos fills]
        exact ⟨fills, good, rfl⟩
      · right
        rw [if_neg fills, if_pos (by omega)]
        exact ⟨fills, good, rfl⟩
    · right
      have overflows : ¬ Fits data.wad ∨
          ¬ Fits (wadSum (before ++ [data])) := by
        by_contra! fits
        exact inRange (InRange.snoc_iff.mpr ⟨isGood.2.1, fits⟩)
      rw [if_pos overflows]
      refine ⟨?_, good, rfl⟩
      rintro ⟨_, inside, _⟩
      apply inRange
      apply inside.of_prefix
      rw [List.prefix_take_iff]
      constructor
      · exact ⟨rest, by simp⟩
      · rw [List.length_append, List.length_singleton]
        have short := isGood.2.2
        omega

/-! ## The mean -/

/-- The lowest of the most frequent decimals. -/
def IsMode (entries : List FeedbackData) (decimals : Nat) : Prop :=
  (∀ other, frequency entries other ≤ frequency entries decimals) ∧
    ∀ other < decimals, frequency entries other < frequency entries decimals

/-- The exact mean, truncated once, at the most frequent decimals. -/
structure IsSummary (entries : List FeedbackData) (result : SummaryResult) :
    Prop where
  count : result.count = entries.length
  empty : entries = [] →
    result = { count := 0, summaryValue := 0, summaryValueDecimals := 0 }
  mode : entries ≠ [] → IsMode entries result.summaryValueDecimals
  value : entries ≠ [] → result.summaryValue =
    (wadSum entries).tdiv
      (entries.length * 10 ^ (18 - result.summaryValueDecimals))

/-- Truncating twice loses nothing more than truncating once. -/
theorem tdiv_tdiv_natCast (dividend : Int) (first second : Nat) :
    (dividend.tdiv first).tdiv second = dividend.tdiv (first * second) := by
  obtain ⟨size, rfl | rfl⟩ := dividend.eq_nat_or_neg
  · norm_cast
    rw [← Int.ofNat_tdiv, ← Int.ofNat_tdiv, ← Int.ofNat_tdiv,
      Nat.div_div_eq_div_mul]
  · simp only [Int.neg_tdiv]
    norm_cast
    rw [← Int.ofNat_tdiv, ← Int.ofNat_tdiv, ← Int.ofNat_tdiv,
      Nat.div_div_eq_div_mul]

theorem divideI128_pos {dividend divisor : Int} (positive : 0 < divisor) :
    divideI128 dividend divisor = .ok (dividend.tdiv divisor) := by
  unfold divideI128
  rw [if_neg (by omega), if_neg (by omega)]

/-- Reading the slots in turn is a search among the frequencies. -/
theorem foldlM_readSlot (entries : List FeedbackData) (places : List Nat)
    (inside : ∀ place ∈ places, place < 19) (best : Nat × Nat) :
    places.foldlM (fun best d => do
        let freq ← readSlot (Tally.of entries).decimalCounts d
        return if best.2 < freq then (d, freq) else best) best =
      .ok (places.foldl (betterPlace (frequency entries)) best) := by
  induction places generalizing best with
  | nil => rfl
  | cons place places induction =>
      have slot : readSlot (Tally.of entries).decimalCounts place =
          .ok (frequency entries place) :=
        readSlot_ofFn _ (inside place (by simp))
      rw [List.foldlM_cons, slot]
      exact induction (fun other member => inside other (by simp [member]))
        (betterPlace (frequency entries) best place)

theorem frequency_pos {entries : List FeedbackData} {data : FeedbackData}
    (member : data ∈ entries) : 0 < frequency entries data.valueDecimals := by
  unfold frequency
  rw [List.countP_pos_iff]
  exact ⟨data, member, by simp⟩

theorem modeDecimals_of {entries : List FeedbackData}
    (scaled : ∀ data ∈ entries, data.valueDecimals ≤ 18)
    (some : entries ≠ []) :
    ∃ decimals, modeDecimals (Tally.of entries).decimalCounts =
        .ok decimals ∧ decimals ≤ 18 ∧ IsMode entries decimals := by
  have found := foldl_betterPlace (frequency entries) 0 19
  have search := foldlM_readSlot entries (List.range 19) (by simp) (0, 0)
  dsimp only at found
  generalize (List.range 19).foldl (betterPlace (frequency entries)) (0, 0) =
    best at found search
  obtain ⟨_, greatest, isFirst⟩ := found
  obtain ⟨data, member⟩ := List.exists_mem_of_ne_nil entries some
  have positive : 0 < best.2 :=
    Nat.lt_of_lt_of_le (frequency_pos member)
      (greatest _ (Nat.lt_succ_of_le (scaled data member)))
  obtain ⟨inside, isValue, smaller⟩ := isFirst positive
  refine ⟨best.1, ?_, by omega, ?_, ?_⟩
  · unfold modeDecimals
    rw [search]
    rfl
  · intro other
    rw [isValue]
    by_cases small : other < 19
    · exact greatest other small
    · have none : frequency entries other = 0 := by
        unfold frequency
        rw [List.countP_eq_zero]
        intro data member
        have bound := scaled data member
        simp only [decide_eq_true_eq]
        omega
      omega
  · rw [isValue]
    exact smaller

/-! ## The whole function -/

namespace ReputationState

variable {state : ReputationState} {agentId : Nat}
  {clientAddresses : List Address} {tag1 tag2 : Bytes}

/-- Where `get_summary` ends, by the entries that match. -/
theorem getSummary_cases
    (scaled : ∀ data ∈ state.matching agentId clientAddresses tag1 tag2,
      data.valueDecimals ≤ 18) (some : clientAddresses ≠ []) :
    (Summable (state.matching agentId clientAddresses tag1 tag2) ∧
      ∃ result,
        state.getSummary agentId clientAddresses tag1 tag2 = .ok result ∧
        IsSummary (state.matching agentId clientAddresses tag1 tag2)
          result) ∨
    (FillsSlot (state.matching agentId clientAddresses tag1 tag2) ∧
      ¬ Summable (state.matching agentId clientAddresses tag1 tag2) ∧
      state.getSummary agentId clientAddresses tag1 tag2 =
        .error (.panic "attempt to add with overflow")) ∨
    (¬ FillsSlot (state.matching agentId clientAddresses tag1 tag2) ∧
      ¬ Summable (state.matching agentId clientAddresses tag1 tag2) ∧
      state.getSummary agentId clientAddresses tag1 tag2 =
        .error .aggregateOverflow) := by
  unfold getSummary
  rw [if_neg some]
  dsimp only
  rw [summarize_eq]
  generalize state.matching agentId clientAddresses tag1 tag2 = entries at *
  rcases foldlM_add scaled with ⟨good, isTally⟩ |
    ⟨fills, bad, stops⟩ | ⟨fills, bad, stops⟩
  · left
    refine ⟨good, ?_⟩
    rw [isTally]
    by_cases none : entries = []
    · subst none
      exact ⟨_, rfl, rfl, fun _ => rfl, absurd rfl, absurd rfl⟩
    · obtain ⟨decimals, isModeDecimals, small, isMode⟩ :=
        modeDecimals_of scaled none
      have counted : 0 < entries.length := List.length_pos_iff.mpr none
      have isMean := tdiv_tdiv_natCast (wadSum entries) entries.length
        (10 ^ (18 - decimals))
      refine ⟨{ count := entries.length
                summaryValue := (wadSum entries).tdiv
                  (entries.length * 10 ^ (18 - decimals))
                summaryValueDecimals := decimals }, ?_, rfl, fun isNone =>
          absurd isNone none, fun _ => isMode, fun _ => rfl⟩
      push_cast at isMean
      have counts : (Tally.of entries).count = entries.length := rfl
      have sums : (Tally.of entries).sumWad = wadSum entries := rfl
      simp only [bind, Except.bind, isModeDecimals, counts, sums,
        if_neg counted.ne', divideI128_pos (Int.natCast_pos.mpr counted),
        pow10_eq (Nat.sub_le 18 decimals),
        divideI128_pos (Int.pow_pos (by decide : (0 : Int) < 10)), isMean]
      rfl
  · exact .inr (.inl ⟨fills, bad, by rw [stops]; rfl⟩)
  · exact .inr (.inr ⟨fills, bad, by rw [stops]; rfl⟩)

end ReputationState

end Stellar8004.Contracts
