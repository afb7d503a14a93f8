import Stellar8004.Indexer.Tables
import Stellar8004.Library.Failures
import Stellar8004.Library.Loops

/-!
# The leaderboard

The view `leaderboard_scores` of `packages/d1/migrations/0001_init.sql`.  On
its exact path the score is computed in 64-bit integers from the decimal texts
of the values; the fallback to REAL is not modelled, nor a fraction in
`value_decimals`, which the column would keep as a REAL.
-/

namespace Stellar8004.Web

open Stellar8004.Indexer

/-- A row of `feedback` with its unique key. -/
structure FeedbackEntry where
  key : FeedbackKey
  row : FeedbackRow

/-- The CHECKs of the table. -/
structure FeedbackEntry.Checked (entry : FeedbackEntry) : Prop where
  client : sqlLength entry.key.clientAddress ≤ 256
  index : 1 ≤ entry.key.feedbackIndex
  value : isDecimalText entry.row.value = true
  decimals : entry.row.valueDecimals ≤ 18

/-- No NUL hides the rest of the value from `GLOB`. -/
def FeedbackEntry.Whole (entry : FeedbackEntry) : Prop :=
  Char.ofNat 0 ∉ entry.row.value.toList

/-! ## SQLite -/

/-- A 64-bit integer.  What is beyond becomes a REAL, or an error in a sum. -/
def int64 (value : Int) : Except String Int :=
  if -2 ^ 63 ≤ value ∧ value < 2 ^ 63 then .ok value
  else .error "integer overflow"

/-- `ltrim(text, '-')`. -/
def ltrimDash (text : String) : String :=
  String.ofList (text.toList.dropWhile (· = '-'))

/-- `substr(text, 1, count)`. -/
def leading (text : String) (count : Nat) : String :=
  String.ofList (text.toList.take count)

def isSpace (char : Char) : Bool :=
  char = ' ' || (0x09 ≤ char.toNat && char.toNat ≤ 0x0d)

/-- The number a list of decimal digits stands for. -/
def digitsValue (digits : List Char) : Nat :=
  digits.foldl (fun value digit => 10 * value + (digit.toNat - '0'.toNat)) 0

/-- The longest prefix that is an integer, and zero without one. -/
def integerPrefix : List Char → Int
  | '-' :: rest => -digitsValue (rest.takeWhile Char.isDigit)
  | '+' :: rest => digitsValue (rest.takeWhile Char.isDigit)
  | rest => digitsValue (rest.takeWhile Char.isDigit)

/-- `CAST(text AS INTEGER)`, which stops at the bounds of 64 bits. -/
def castInteger (text : String) : Int :=
  let value := integerPrefix (text.toList.dropWhile isSpace)
  max (-2 ^ 63) (min value (2 ^ 63 - 1))

/-! ## The view -/

/-- `fb`: feedback of known agents, not revoked and not by the owner. -/
def fb (agents : Nat → Option AgentRow) (feedback : List FeedbackEntry) :
    List FeedbackEntry :=
  feedback.filter fun entry =>
    match agents entry.key.agentId with
    | none => false
    | some agent =>
        !entry.row.isRevoked && decide (entry.key.clientAddress ≠ agent.owner)

/-- The group of an agent. -/
def groupOf (agents : Nat → Option AgentRow) (feedback : List FeedbackEntry)
    (agentId : Nat) : List FeedbackEntry :=
  (fb agents feedback).filter (·.key.agentId = agentId)

/-- `max(MAX(d), 2)`, the common scale. -/
def commonScale (rows : List FeedbackEntry) : Nat :=
  max ((rows.map (·.row.valueDecimals)).foldl max 0) 2

/-- `MAX(length(ltrim(v, '-')) - d)`. -/
def intDigits (rows : List FeedbackEntry) : Option Int :=
  (rows.map fun entry => (sqlLength (ltrimDash entry.row.value) : Int) -
    entry.row.valueDecimals).max?

def isExact (rows : List FeedbackEntry) : Bool :=
  match intDigits rows with
  | none => false
  | some digits =>
      commonScale rows ≤ 6 && digits ≤ 4 && rows.length ≤ 10000000

/-- `CAST(fb.v || substr('000000', 1, g.k - fb.d) AS INTEGER)`. -/
def scaledValue (scale : Nat) (entry : FeedbackEntry) : Int :=
  castInteger (entry.row.value ++
    leading "000000" (scale - entry.row.valueDecimals))

/-- `s`, which is an error where a partial sum overflows. -/
def exactSum (rows : List FeedbackEntry) : Except String Int :=
  rows.foldlM (fun sum entry =>
    int64 (sum + scaledValue (commonScale rows) entry)) 0

/-- `n * CAST('1' || substr('0000', 1, g.k - 2) AS INTEGER)`. -/
def exactWeight (rows : List FeedbackEntry) : Except String Int :=
  int64 (rows.length *
    castInteger ("1" ++ leading "0000" (commonScale rows - 2)))

/-- The integer that is divided by 100.0. -/
def exactCents (rows : List FeedbackEntry) : Except String Int := do
  let s ← exactSum rows
  let m ← exactWeight rows
  let size ← int64 |s|
  let twice ← int64 (2 * size)
  let numerator ← int64 (twice + m)
  let denominator ← int64 (2 * m)
  int64 ((if s < 0 then -1 else 1) * numerator.tdiv denominator)

/-- The columns computed from feedback.  `cents` is the score before the
division, `none` where it is not exact. -/
structure LeaderboardScore where
  feedbackCount : Nat
  uniqueClients : Nat
  scoreExact : Bool
  cents : Option (Except String Int)

def leaderboardScore (agents : Nat → Option AgentRow)
    (feedback : List FeedbackEntry) (agentId : Nat) : LeaderboardScore :=
  let rows := groupOf agents feedback agentId
  if rows.isEmpty then
    { feedbackCount := 0, uniqueClients := 0, scoreExact := true
      cents := some (.ok 0) }
  else
    { feedbackCount := rows.length
      uniqueClients := (rows.map (·.key.clientAddress)).dedup.length
      scoreExact := isExact rows
      cents := if isExact rows then some (exactCents rows) else none }

/-! ## What the score is -/

/-- The integer a decimal text stands for: the one its digits write, up to
where they end. -/
def decimalValue (text : String) : Int :=
  match text.toList with
  | '-' :: digits => -digitsValue (digits.takeWhile Char.isDigit)
  | digits => digitsValue (digits.takeWhile Char.isDigit)

/-- What a feedback gives. -/
def FeedbackEntry.score (entry : FeedbackEntry) : ℚ :=
  decimalValue entry.row.value / 10 ^ entry.row.valueDecimals

/-- The feedback that counts for an agent: not revoked and not given by its
current owner. -/
def countedFeedback (agents : Nat → Option AgentRow)
    (feedback : List FeedbackEntry) (agentId : Nat) : List FeedbackEntry :=
  feedback.filter fun entry =>
    entry.key.agentId = agentId && !entry.row.isRevoked &&
      (agents agentId).any fun agent =>
        decide (entry.key.clientAddress ≠ agent.owner)

def meanScore (entries : List FeedbackEntry) : ℚ :=
  (entries.map FeedbackEntry.score).sum / entries.length

/-- The nearest integer, and of two the one further from zero. -/
def roundHalfAway (value : ℚ) : ℤ :=
  if value < 0 then -⌊-value + 1 / 2⌋ else ⌊value + 1 / 2⌋

theorem groupOf_eq (agents : Nat → Option AgentRow)
    (feedback : List FeedbackEntry) (agentId : Nat) :
    groupOf agents feedback agentId =
      countedFeedback agents feedback agentId := by
  unfold groupOf fb countedFeedback
  rw [List.filter_filter]
  apply List.filter_congr
  intro entry _
  by_cases mine : entry.key.agentId = agentId
  · subst mine
    cases agents entry.key.agentId <;> simp
  · simp [mine]

/-! ## Decimal texts -/

theorem digitsValue_snoc (digits : List Char) (digit : Char) :
    digitsValue (digits ++ [digit]) =
      10 * digitsValue digits + (digit.toNat - '0'.toNat) := by
  simp [digitsValue]

/-- Appending zeros multiplies. -/
theorem digitsValue_zeros (digits : List Char) (count : Nat) :
    digitsValue (digits ++ List.replicate count '0') =
      digitsValue digits * 10 ^ count := by
  induction count with
  | zero => simp
  | succ count induction =>
      rw [List.replicate_succ', ← List.append_assoc, digitsValue_snoc,
        induction, Nat.pow_succ, Nat.sub_self, Nat.add_zero]
      ring

theorem digitsValue_lt {digits : List Char}
    (all : ∀ digit ∈ digits, digit.isDigit = true) :
    digitsValue digits < 10 ^ digits.length := by
  induction digits using List.reverseRecOn with
  | nil => exact Nat.one_pos
  | append_singleton digits digit induction =>
      have shorter := induction fun other member =>
        all other (List.mem_append_left _ member)
      have isDigit := all digit (by simp)
      have small : digit.toNat - '0'.toNat < 10 := by
        simp only [Char.isDigit, Bool.and_eq_true, decide_eq_true_eq] at isDigit
        have high : digit.toNat ≤ 57 := isDigit.2
        have zero : '0'.toNat = 48 := rfl
        omega
      rw [digitsValue_snoc, List.length_append, List.length_singleton,
        Nat.pow_succ]
      omega

/-- A text without a NUL that passes the CHECKs. -/
def IsDecimal (text : String) : Prop :=
  isDecimalText text = true ∧ Char.ofNat 0 ∉ text.toList

/-- The form of the texts that pass the CHECKs and have no NUL. -/
theorem IsDecimal.form {text : String} (isDecimal : IsDecimal text) :
    ∃ digits, digits ≠ [] ∧ (∀ digit ∈ digits, digit.isDigit = true) ∧
      (text.toList = digits ∨ text.toList = '-' :: digits) := by
  obtain ⟨passes, clean⟩ := isDecimal
  have visible : (text.toList.dropWhile (· = '-')).takeWhile
      (· ≠ Char.ofNat 0) = text.toList.dropWhile (· = '-') := by
    apply List.takeWhile_eq_self_iff.mpr
    intro char member
    rw [decide_eq_true_eq]
    rintro rfl
    exact clean ((List.dropWhile_sublist _).subset member)
  unfold isDecimalText at passes
  simp only [visible, Bool.and_eq_true, Bool.not_eq_true', List.all_eq_true,
    List.isEmpty_eq_false_iff] at passes
  obtain ⟨⟨starts, all⟩, some⟩ := passes
  cases chars : text.toList with
  | nil =>
      rw [chars] at starts
      cases starts
  | cons first rest =>
      rw [chars] at starts all some
      by_cases signed : first = '-'
      · subst signed
        rw [List.dropWhile_cons_of_pos (by decide)] at all some
        refine ⟨rest, ?_, ?_, .inr rfl⟩
        · rintro rfl
          exact some rfl
        · cases rest with
          | nil => exact fun _ member => nomatch member
          | cons second rest =>
              have isDigit : second.isDigit = true := starts
              have unsigned : second ≠ '-' := by
                rintro rfl
                exact absurd isDigit (by decide)
              rw [List.dropWhile_cons_of_neg (by simpa using unsigned)] at all
              exact all
      · rw [List.dropWhile_cons_of_neg (by simpa using signed)] at all
        exact ⟨first :: rest, List.cons_ne_nil _ _, all, .inl rfl⟩

theorem digit_not_space {digit : Char} (isDigit : digit.isDigit = true) :
    isSpace digit = false ∧ digit ≠ '-' ∧ digit ≠ '+' := by
  simp only [Char.isDigit, Bool.and_eq_true, decide_eq_true_eq] at isDigit
  have low : 48 ≤ digit.toNat := isDigit.1
  refine ⟨?_, ?_, ?_⟩
  · unfold isSpace
    simp only [Bool.or_eq_false_iff, decide_eq_false_iff_not,
      Bool.and_eq_false_iff]
    refine ⟨?_, .inr (by omega)⟩
    rintro rfl
    exact absurd low (by decide)
  · rintro rfl
    exact absurd low (by decide)
  · rintro rfl
    exact absurd low (by decide)

/-- The prefix that is read of digits is all of them. -/
theorem integerPrefix_digits {digits : List Char} (some : digits ≠ [])
    (all : ∀ digit ∈ digits, digit.isDigit = true) :
    digits.dropWhile isSpace = digits ∧
      integerPrefix digits = digitsValue digits ∧
      integerPrefix ('-' :: digits) = -digitsValue digits := by
  have whole : digits.takeWhile Char.isDigit = digits :=
    List.takeWhile_eq_self_iff.mpr all
  cases digits with
  | nil => exact absurd rfl some
  | cons first rest =>
      obtain ⟨notSpace, notMinus, notPlus⟩ :=
        digit_not_space (all first List.mem_cons_self)
      refine ⟨List.dropWhile_cons_of_neg (by simp [notSpace]), ?_, ?_⟩
      · unfold integerPrefix
        split
        · rename_i same
          exact absurd (List.cons.inj same).1 notMinus
        · rename_i same
          exact absurd (List.cons.inj same).1 notPlus
        · rw [whole]
      · rw [integerPrefix, whole]

theorem decimalValue_plain {text : String} {digits : List Char}
    (all : ∀ digit ∈ digits, digit.isDigit = true)
    (isText : text.toList = digits) :
    decimalValue text = digitsValue digits := by
  unfold decimalValue
  split
  · rename_i rest isSigned
    rw [isSigned] at isText
    have isDigit := all '-' (by simp [← isText])
    exact absurd isDigit (by decide)
  · rw [isText, List.takeWhile_eq_self_iff.mpr all]

theorem decimalValue_signed {text : String} {digits : List Char}
    (all : ∀ digit ∈ digits, digit.isDigit = true)
    (isText : text.toList = '-' :: digits) :
    decimalValue text = -digitsValue digits := by
  simp only [decimalValue, isText, List.takeWhile_eq_self_iff.mpr all]

theorem leading_zeros {count : Nat} (few : count ≤ 6) :
    (leading "000000" count).toList = List.replicate count '0' := by
  have zeros : "000000".toList = List.replicate 6 '0' := by decide
  rw [leading, String.toList_ofList, zeros, List.take_replicate,
    Nat.min_eq_left few]

/-- Appending zeros to the text of a value scales it. -/
theorem integerPrefix_padded {text : String}
    (isDecimal : IsDecimal text) {count : Nat}
    (few : count ≤ 6) :
    integerPrefix ((text ++ leading "000000" count).toList.dropWhile isSpace) =
      decimalValue text * 10 ^ count := by
  obtain ⟨digits, some, all, isText⟩ := isDecimal.form
  have padded : ∀ digit ∈ digits ++ List.replicate count '0',
      digit.isDigit = true := by
    intro digit member
    rcases List.mem_append.mp member with old | new
    · exact all digit old
    · rw [List.eq_of_mem_replicate new]
      decide
  have nonempty : digits ++ List.replicate count '0' ≠ [] := by
    simp [some]
  obtain ⟨kept, plain, signed⟩ := integerPrefix_digits nonempty padded
  have isMinus : isSpace '-' = false := by decide
  rw [String.toList_append, leading_zeros few]
  rcases isText with isDigits | isSigned
  · rw [isDigits, kept, plain, digitsValue_zeros,
      decimalValue_plain all isDigits]
    push_cast
    rfl
  · rw [decimalValue_signed all isSigned, isSigned, List.cons_append,
      List.dropWhile_cons_of_neg (by simp [isMinus]), signed,
      digitsValue_zeros]
    push_cast
    ring

theorem sqlLength_digits {digits : List Char}
    (all : ∀ digit ∈ digits, digit.isDigit = true) :
    sqlLength (String.ofList digits) = digits.length := by
  unfold sqlLength
  rw [String.toList_ofList, List.takeWhile_eq_self_iff.mpr]
  intro digit member
  have isDigit := all digit member
  simp only [decide_eq_true_eq]
  rintro rfl
  exact absurd isDigit (by decide)

/-- A value has fewer digits than its text without the sign. -/
theorem decimalValue_lt {text : String}
    (isDecimal : IsDecimal text) :
    |decimalValue text| < 10 ^ sqlLength (ltrimDash text) := by
  obtain ⟨digits, some, all, isText⟩ := isDecimal.form
  have unsigned : digits.dropWhile (· = '-') = digits := by
    cases digits with
    | nil => rfl
    | cons first rest =>
        apply List.dropWhile_cons_of_neg
        simpa using (digit_not_space (all first List.mem_cons_self)).2.1
  have trimmed : ltrimDash text = String.ofList digits := by
    unfold ltrimDash
    rcases isText with isDigits | isSigned
    · rw [isDigits, unsigned]
    · rw [isSigned, List.dropWhile_cons_of_pos (by decide), unsigned]
  have size : |decimalValue text| = digitsValue digits := by
    rcases isText with isDigits | isSigned
    · rw [decimalValue_plain all isDigits, Nat.abs_cast]
    · rw [decimalValue_signed all isSigned, abs_neg, Nat.abs_cast]
  rw [size, trimmed, sqlLength_digits all]
  exact_mod_cast digitsValue_lt all

/-! ## The exact path -/

theorem int64_ok {value : Int} (small : |value| < 2 ^ 63) :
    int64 value = .ok value := by
  rw [abs_lt] at small
  exact if_pos ⟨small.1.le, small.2⟩

theorem le_commonScale {rows : List FeedbackEntry} {entry : FeedbackEntry}
    (member : entry ∈ rows) :
    entry.row.valueDecimals ≤ commonScale rows := by
  have largest : ∀ (numbers : List Nat) (start : Nat),
      start ≤ numbers.foldl max start ∧
        ∀ number ∈ numbers, number ≤ numbers.foldl max start := by
    intro numbers
    induction numbers with
    | nil => exact fun start => ⟨Nat.le_refl _, fun _ none => nomatch none⟩
    | cons first numbers induction =>
        intro start
        obtain ⟨above, all⟩ := induction (max start first)
        refine ⟨(Nat.le_max_left _ _).trans above, fun number member => ?_⟩
        rcases List.mem_cons.mp member with rfl | later
        · exact (Nat.le_max_right _ _).trans above
        · exact all number later
  have inside := (largest (rows.map (·.row.valueDecimals)) 0).2
    entry.row.valueDecimals (List.mem_map_of_mem member)
  exact inside.trans (Nat.le_max_left _ _)

/-- What `exact` says of the rows of a group. -/
structure ExactRows (rows : List FeedbackEntry) : Prop where
  scale : commonScale rows ≤ 6
  few : rows.length ≤ 10000000
  digits : ∀ entry ∈ rows,
    (sqlLength (ltrimDash entry.row.value) : Int) -
      entry.row.valueDecimals ≤ 4

theorem exactRows_of_isExact {rows : List FeedbackEntry}
    (exact : isExact rows = true) : ExactRows rows := by
  unfold isExact at exact
  split at exact
  · cases exact
  · rename_i digits isMax
    simp only [Bool.and_eq_true, decide_eq_true_eq] at exact
    obtain ⟨⟨scale, few⟩, many⟩ := exact
    refine ⟨scale, many, fun entry member => ?_⟩
    have largest := (List.max?_eq_some_iff.mp isMax).2 _
      (List.mem_map_of_mem (f := fun entry : FeedbackEntry =>
        (sqlLength (ltrimDash entry.row.value) : Int) -
          entry.row.valueDecimals) member)
    exact largest.trans few

/-- The value of an entry at the common scale. -/
def exactValue (scale : Nat) (entry : FeedbackEntry) : Int :=
  decimalValue entry.row.value * 10 ^ (scale - entry.row.valueDecimals)

section

variable {rows : List FeedbackEntry}

theorem ExactRows.exactValue_lt (exact : ExactRows rows)
    {entry : FeedbackEntry} (member : entry ∈ rows)
    (isDecimal : IsDecimal entry.row.value) :
    |exactValue (commonScale rows) entry| < 10 ^ 10 := by
  have digits := exact.digits entry member
  have scale := exact.scale
  have decimals := le_commonScale member
  have total : sqlLength (ltrimDash entry.row.value) +
      (commonScale rows - entry.row.valueDecimals) ≤ 10 := by
    omega
  have positive : (0 : Int) < 10 ^ (commonScale rows -
      entry.row.valueDecimals) := by positivity
  calc |exactValue (commonScale rows) entry|
      = |decimalValue entry.row.value| *
          10 ^ (commonScale rows - entry.row.valueDecimals) := by
        rw [exactValue, abs_mul, abs_of_pos positive]
    _ < 10 ^ sqlLength (ltrimDash entry.row.value) *
          10 ^ (commonScale rows - entry.row.valueDecimals) :=
        mul_lt_mul_of_pos_right (decimalValue_lt isDecimal) positive
    _ = 10 ^ (sqlLength (ltrimDash entry.row.value) +
          (commonScale rows - entry.row.valueDecimals)) := by
        rw [pow_add]
    _ ≤ 10 ^ 10 := pow_le_pow_right₀ (by norm_num) total

/-- The cast of the padded text is exact. -/
theorem ExactRows.scaledValue_eq (exact : ExactRows rows)
    {entry : FeedbackEntry} (member : entry ∈ rows)
    (isDecimal : IsDecimal entry.row.value) :
    scaledValue (commonScale rows) entry =
      exactValue (commonScale rows) entry := by
  have scale := exact.scale
  have small := exact.exactValue_lt member isDecimal
  have isPrefix := @integerPrefix_padded entry.row.value isDecimal
    (commonScale rows - entry.row.valueDecimals) (by omega)
  unfold scaledValue castInteger
  rw [isPrefix]
  change max (-2 ^ 63) (min (exactValue (commonScale rows) entry)
    (2 ^ 63 - 1)) = exactValue (commonScale rows) entry
  rw [abs_lt] at small
  omega

theorem sum_abs_lt {values : List Int} {bound : Int}
    (small : ∀ value ∈ values, |value| < bound) :
    |values.sum| ≤ values.length * bound := by
  induction values with
  | nil => simp
  | cons value values induction =>
      have first := small value List.mem_cons_self
      have rest := induction fun other member =>
        small other (List.mem_cons_of_mem _ member)
      rw [List.sum_cons, List.length_cons]
      have triangle := abs_add_le value values.sum
      push_cast
      linarith

/-- The sum and its bound. -/
theorem ExactRows.exactSum_eq (exact : ExactRows rows)
    (decimal : ∀ entry ∈ rows, IsDecimal entry.row.value) :
    exactSum rows =
        .ok (rows.map (exactValue (commonScale rows))).sum ∧
      |(rows.map (exactValue (commonScale rows))).sum| ≤ 10 ^ 17 := by
  have bounded : ∀ part : List FeedbackEntry, part.Sublist rows →
      |(part.map (exactValue (commonScale rows))).sum| ≤ 10 ^ 17 := by
    intro part sublist
    have small : ∀ value ∈ part.map (exactValue (commonScale rows)),
        |value| < 10 ^ 10 := by
      intro value member
      obtain ⟨entry, inside, rfl⟩ := List.mem_map.mp member
      have within := sublist.subset inside
      exact exact.exactValue_lt within (decimal entry within)
    have total := sum_abs_lt small
    have fewer : (part.length : Int) ≤ 10000000 := by
      exact_mod_cast sublist.length_le.trans exact.few
    rw [List.length_map] at total
    linarith
  have loop : LoopSummary
      (fun sum entry => int64 (sum + scaledValue (commonScale rows) entry))
      (fun seen => (seen.map (exactValue (commonScale rows))).sum)
      (fun seen => seen.Sublist rows) := by
    refine ⟨List.nil_sublist _, ?_, ?_⟩
    · intro before entry sublist
      exact (List.sublist_append_left _ _).trans sublist
    · intro before entry sublist
      have member : entry ∈ rows := sublist.subset (by simp)
      have snoc : ((before ++ [entry]).map
          (exactValue (commonScale rows))).sum =
            (before.map (exactValue (commonScale rows))).sum +
              scaledValue (commonScale rows) entry := by
        rw [exact.scaledValue_eq member (decimal entry member)]
        simp
      have small := bounded _ sublist
      rw [← snoc]
      exact int64_ok (small.trans_lt (by norm_num))
  exact ⟨loop.foldlM_good (List.Sublist.refl rows),
    bounded rows (List.Sublist.refl rows)⟩

theorem castInteger_power {count : Nat} (few : count ≤ 4) :
    castInteger ("1" ++ leading "0000" count) = 10 ^ count := by
  interval_cases count <;> decide

/-- The weight and its bound. -/
theorem ExactRows.exactWeight_eq (exact : ExactRows rows) :
    exactWeight rows =
        .ok (rows.length * 10 ^ (commonScale rows - 2)) ∧
      (rows.length : Int) * 10 ^ (commonScale rows - 2) ≤ 10 ^ 11 := by
  have scale := exact.scale
  have power : (10 : Int) ^ (commonScale rows - 2) ≤ 10 ^ 4 :=
    pow_le_pow_right₀ (by norm_num) (by omega)
  have positive : (0 : Int) < 10 ^ (commonScale rows - 2) := by positivity
  have few : (rows.length : Int) ≤ 10000000 := by exact_mod_cast exact.few
  have bound : (rows.length : Int) * 10 ^ (commonScale rows - 2) ≤
      10 ^ 11 := by
    calc (rows.length : Int) * 10 ^ (commonScale rows - 2)
        ≤ 10000000 * 10 ^ 4 :=
          mul_le_mul few power positive.le (by norm_num)
      _ = 10 ^ 11 := by norm_num
  refine ⟨?_, bound⟩
  unfold exactWeight
  rw [castInteger_power (by omega)]
  apply int64_ok
  rw [abs_of_nonneg (by positivity)]
  exact bound.trans_lt (by norm_num)

end

/-! ## Rounding -/

theorem floor_half (size weight : Nat) (some : 0 < weight) :
    ⌊(size : ℚ) / weight + 1 / 2⌋ = (2 * size + weight) / (2 * weight) := by
  have positive : (0 : ℚ) < weight := by exact_mod_cast some
  have same : (size : ℚ) / weight + 1 / 2 =
      ((2 * size + weight : Nat) : ℚ) / ((2 * weight : Nat) : ℚ) := by
    push_cast
    field_simp
  rw [same, Rat.floor_natCast_div_natCast]
  push_cast
  rfl

/-- The formula of the view rounds a quotient half away from zero. -/
theorem roundHalfAway_div (s : Int) {m : Int} (some : 0 < m) :
    (if s < 0 then -1 else 1) * (2 * |s| + m).tdiv (2 * m) =
      roundHalfAway (s / m) := by
  obtain ⟨weight, rfl⟩ := Int.eq_ofNat_of_zero_le some.le
  have positive : (0 : ℚ) < (weight : ℚ) := by exact_mod_cast some
  have floors := floor_half s.natAbs weight (by exact_mod_cast some)
  have quotient : (2 * |s| + (weight : Int)).tdiv (2 * weight) =
      (2 * (s.natAbs : Int) + weight) / (2 * weight) := by
    rw [Int.abs_eq_natAbs, Int.tdiv_eq_ediv_of_nonneg (by positivity)]
  rw [quotient, ← floors]
  unfold roundHalfAway
  by_cases negative : s < 0
  · have below : ((s : ℚ) / ((weight : Int) : ℚ)) < 0 := by
      apply div_neg_of_neg_of_pos
      · exact_mod_cast negative
      · exact_mod_cast positive
    have size : ((s.natAbs : Nat) : ℚ) = -s := by
      rw [Nat.cast_natAbs, abs_of_neg negative]
      push_cast
      rfl
    rw [if_pos negative, if_pos below, size, neg_one_mul, neg_div]
    push_cast
    rfl
  · have above : ¬ ((s : ℚ) / ((weight : Int) : ℚ)) < 0 := by
      rw [not_lt]
      apply div_nonneg
      · exact_mod_cast not_lt.mp negative
      · exact_mod_cast positive.le
    have size : ((s.natAbs : Nat) : ℚ) = s := by
      rw [Nat.cast_natAbs, abs_of_nonneg (not_lt.mp negative)]
    rw [if_neg negative, if_neg above, size, one_mul]
    push_cast
    rfl

/-! ## The theorem -/

section

variable {rows : List FeedbackEntry}

/-- The sum is that of the scores at the common scale. -/
theorem sum_exactValue {scale : Nat}
    (fine : ∀ entry ∈ rows, entry.row.valueDecimals ≤ scale) :
    (((rows.map (exactValue scale)).sum : Int) : ℚ) =
      10 ^ scale * (rows.map FeedbackEntry.score).sum := by
  induction rows with
  | nil => simp
  | cons entry rows induction =>
      have rest := induction fun other member =>
        fine other (List.mem_cons_of_mem _ member)
      have decimals := fine entry List.mem_cons_self
      have split : (10 : ℚ) ^ scale = 10 ^ (scale - entry.row.valueDecimals) *
          10 ^ entry.row.valueDecimals := by
        rw [← pow_add, Nat.sub_add_cancel decimals]
      rw [List.map_cons, List.map_cons, List.sum_cons, List.sum_cons,
        Int.cast_add, rest, mul_add]
      congr 1
      rw [exactValue, FeedbackEntry.score, split]
      push_cast
      field_simp

/-- A hundred times the mean is the quotient that is rounded. -/
theorem hundred_mean_eq (some : rows ≠ []) :
    100 * meanScore rows =
      (((rows.map (exactValue (commonScale rows))).sum : Int) : ℚ) /
        (((rows.length : Int) * 10 ^ (commonScale rows - 2) : Int) : ℚ) := by
  have cents : 2 ≤ commonScale rows := Nat.le_max_right _ _
  have power : (10 : ℚ) ^ commonScale rows =
      10 ^ (commonScale rows - 2) * 100 := by
    rw [← Nat.sub_add_cancel cents, pow_add, Nat.add_sub_cancel]
    norm_num
  have count : ((rows.length : Nat) : ℚ) ≠ 0 := by
    simpa using some
  rw [sum_exactValue fun entry member => le_commonScale member, power,
    meanScore]
  push_cast
  field_simp

/-- The computation on the exact path, all of it within 64 bits. -/
theorem ExactRows.exactCents_eq (exact : ExactRows rows) (some : rows ≠ [])
    (decimal : ∀ entry ∈ rows, IsDecimal entry.row.value) :
    exactCents rows = .ok (roundHalfAway (100 * meanScore rows)) := by
  obtain ⟨isSum, sumBound⟩ := exact.exactSum_eq decimal
  obtain ⟨isWeight, weightBound⟩ := exact.exactWeight_eq
  have weightPos : (0 : Int) <
      (rows.length : Int) * 10 ^ (commonScale rows - 2) := by
    have count := List.length_pos_iff.mpr some
    positivity
  rw [hundred_mean_eq some]
  generalize (rows.map (exactValue (commonScale rows))).sum = s at *
  generalize (rows.length : Int) * 10 ^ (commonScale rows - 2) = m at *
  have size : int64 |s| = .ok |s| := by
    apply int64_ok
    rw [abs_abs]
    linarith
  have twice : int64 (2 * |s|) = .ok (2 * |s|) := by
    apply int64_ok
    rw [abs_of_nonneg (by positivity)]
    linarith
  have numerator : int64 (2 * |s| + m) = .ok (2 * |s| + m) := by
    apply int64_ok
    rw [abs_of_nonneg (by positivity)]
    linarith
  have denominator : int64 (2 * m) = .ok (2 * m) := by
    apply int64_ok
    rw [abs_of_nonneg (by positivity)]
    linarith
  have quotient : |(2 * |s| + m).tdiv (2 * m)| ≤ 2 * |s| + m := by
    rw [Int.tdiv_eq_ediv_of_nonneg (by positivity), abs_of_nonneg
      (Int.ediv_nonneg (by positivity) (by positivity))]
    exact Int.ediv_le_self _ (by positivity)
  have signed : int64 ((if s < 0 then -1 else 1) *
      (2 * |s| + m).tdiv (2 * m)) =
        .ok ((if s < 0 then -1 else 1) * (2 * |s| + m).tdiv (2 * m)) := by
    apply int64_ok
    have unit : |(if s < 0 then -1 else 1 : Int)| = 1 := by
      split <;> rfl
    rw [abs_mul, unit, one_mul]
    linarith
  rw [← roundHalfAway_div s weightPos]
  unfold exactCents
  rw [isSum, ok_bind, isWeight, ok_bind, size, ok_bind, twice, ok_bind,
    numerator, ok_bind, denominator, ok_bind]
  exact signed

end

/-- An exact score of values without a NUL is a hundred times the mean of the
feedback that counts, rounded half away from zero and computed within 64
bits. -/
theorem leaderboard_exact {agents : Nat → Option AgentRow}
    {feedback : List FeedbackEntry} {agentId : Nat}
    (checked : ∀ entry ∈ feedback, entry.Checked)
    (whole : ∀ entry ∈ feedback, entry.Whole)
    (exact : (leaderboardScore agents feedback agentId).scoreExact = true)
    (counted : countedFeedback agents feedback agentId ≠ []) :
    let entries := countedFeedback agents feedback agentId
    let score := leaderboardScore agents feedback agentId
    score.cents = some (.ok (roundHalfAway (100 * meanScore entries))) ∧
    score.feedbackCount = entries.length ∧
    score.uniqueClients =
      (entries.map (·.key.clientAddress)).toFinset.card ∧
    (∀ entry ∈ entries,
      scaledValue (commonScale entries) entry =
        decimalValue entry.row.value *
          10 ^ (commonScale entries - entry.row.valueDecimals) ∧
      |decimalValue entry.row.value *
        10 ^ (commonScale entries - entry.row.valueDecimals)| < 2 ^ 63) ∧
    ∃ s m, exactSum entries = .ok s ∧ exactWeight entries = .ok m ∧
      |s| < 2 ^ 63 ∧ 2 * |s| + m < 2 ^ 63 ∧ 2 * m < 2 ^ 63 := by
  intro entries score
  have isScore : score =
      { feedbackCount := entries.length
        uniqueClients := (entries.map (·.key.clientAddress)).dedup.length
        scoreExact := isExact entries
        cents := if isExact entries then some (exactCents entries)
          else none } := by
    unfold score leaderboardScore
    simp only [groupOf_eq]
    exact if_neg (by simpa using counted)
  have isExactPath : isExact entries = true := by
    rw [← exact]
    exact (congrArg LeaderboardScore.scoreExact isScore).symm
  have exactRows := exactRows_of_isExact isExactPath
  have decimal : ∀ entry ∈ entries, IsDecimal entry.row.value := by
    intro entry member
    have inFeedback := List.mem_of_mem_filter member
    exact ⟨(checked entry inFeedback).value, whole entry inFeedback⟩
  obtain ⟨isSum, sumBound⟩ := exactRows.exactSum_eq decimal
  obtain ⟨isWeight, weightBound⟩ := exactRows.exactWeight_eq
  rw [isScore]
  refine ⟨?_, rfl, (List.card_toFinset _).symm, ?_, _, _, isSum, isWeight,
    ?_, ?_, ?_⟩
  · rw [if_pos isExactPath, exactRows.exactCents_eq counted decimal]
  · intro entry member
    have isDecimal := decimal entry member
    refine ⟨exactRows.scaledValue_eq member isDecimal, ?_⟩
    exact (exactRows.exactValue_lt member isDecimal).trans (by norm_num)
  · linarith
  · linarith
  · linarith

/-- An entry of a client. -/
def sampleEntry (client value : String) (valueDecimals : Nat) :
    FeedbackEntry :=
  { key := { agentId := 0, clientAddress := client, feedbackIndex := 1 }
    row := { value, valueDecimals, tag1 := none, tag2 := none
             endpoint := none, feedbackUri := none, feedbackHash := none
             isRevoked := false, createdAt := "t", createdLedger := 1
             txHash := "tx", revokedLedger := none } }

def sampleAgents (id : Nat) : Option AgentRow :=
  if id = 0 then some (Tables.newAgent "G" "u" true "t" 1 "tx" "t")
  else none

/-- The mean of -2.67 and -2.680 rounds to -2.68. -/
theorem leaderboard_exact_tie :
    (leaderboardScore sampleAgents
        [sampleEntry "GA" "-267" 2, sampleEntry "GB" "-2680" 3] 0).cents =
      some (.ok (-268)) ∧
    roundHalfAway (100 * meanScore (countedFeedback sampleAgents
      [sampleEntry "GA" "-267" 2, sampleEntry "GB" "-2680" 3] 0)) = -268 := by
  have cents : (leaderboardScore sampleAgents
      [sampleEntry "GA" "-267" 2, sampleEntry "GB" "-2680" 3] 0).cents =
        some (.ok (-268)) := by decide
  have checked : ∀ entry ∈
      [sampleEntry "GA" "-267" 2, sampleEntry "GB" "-2680" 3],
      entry.Checked := by
    intro entry member
    rcases List.mem_cons.mp member with rfl | last
    · exact ⟨by decide, by decide, by decide, by decide⟩
    · rw [List.mem_singleton.mp last]
      exact ⟨by decide, by decide, by decide, by decide⟩
  have whole : ∀ entry ∈
      [sampleEntry "GA" "-267" 2, sampleEntry "GB" "-2680" 3],
      entry.Whole := by
    intro entry member
    rcases List.mem_cons.mp member with rfl | last
    · exact (by decide : Char.ofNat 0 ∉ "-267".toList)
    · rw [List.mem_singleton.mp last]
      exact (by decide : Char.ofNat 0 ∉ "-2680".toList)
  have rounded := (@leaderboard_exact sampleAgents _ 0 checked whole
    (by decide) (by decide)).1
  rw [cents] at rounded
  refine ⟨cents, ?_⟩
  exact (Except.ok.inj (Option.some.inj rounded)).symm

/-- The CHECKs let a NUL through, and the zeros behind it are not read: the
score of a 12 is 0.12. -/
theorem leaderboard_hiddenZeros :
    ¬ ∀ (agents : Nat → Option AgentRow) (feedback : List FeedbackEntry)
      (agentId : Nat), (∀ entry ∈ feedback, entry.Checked) →
      (leaderboardScore agents feedback agentId).scoreExact = true →
      countedFeedback agents feedback agentId ≠ [] →
        (leaderboardScore agents feedback agentId).cents =
          some (.ok (roundHalfAway
            (100 * meanScore (countedFeedback agents feedback agentId)))) := by
  intro claim
  have checked : ∀ entry ∈ [sampleEntry "GA" "12\x00" 0], entry.Checked := by
    intro entry member
    rw [List.mem_singleton.mp member]
    exact ⟨by decide, by decide, by decide, by decide⟩
  have cents : (leaderboardScore sampleAgents
      [sampleEntry "GA" "12\x00" 0] 0).cents = some (.ok 12) := by decide
  have counted : countedFeedback sampleAgents [sampleEntry "GA" "12\x00" 0] 0 =
      [sampleEntry "GA" "12\x00" 0] := rfl
  have isTwelve : decimalValue "12\x00" = 12 := by decide
  have mean : meanScore [sampleEntry "GA" "12\x00" 0] = 12 := by
    simp [meanScore, FeedbackEntry.score, sampleEntry, isTwelve]
  have rounded := claim sampleAgents _ 0 checked (by decide) (by decide)
  rw [cents, counted, mean] at rounded
  have same := Except.ok.inj (Option.some.inj rounded)
  norm_num [roundHalfAway] at same

end Stellar8004.Web
