import Stellar8004.Indexer.TimeOrder

/-!
# Texts of any precision

RPC times have any number of fraction digits, or none; dates have three.  All
of them are written in one layout, and the texts compare as the instants do,
whatever their precision.
-/

namespace Stellar8004.Indexer

/-! ## Instants -/

/-- A day, a second of it and a fraction of the second.  The second 86400 is a
leap second. -/
abbrev Instant := Int ×ₗ Nat ×ₗ ℚ

def instantOf (day : Int) (second : Nat) (fraction : ℚ) : Instant :=
  toLex (day, toLex (second, fraction))

theorem instantOf_lt_iff {day day' : Int} {second second' : Nat}
    {fraction fraction' : ℚ} :
    instantOf day second fraction < instantOf day' second' fraction' ↔
      day < day' ∨ day = day' ∧
        (second < second' ∨ second = second' ∧ fraction < fraction') := by
  simp only [instantOf, Prod.Lex.toLex_lt_toLex]

/-- The value of digits behind a point. -/
def fractionValue : List Char → ℚ
  | [] => 0
  | digit :: digits =>
      (((digit.toNat - '0'.toNat : Nat) : ℚ) + fractionValue digits) / 10

/-- A time of RFC 3339 in UTC: the fields in their ranges, a leap second in the
last minute of a day, and the fraction digits if any. -/
structure UtcTime where
  year : Nat
  month : Nat
  day : Nat
  hour : Nat
  minute : Nat
  second : Nat
  fraction : Option (List Char)
  year_le : year ≤ 9999
  month_pos : 1 ≤ month
  month_le : month ≤ 12
  day_pos : 1 ≤ day
  day_le : day ≤ (monthLengths year).getD (month - 1) 0
  hour_le : hour ≤ 23
  minute_le : minute ≤ 59
  second_le : second ≤ 59 ∨ hour = 23 ∧ minute = 59 ∧ second = 60
  digits : ∀ digits, fraction = some digits →
    digits ≠ [] ∧ digits.all Char.isDigit = true

namespace UtcTime

/-- The date, the hour and the minute. -/
def fields (utc : UtcTime) : List Nat :=
  [utc.year, utc.month, utc.day, utc.hour, utc.minute]

def layout : List (Nat × Char) :=
  [(4, '-'), (2, '-'), (2, 'T'), (2, ':'), (2, ':')]

def fractionText : Option (List Char) → List Char
  | none => []
  | some digits => '.' :: digits

/-- The text up to the zone. -/
def localText (utc : UtcTime) : List Char :=
  rendered layout utc.fields ++ (decimals 2 utc.second ++
    fractionText utc.fraction)

def text (utc : UtcTime) : String :=
  String.ofList (utc.localText ++ ['Z'])

/-- The text with a small `t`, which RFC 3339 takes for `T`. -/
def lowerText (utc : UtcTime) : String :=
  String.ofList (utc.localText.map Char.toLower ++ ['Z'])

def dayNumber (utc : UtcTime) : Int :=
  dayFromYear utc.year +
    (((monthLengths utc.year).take (utc.month - 1)).sum : Nat) + utc.day - 1

def secondOfDay (utc : UtcTime) : Nat :=
  3600 * utc.hour + 60 * utc.minute + utc.second

def fractionOf (utc : UtcTime) : ℚ :=
  fractionValue (utc.fraction.getD [])

def instant (utc : UtcTime) : Instant :=
  instantOf utc.dayNumber utc.secondOfDay utc.fractionOf

end UtcTime

def dateInstant (time : Int) : Instant :=
  instantOf (time / msPerDay) (msOfDay time / 1000)
    ((msOfDay time % 1000 : Nat) / 1000)

/-- A date of the years 0000 to 9999, or a text of RFC 3339 that ends in `Z`. -/
inductive Denotes : JsTime → Instant → Prop where
  | date (time : Int) (digits : FourDigits time) :
      Denotes (.date (some time)) (dateInstant time)
  | text (utc : UtcTime) : Denotes (.text utc.text) utc.instant
  | lower (utc : UtcTime) : Denotes (.text utc.lowerText) utc.instant

/-- A date, or a text without a small `t`. -/
def JsTime.UpperCase : JsTime → Prop
  | .text iso => 't' ∉ iso.toList
  | .date _ => True

/-- `YYYY-MM-DDTHH:MM:SS[.f]+00:00`. -/
def storedLayout (text : List Char) : Bool :=
  text.drop (text.length - 6) = "+00:00".toList &&
    isoLayout (text.take (text.length - 6) ++ ['Z'])

/-! ## Fractions -/

theorem fractionValue_nonneg (digits : List Char) :
    0 ≤ fractionValue digits := by
  induction digits with
  | nil => exact le_refl 0
  | cons digit digits induction =>
      rw [fractionValue]
      apply div_nonneg _ (by norm_num)
      exact add_nonneg (Nat.cast_nonneg _) induction

theorem digit_bounds {digit : Char} (isDigit : digit.isDigit = true) :
    48 ≤ digit.toNat ∧ digit.toNat ≤ 57 := by
  have bounds := Char.isDigit_iff_toNat.mp isDigit
  exact bounds

theorem fractionValue_lt_one {digits : List Char}
    (isDigits : digits.all Char.isDigit = true) :
    fractionValue digits < 1 := by
  induction digits with
  | nil => exact zero_lt_one
  | cons digit digits induction =>
      rw [List.all_cons, Bool.and_eq_true] at isDigits
      have rest := induction isDigits.2
      have bounds := digit_bounds isDigits.1
      have small : ((digit.toNat - '0'.toNat : Nat) : ℚ) ≤ 9 := by
        have nine : digit.toNat - '0'.toNat ≤ 9 := by
          change digit.toNat - 48 ≤ 9
          omega
        exact_mod_cast nine
      rw [fractionValue]
      linarith

/-- The smaller fraction is the smaller text: a digit is larger than the sign
of the zone, and the first digit that differs decides. -/
theorem digits_lt {first second : List Char}
    (isFirst : first.all Char.isDigit = true)
    (isSecond : second.all Char.isDigit = true) (rest : List Char)
    (less : fractionValue first < fractionValue second) :
    first ++ '+' :: rest < second ++ '+' :: rest := by
  induction first generalizing second with
  | nil =>
      cases second with
      | nil => exact absurd less (lt_irrefl _)
      | cons digit second =>
          rw [List.all_cons, Bool.and_eq_true] at isSecond
          have bounds := digit_bounds isSecond.1
          apply List.Lex.rel
          rw [Char.lt_def, UInt32.lt_iff_toNat_lt]
          exact Nat.lt_of_lt_of_le (by decide : ('+' : Char).toNat < 48)
            bounds.1
  | cons digit first induction =>
      cases second with
      | nil =>
          exact absurd less (not_lt.mpr (fractionValue_nonneg _))
      | cons other second =>
          rw [List.all_cons, Bool.and_eq_true] at isFirst isSecond
          have bounds := digit_bounds isFirst.1
          have others := digit_bounds isSecond.1
          rw [fractionValue, fractionValue,
            div_lt_div_iff_of_pos_right (by norm_num)] at less
          rcases Nat.lt_trichotomy digit.toNat other.toNat with
            ahead | same | behind
          · apply List.Lex.rel
            rw [Char.lt_def, UInt32.lt_iff_toNat_lt]
            exact ahead
          · obtain rfl : digit = other := Char.toNat_inj.mp same
            apply List.Lex.cons
            apply induction isFirst.2 isSecond.2
            linarith
          · have step : other.toNat - '0'.toNat + 1 ≤
                digit.toNat - '0'.toNat := by
              change other.toNat - 48 + 1 ≤ digit.toNat - 48
              omega
            have stepped : ((other.toNat - '0'.toNat : Nat) : ℚ) + 1 ≤
                ((digit.toNat - '0'.toNat : Nat) : ℚ) := by
              exact_mod_cast step
            have small := fractionValue_lt_one isSecond.2
            have nonneg := fractionValue_nonneg first
            linarith

theorem fractionText_lt {first second : Option (List Char)}
    (isFirst : (first.getD []).all Char.isDigit = true)
    (isSecond : (second.getD []).all Char.isDigit = true) (rest : List Char)
    (less : fractionValue (first.getD []) < fractionValue (second.getD [])) :
    UtcTime.fractionText first ++ '+' :: rest <
      UtcTime.fractionText second ++ '+' :: rest := by
  cases second with
  | none =>
      exact absurd less (not_lt.mpr (fractionValue_nonneg _))
  | some digits =>
      cases first with
      | none => exact .rel (by decide)
      | some others =>
          exact .cons (digits_lt isFirst isSecond rest less)

/-! ## Days and seconds -/

theorem take_sum_add_getD {lengths : List Nat} {early late : Nat}
    (less : early < late) :
    (lengths.take early).sum + lengths.getD early 0 ≤
      (lengths.take late).sum := by
  induction lengths generalizing early late with
  | nil => simp
  | cons length lengths induction =>
      cases late with
      | zero => cases less
      | succ late =>
          cases early with
          | zero => simp
          | succ early =>
              have rest := induction (Nat.lt_of_succ_lt_succ less)
              simp only [List.take_succ_cons, List.sum_cons,
                List.getD_cons_succ]
              omega

namespace UtcTime

variable {first second : UtcTime}

theorem dayNumber_bounds (utc : UtcTime) :
    dayFromYear utc.year ≤ utc.dayNumber ∧
      utc.dayNumber < dayFromYear (utc.year + 1) := by
  have inside : utc.month - 1 < (monthLengths utc.year).length := by
    have twelve : (monthLengths utc.year).length = 12 := rfl
    have month := utc.month_le
    omega
  have days := @take_sum_add_getD (monthLengths utc.year) _ _ inside
  rw [List.take_length] at days
  have year := dayFromYear_succ utc.year
  have day := utc.day_le
  have positive := utc.day_pos
  unfold dayNumber
  omega

theorem dayNumber_lt (same : first.year = second.year)
    (less : first.month < second.month ∨
      first.month = second.month ∧ first.day < second.day) :
    first.dayNumber < second.dayNumber := by
  unfold dayNumber
  rw [same]
  rcases less with month | ⟨sameMonth, day⟩
  · have positive := first.month_pos
    have earlier : first.month - 1 < second.month - 1 := by omega
    have days := @take_sum_add_getD (monthLengths second.year) _ _ earlier
    have inMonth := first.day_le
    have nonzero := second.day_pos
    rw [same] at inMonth
    omega
  · rw [sameMonth]
    omega

theorem secondOfDay_lt (less : first.hour < second.hour ∨
      first.hour = second.hour ∧ first.minute < second.minute) :
    first.secondOfDay < second.secondOfDay := by
  have late := second.hour_le
  have lateMinute := second.minute_le
  have minute := first.minute_le
  have leap := first.second_le
  unfold secondOfDay
  omega

/-- Larger fields are a later second. -/
theorem instant_lt_of_fields (less : first.fields < second.fields) :
    first.instant < second.instant := by
  rw [instant, instant, instantOf_lt_iff]
  simp only [fields, List.cons_lt_cons_iff, List.lt_irrefl, and_false,
    or_false] at less
  rcases less with year | ⟨sameYear, month | ⟨sameMonth, day |
    ⟨sameDay, clock⟩⟩⟩
  · left
    have early := first.dayNumber_bounds
    have late := second.dayNumber_bounds
    have years := dayFromYear_mono
      (show (first.year : Int) + 1 ≤ second.year by omega)
    omega
  · exact .inl (dayNumber_lt sameYear (.inl month))
  · exact .inl (dayNumber_lt sameYear (.inr ⟨sameMonth, day⟩))
  · right
    constructor
    · unfold dayNumber
      rw [sameYear, sameMonth, sameDay]
    · left
      exact secondOfDay_lt clock

theorem fields_fit (utc : UtcTime) : Fits layout utc.fields := by
  have year := utc.year_le
  have month := utc.month_le
  have hour := utc.hour_le
  have minute := utc.minute_le
  have day : utc.day ≤ 31 := by
    apply utc.day_le.trans
    rw [List.getD_eq_getElem?_getD]
    cases found : (monthLengths utc.year)[utc.month - 1]? with
    | none => exact Nat.zero_le _
    | some length =>
        exact monthLengths_le (List.mem_of_getElem? found)
  unfold Fits layout fields
  refine .cons ?_ (.cons ?_ (.cons ?_ (.cons ?_ (.cons ?_ .nil))))
  all_goals
    simp only
    omega

theorem isDigits (utc : UtcTime) :
    (utc.fraction.getD []).all Char.isDigit = true := by
  cases isFraction : utc.fraction with
  | none => rfl
  | some digits => exact (utc.digits digits isFraction).2

/-- An earlier instant is a smaller text. -/
theorem localText_lt (less : first.instant < second.instant)
    (rest : List Char) :
    first.localText ++ '+' :: rest < second.localText ++ '+' :: rest := by
  simp only [localText, List.append_assoc]
  rcases lt_trichotomy first.fields second.fields with ahead | same | behind
  · apply append_lt_append
    · exact rendered_lt first.fields_fit second.fields_fit ahead
    · exact length_rendered first.fields_fit second.fields_fit
  · rw [same]
    apply List.append_left_lt
    simp only [fields, List.cons.injEq, and_true] at same
    obtain ⟨year, month, day, hour, minute⟩ := same
    have sameDay : first.dayNumber = second.dayNumber := by
      unfold dayNumber
      rw [year, month, day]
    rw [instant, instant, instantOf_lt_iff] at less
    rcases less with day | ⟨-, clock | ⟨clock, fraction⟩⟩
    · exact absurd sameDay (ne_of_lt day)
    · apply append_lt_append
      · apply decimals_lt
        · unfold secondOfDay at clock
          omega
        · have small := second.second_le
          omega
      · simp
    · have sameSecond : first.second = second.second := by
        unfold secondOfDay at clock
        omega
      rw [sameSecond]
      apply List.append_left_lt
      exact fractionText_lt first.isDigits second.isDigits rest fraction
  · exact absurd less (lt_asymm (instant_lt_of_fields behind))

/-! ## The layout -/

theorem isoFractionDigits_append {digits : List Char} (nonempty : digits ≠ [])
    (isDigits : digits.all Char.isDigit = true) :
    isoFractionDigits (digits ++ ['Z']) = true := by
  induction digits with
  | nil => exact absurd rfl nonempty
  | cons digit digits induction =>
      rw [List.all_cons, Bool.and_eq_true] at isDigits
      cases digits with
      | nil =>
          simp only [List.cons_append, List.nil_append, isoFractionDigits,
            isDigits.1, Bool.true_and]
          rfl
      | cons next digits =>
          have rest := induction (List.cons_ne_nil _ _) isDigits.2
          cases digits with
          | nil =>
              simp only [List.cons_append, List.nil_append] at rest ⊢
              simp only [isoFractionDigits, isDigits.1, Bool.true_and] at rest ⊢
              exact rest
          | cons other digits =>
              simp only [List.cons_append, isoFractionDigits, isDigits.1,
                Bool.true_and] at rest ⊢
              exact rest

theorem isoLayout_localText (utc : UtcTime) :
    isoLayout (utc.localText ++ ['Z']) = true := by
  have last : ∀ number, (Nat.digitChar (number % 10)).isDigit = true :=
    fun number => isDigit_digitChar (Nat.mod_lt _ (by decide))
  have fraction : isoFraction (fractionText utc.fraction ++ ['Z']) = true := by
    cases isFraction : utc.fraction with
    | none => rfl
    | some digits =>
        obtain ⟨nonempty, isDigits⟩ := utc.digits digits isFraction
        exact isoFractionDigits_append nonempty isDigits
  simp only [localText, rendered, layout, fields, decimals, List.nil_append,
    List.cons_append, isoLayout, fraction, last, List.all_cons, List.all_nil,
    Bool.and_true]

theorem storedLayout_localText (utc : UtcTime) :
    storedLayout (utc.localText ++ "+00:00".toList) = true := by
  have size : (utc.localText ++ "+00:00".toList).length - 6 =
      utc.localText.length := by
    rw [List.length_append]
    exact Nat.add_sub_cancel _ 6
  unfold storedLayout
  rw [size, List.drop_left, List.take_left, isoLayout_localText]
  simp

theorem pgTime_utc (runtime : Runtime) (utc : UtcTime) :
    pgTime runtime (.text utc.text) =
      .ok (String.ofList (utc.localText ++ "+00:00".toList)) := by
  have isText : utc.text.toList = utc.localText ++ ['Z'] :=
    String.toList_ofList
  have layout : isoLayout utc.text.toList = true := by
    rw [isText]
    exact isoLayout_localText utc
  rw [pgTime_text layout, storedTime, isText, List.dropLast_concat]

end UtcTime

/-! ## Dates -/

/-- The month and date found for a day lead back to it. -/
theorem monthAndDate_spec {lengths : List Nat} {day : Nat}
    (inside : day < lengths.sum) :
    (lengths.take (monthAndDate lengths day).1).sum +
        (monthAndDate lengths day).2 = day + 1 ∧
      1 ≤ (monthAndDate lengths day).2 ∧
      (monthAndDate lengths day).2 ≤
        lengths.getD (monthAndDate lengths day).1 0 := by
  induction lengths generalizing day with
  | nil => cases inside
  | cons length lengths induction =>
      rw [List.sum_cons] at inside
      simp only [monthAndDate]
      split
      · simp only [List.take_zero, List.sum_nil, List.getD_cons_zero]
        omega
      · have later := @induction (day - length) (by omega)
        simp only [List.take_succ_cons, List.sum_cons, List.getD_cons_succ]
        omega

theorem digitChar_value {digit : Nat} (small : digit < 10) :
    (Nat.digitChar digit).toNat - '0'.toNat = digit := by
  have all : ∀ digit : Fin 10,
      (Nat.digitChar digit).toNat - '0'.toNat = digit := by decide
  exact all ⟨digit, small⟩

theorem fractionValue_decimals {ms : Nat} (small : ms < 1000) :
    fractionValue (decimals 3 ms) = (ms : ℚ) / 1000 := by
  have split : ms = ms / 10 / 10 % 10 * 100 + ms / 10 % 10 * 10 + ms % 10 := by
    omega
  simp only [decimals, List.nil_append, List.cons_append, fractionValue,
    digitChar_value (Nat.mod_lt _ (by decide))]
  conv_rhs => rw [split]
  push_cast
  ring

namespace UtcTime

/-- A date as the text `toISOString` writes of it. -/
def ofTime (time : Int) (digits : FourDigits time) : UtcTime :=
  let monthDate := monthAndDate (monthLengths (timeYear time)) (dayOfYear time)
  have isYear : ((timeYear time).toNat : Int) = timeYear time :=
    Int.toNat_of_nonneg digits.1
  have month : monthDate.1 + 1 ≤ 12 := (monthAndDate_year time).1
  have days := monthAndDate_spec (dayOfYear_lt_sum time)
  { year := (timeYear time).toNat
    month := monthDate.1 + 1
    day := monthDate.2
    hour := msOfDay time / 3600000
    minute := msOfDay time / 60000 % 60
    second := msOfDay time / 1000 % 60
    fraction := some (decimals 3 (msOfDay time % 1000))
    year_le := by
      have range := digits.2
      omega
    month_pos := Nat.succ_pos _
    month_le := month
    day_pos := days.2.1
    day_le := by
      rw [isYear]
      exact days.2.2
    hour_le := by
      have ms := msOfDay_lt time
      omega
    minute_le := by omega
    second_le := .inl (by omega)
    digits := by
      intro text isText
      rw [← Option.some.inj isText]
      have last : ∀ number, (Nat.digitChar (number % 10)).isDigit = true :=
        fun number => isDigit_digitChar (Nat.mod_lt _ (by decide))
      simp [decimals, last] }

theorem text_ofTime {time : Int} (digits : FourDigits time) :
    (ofTime time digits).text = String.ofList (toISOString time) := by
  rw [toISOString_eq digits]
  rfl

theorem instant_ofTime {time : Int} (digits : FourDigits time) :
    (ofTime time digits).instant = dateInstant time := by
  have isYear : ((timeYear time).toNat : Int) = timeYear time :=
    Int.toNat_of_nonneg digits.1
  have isDay : (ofTime time digits).dayNumber = time / msPerDay := by
    have days := (monthAndDate_spec (dayOfYear_lt_sum time)).1
    have year := (yearFromDay_spec (time / msPerDay)).1
    unfold dayNumber ofTime
    simp only [isYear, Nat.add_sub_cancel]
    unfold dayOfYear at days ⊢
    unfold timeYear at days ⊢
    omega
  have isSecond : (ofTime time digits).secondOfDay = msOfDay time / 1000 := by
    unfold secondOfDay ofTime
    simp only
    omega
  have isFraction : (ofTime time digits).fractionOf =
      ((msOfDay time % 1000 : Nat) : ℚ) / 1000 :=
    fractionValue_decimals (Nat.mod_lt _ (by decide))
  rw [instant, dateInstant, isDay, isSecond, isFraction]

theorem pgTime_ofTime (runtime : Runtime) {time : Int}
    (digits : FourDigits time) :
    pgTime runtime (.date (some time)) =
      pgTime runtime (.text (ofTime time digits).text) := by
  have layout := isoLayout_toISOString digits
  rw [pgTime_date runtime digits, text_ofTime digits, pgTime_text (by
    rw [String.toList_ofList]
    exact layout), storedTime, String.toList_ofList]
  rfl

end UtcTime

/-! ## Order -/

theorem UtcTime.mem_lowerText (utc : UtcTime) : 't' ∈ utc.lowerText.toList := by
  unfold lowerText localText fields layout
  simp only [String.toList_ofList, rendered, List.map_append, List.map_cons,
    List.mem_append, List.mem_cons]
  simp

/-- What an instant is given as in upper case is stored as a text of it. -/
theorem Denotes.stored {time : JsTime} {instant : Instant}
    (denotes : Denotes time instant) (upper : time.UpperCase)
    (runtime : Runtime) :
    ∃ utc : UtcTime, utc.instant = instant ∧ pgTime runtime time =
      .ok (String.ofList (utc.localText ++ "+00:00".toList)) := by
  cases denotes with
  | date time digits =>
      refine ⟨.ofTime time digits, UtcTime.instant_ofTime digits, ?_⟩
      rw [UtcTime.pgTime_ofTime runtime digits, UtcTime.pgTime_utc]
  | text utc => exact ⟨utc, rfl, UtcTime.pgTime_utc runtime utc⟩
  | lower utc => exact absurd utc.mem_lowerText upper

/-- Dates and RFC 3339 texts of the years 0000 to 9999, the texts with a
capital `T`, are stored in one layout, and the text of the earlier instant is
the smaller one, by code points and so by bytes. -/
theorem pgTime_ordered (runtime : Runtime) {first second : JsTime}
    {early late : Instant} (isEarly : Denotes first early)
    (isLate : Denotes second late) (firstUpper : first.UpperCase)
    (secondUpper : second.UpperCase) :
    ∃ firstText secondText, pgTime runtime first = .ok firstText ∧
      pgTime runtime second = .ok secondText ∧
      storedLayout firstText.toList = true ∧
      storedLayout secondText.toList = true ∧
      (early < late → firstText < secondText) := by
  obtain ⟨before, rfl, isFirst⟩ := isEarly.stored firstUpper runtime
  obtain ⟨after, rfl, isSecond⟩ := isLate.stored secondUpper runtime
  refine ⟨_, _, isFirst, isSecond, ?_, ?_, ?_⟩
  · rw [String.toList_ofList]
    exact before.storedLayout_localText
  · rw [String.toList_ofList]
    exact after.storedLayout_localText
  · intro less
    rw [String.lt_iff]
    simp only [String.toList_ofList]
    exact UtcTime.localText_lt less _

/-- A time without a fraction. -/
def noon : UtcTime :=
  { year := 2026, month := 4, day := 3, hour := 12, minute := 0, second := 0
    fraction := none
    year_le := by decide
    month_pos := by decide
    month_le := by decide
    day_pos := by decide
    day_le := by decide
    hour_le := by decide
    minute_le := by decide
    second_le := .inl (by decide)
    digits := fun _ impossible => (nomatch impossible) }

theorem pgTime_ordered_noon :
    ∃ firstText secondText,
      pgTime { parseDate := fun _ => none, callDepth := 0 }
        (.text "2026-04-03T12:00:00Z") = .ok firstText ∧
      pgTime { parseDate := fun _ => none, callDepth := 0 }
        (.date (some 1775217600250)) = .ok secondText ∧
      storedLayout firstText.toList = true ∧
      storedLayout secondText.toList = true ∧ firstText < secondText := by
  have isText : noon.text = "2026-04-03T12:00:00Z" := by decide
  have digits : FourDigits 1775217600250 := ⟨by decide, by decide⟩
  have upper : (JsTime.text noon.text).UpperCase := by
    rw [isText]
    exact (by decide : 't' ∉ "2026-04-03T12:00:00Z".toList)
  obtain ⟨firstText, secondText, isFirst, isSecond, firstLayout, secondLayout,
    ordered⟩ := pgTime_ordered { parseDate := fun _ => none, callDepth := 0 }
      (Denotes.text noon) (Denotes.date 1775217600250 digits) upper trivial
  rw [isText] at isFirst
  refine ⟨firstText, secondText, isFirst, isSecond, firstLayout, secondLayout,
    ordered ?_⟩
  unfold UtcTime.instant dateInstant
  rw [instantOf_lt_iff]
  right
  have quarter : msOfDay 1775217600250 % 1000 = 250 := by decide
  refine ⟨by decide, .inr ⟨by decide, ?_⟩⟩
  rw [quarter]
  norm_num [UtcTime.fractionOf, noon, fractionValue]

/-! ## A small `t` -/

/-- A time of the first second of a year. -/
def newYear (digit : Char) (isDigit : digit.isDigit = true) : UtcTime :=
  { year := 2024, month := 1, day := 1, hour := 0, minute := 0, second := 0
    fraction := some ['1', '2', '3', digit]
    year_le := by decide
    month_pos := by decide
    month_le := by decide
    day_pos := by decide
    day_le := by decide
    hour_le := by decide
    minute_le := by decide
    second_le := .inl (by decide)
    digits := by
      intro digits isFraction
      cases isFraction
      simpa using isDigit }

/-- An engine whose dates have milliseconds, at the two texts. -/
def millisecondRuntime : Runtime where
  parseDate text :=
    if text = "2024-01-01t00:00:00.1234Z" ∨ text = "2024-01-01t00:00:00.1235Z"
    then some 1704067200123 else none
  callDepth := 10000

/-- A text with a small `t` misses the pattern and loses what is below the
millisecond. -/
theorem pgTime_lowerCase :
    ¬ ∀ (runtime : Runtime) (first second : JsTime) (early late : Instant),
      Denotes first early → Denotes second late →
        ∃ firstText secondText, pgTime runtime first = .ok firstText ∧
          pgTime runtime second = .ok secondText ∧
          storedLayout firstText.toList = true ∧
          storedLayout secondText.toList = true ∧
          (early < late → firstText < secondText) := by
  intro claim
  have firstIs : (newYear '4' (by decide)).lowerText =
      "2024-01-01t00:00:00.1234Z" := by decide
  have secondIs : (newYear '5' (by decide)).lowerText =
      "2024-01-01t00:00:00.1235Z" := by decide
  obtain ⟨firstText, secondText, isFirst, isSecond, -, -, ordered⟩ :=
    claim millisecondRuntime _ _ _ _ (.lower (newYear '4' (by decide)))
      (.lower (newYear '5' (by decide)))
  have less : (newYear '4' (by decide)).instant <
      (newYear '5' (by decide)).instant := by
    unfold UtcTime.instant
    rw [instantOf_lt_iff]
    refine .inr ⟨rfl, .inr ⟨rfl, ?_⟩⟩
    have codes : '1'.toNat - '0'.toNat = 1 ∧ '2'.toNat - '0'.toNat = 2 ∧
        '3'.toNat - '0'.toNat = 3 ∧ '4'.toNat - '0'.toNat = 4 ∧
        '5'.toNat - '0'.toNat = 5 := by decide
    obtain ⟨one, two, three, four, five⟩ := codes
    simp only [UtcTime.fractionOf, newYear, fractionValue, Option.getD_some,
      one, two, three, four, five]
    norm_num
  have parsed {text : String} (layout : isoLayout text.toList = false)
      (isMoment : millisecondRuntime.parseDate text = some 1704067200123) :
      pgTime millisecondRuntime (.text text) =
        .ok (pgText 1704067200123) := by
    have digits : FourDigits 1704067200123 := ⟨by decide, by decide⟩
    unfold pgTime pgTimeWithin
    simp only [layout, Bool.false_eq_true, if_false, String.ofList_toList,
      isMoment]
    cases isDepth : millisecondRuntime.callDepth with
    | zero => cases isDepth
    | succ depth =>
        simp [pgTimeWithin, isoLayout_toISOString digits, pgText]
  rw [firstIs, parsed (by decide) (by decide)] at isFirst
  rw [secondIs, parsed (by decide) (by decide)] at isSecond
  have smaller := ordered less
  rw [← Except.ok.inj isFirst, ← Except.ok.inj isSecond] at smaller
  exact String.lt_irrefl _ smaller

end Stellar8004.Indexer
