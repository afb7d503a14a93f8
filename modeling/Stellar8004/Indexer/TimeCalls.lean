import Stellar8004.Indexer.Instants

/-!
# Calls of `pgTime`

`pgTime` calls itself with the date a text parses to.  The text of a date of
the years 0000 to 9999 has the layout, so one call is enough; the text of any
other date does not have it and parses to the same date again.
-/

namespace Stellar8004.Indexer

/-! ## Dates read back -/

/-- The time values of dates: a hundred million days around the epoch. -/
def TimeValue (time : Int) : Prop :=
  -8640000000000000 ≤ time ∧ time ≤ 8640000000000000

instance (time : Int) : Decidable (TimeValue time) :=
  inferInstanceAs (Decidable (_ ∧ _))

/-- What the language says of dates: a parsed text is a time value, and what
`toISOString` writes parses to the date it was written of. -/
structure Runtime.ReadsDates (runtime : Runtime) : Prop where
  range : ∀ text time, runtime.parseDate text = some time → TimeValue time
  inverse : ∀ time, TimeValue time →
    runtime.parseDate (String.ofList (toISOString time)) = some time

/-- The number its decimal digits write. -/
def readDecimals (digits : List Char) : Nat :=
  digits.foldl (fun number digit => 10 * number + (digit.toNat - '0'.toNat)) 0

/-- The numbers of fixed width, each followed by a separator. -/
def readFields : List (Nat × Char) → List Char → List Nat
  | [], _ => []
  | (width, _) :: layout, text =>
      readDecimals (text.take width) ::
        readFields layout (text.drop (width + 1))

/-- The year a text starts with, and the text behind its separator. -/
def readYear : List Char → Int × List Char
  | '-' :: text => (-readDecimals (text.take 6), text.drop 7)
  | '+' :: text => (readDecimals (text.take 6), text.drop 7)
  | text => (readDecimals (text.take 4), text.drop 5)

/-- The time of a year and of the fields that follow it. -/
def timeOfFields (year : Int) : List Nat → Int
  | [month, date, hour, minute, second, ms] =>
      (dayFromYear year + (((monthLengths year).take (month - 1)).sum : Nat) +
        date - 1) * msPerDay +
        (3600000 * hour + 60000 * minute + 1000 * second + ms : Nat)
  | _ => 0

/-- Reads what `toISOString` writes, and nothing else. -/
def readISOString (text : String) : Option Int :=
  let yearRest := readYear text.toList
  let time := timeOfFields yearRest.1
    (readFields (isoFields 'Z').tail yearRest.2)
  if TimeValue time ∧ String.ofList (toISOString time) = text then some time
  else none

theorem readDecimals_decimals {width number : Nat}
    (fits : number < 10 ^ width) :
    readDecimals (decimals width number) = number := by
  induction width generalizing number with
  | zero =>
      rw [Nat.pow_zero] at fits
      have zero : number = 0 := by omega
      rw [zero]
      rfl
  | succ width induction =>
      have shorter : number / 10 < 10 ^ width := by
        rw [Nat.pow_succ] at fits
        omega
      have last := digitChar_value (Nat.mod_lt number (by decide : 0 < 10))
      have front := induction shorter
      unfold readDecimals at front ⊢
      rw [decimals, List.foldl_append, front]
      simp only [List.foldl_cons, List.foldl_nil, last]
      omega

theorem readDecimals_take {width number : Nat} (fits : number < 10 ^ width)
    (rest : List Char) :
    readDecimals ((decimals width number ++ rest).take width) = number := by
  rw [List.take_left' (length_decimals width number)]
  exact readDecimals_decimals fits

theorem drop_decimals (width number : Nat) (separator : Char)
    (rest : List Char) :
    (decimals width number ++ separator :: rest).drop (width + 1) = rest := by
  rw [← List.drop_drop, List.drop_left' (length_decimals width number)]
  rfl

theorem readFields_rendered {layout : List (Nat × Char)} {values : List Nat}
    (fits : Fits layout values) :
    readFields layout (rendered layout values) = values := by
  induction fits with
  | nil => rfl
  | cons bound _ induction =>
      simp only [readFields, rendered]
      rw [readDecimals_take bound, drop_decimals, induction]

/-- A text is its year and then the other fields. -/
theorem toISOString_year (time : Int) :
    toISOString time = isoYear (timeYear time) ++ '-' ::
      rendered (isoFields 'Z').tail (timeFields time).tail := rfl

theorem timeYear_natAbs_lt {time : Int} (range : TimeValue time) :
    (timeYear time).natAbs < 10 ^ 6 := by
  have spec := yearFromDay_spec (time / msPerDay)
  have early := dayFromYear_bounds (timeYear time)
  have late := dayFromYear_bounds (timeYear time + 1)
  obtain ⟨low, high⟩ := range
  unfold timeYear at early late ⊢
  unfold msPerDay at spec early late ⊢
  omega

theorem isoYear_negative {year : Int} (negative : year < 0) :
    isoYear year = '-' :: decimals 6 year.natAbs := by
  unfold isoYear
  rw [if_neg (by omega), if_pos negative]

theorem isoYear_large {year : Int} (large : 9999 < year) :
    isoYear year = '+' :: decimals 6 year.natAbs := by
  unfold isoYear
  rw [if_neg (by omega), if_neg (by omega)]

/-- A text that starts with a digit has a year of four digits. -/
theorem readYear_digit {first : Char} {rest : List Char}
    (isDigit : first.isDigit = true) :
    readYear (first :: rest) =
      ((readDecimals ((first :: rest).take 4) : Int),
        (first :: rest).drop 5) := by
  unfold readYear
  split
  · rename_i isMinus
    rw [(List.cons.inj isMinus).1] at isDigit
    cases isDigit
  · rename_i isPlus
    rw [(List.cons.inj isPlus).1] at isDigit
    cases isDigit
  · rfl

theorem readYear_isoYear {year : Int} (small : year.natAbs < 10 ^ 6)
    (separator : Char) (rest : List Char) :
    readYear (isoYear year ++ separator :: rest) = (year, rest) := by
  by_cases negative : year < 0
  · rw [isoYear_negative negative, List.cons_append]
    simp only [readYear]
    rw [readDecimals_take small, drop_decimals 6]
    congr 1
    omega
  · by_cases large : 9999 < year
    · rw [isoYear_large large, List.cons_append]
      simp only [readYear]
      rw [readDecimals_take small, drop_decimals 6]
      congr 1
      omega
    · have fits : year.toNat < 10 ^ 4 := by omega
      have isYear : isoYear year = decimals 4 year.toNat :=
        if_pos ⟨by omega, by omega⟩
      have first : ∃ digit digits, decimals 4 year.toNat = digit :: digits ∧
          digit.isDigit = true :=
        ⟨_, _, rfl, isDigit_digitChar (Nat.mod_lt _ (by decide))⟩
      obtain ⟨digit, digits, isDecimals, isDigit⟩ := first
      rw [isYear, isDecimals, List.cons_append, readYear_digit isDigit,
        ← List.cons_append, ← isDecimals, readDecimals_take fits,
        drop_decimals 4]
      congr 1
      omega

/-- The fields of a time lead back to it. -/
theorem timeOfFields_timeFields (time : Int) :
    timeOfFields (timeYear time) (timeFields time).tail = time := by
  have days := (monthAndDate_spec (dayOfYear_lt_sum time)).1
  have year := (yearFromDay_spec (time / msPerDay)).1
  have isDay : dayFromYear (timeYear time) + dayOfYear time =
      time / msPerDay := by
    unfold dayOfYear
    unfold timeYear at year ⊢
    omega
  have isClock : (3600000 * (msOfDay time / 3600000) +
      60000 * (msOfDay time / 60000 % 60) +
      1000 * (msOfDay time / 1000 % 60) + msOfDay time % 1000 : Nat) =
        time % msPerDay := by
    unfold msOfDay msPerDay
    omega
  simp only [timeFields, List.tail_cons, timeOfFields, Nat.add_sub_cancel]
  rw [isClock]
  unfold msPerDay at isDay ⊢
  omega

theorem readISOString_toISOString {time : Int} (range : TimeValue time) :
    readISOString (String.ofList (toISOString time)) = some time := by
  have small := timeYear_natAbs_lt range
  have fields := readFields_rendered (laterFields_fit time 'Z')
  unfold readISOString
  rw [String.toList_ofList, toISOString_year, readYear_isoYear small]
  simp only
  rw [fields, timeOfFields_timeFields, ← toISOString_year,
    if_pos ⟨range, rfl⟩]

/-- The engine that parses nothing but what `toISOString` writes. -/
def isoRuntime : Runtime :=
  { parseDate := readISOString, callDepth := 10000 }

theorem isoRuntime_readsDates : isoRuntime.ReadsDates := by
  constructor
  · intro text time parsed
    unfold isoRuntime readISOString at parsed
    simp only at parsed
    split at parsed
    · rename_i isTime
      cases parsed
      exact isTime.1
    · cases parsed
  · intro time range
    exact readISOString_toISOString range

/-! ## One call -/

/-- The text of an argument.  An invalid date has none. -/
def JsTime.iso : JsTime → Option (List Char)
  | .text iso => some iso.toList
  | .date moment => moment.map toISOString

section Call

variable {runtime : Runtime} {time : JsTime} {iso : List Char}

theorem pgTimeWithin_layout (isIso : time.iso = some iso)
    (layout : isoLayout iso = true) (depth : Nat) :
    pgTimeWithin runtime depth time =
      .ok (String.ofList (iso.dropLast ++ "+00:00".toList)) := by
  cases time with
  | text text =>
      cases isIso
      unfold pgTimeWithin
      exact if_pos layout
  | date moment =>
      cases moment with
      | none => cases isIso
      | some moment =>
          cases isIso
          unfold pgTimeWithin
          exact if_pos layout

/-- Without the layout, what the text parses to decides. -/
theorem pgTimeWithin_parsed (isIso : time.iso = some iso)
    (layout : isoLayout iso = false) (depth : Nat) :
    pgTimeWithin runtime depth time =
      match runtime.parseDate (String.ofList iso) with
      | none => .error s!"Invalid timestamp: {String.ofList iso}"
      | some moment =>
          match depth with
          | 0 => .error "Maximum call stack size exceeded"
          | depth + 1 => pgTimeWithin runtime depth (.date (some moment)) := by
  have wide : ¬ isoLayout iso = true := by
    rw [layout]
    decide
  cases time with
  | text text =>
      cases isIso
      conv_lhs => unfold pgTimeWithin
      exact if_neg wide
  | date moment =>
      cases moment with
      | none => cases isIso
      | some moment =>
          cases isIso
          conv_lhs => unfold pgTimeWithin
          exact if_neg wide

end Call

/-! ## Years without the layout -/

theorem isDigit_of_isoLayout {first : Char} {rest : List Char}
    (layout : isoLayout (first :: rest) = true) : first.isDigit = true := by
  unfold isoLayout at layout
  split at layout
  · rename_i isText
    rw [List.all_cons, Bool.and_eq_true, Bool.and_eq_true] at layout
    rw [(List.cons.inj isText).1]
    exact layout.1.1
  · cases layout

/-- The texts of the years 0000 to 9999 have the layout, and no others. -/
theorem isoLayout_toISOString_iff (time : Int) :
    isoLayout (toISOString time) = true ↔ FourDigits time := by
  constructor
  · intro layout
    by_contra wide
    have signed : timeYear time < 0 ∨ 9999 < timeYear time := by
      unfold FourDigits at wide
      omega
    rw [toISOString_year] at layout
    rcases signed with negative | large
    · rw [isoYear_negative negative, List.cons_append] at layout
      cases isDigit_of_isoLayout layout
    · rw [isoYear_large large, List.cons_append] at layout
      cases isDigit_of_isoLayout layout
  · exact isoLayout_toISOString

/-- A date of any other year calls for itself again, however many calls the
stack holds. -/
theorem pgTimeWithin_overflows {runtime : Runtime} (reads : runtime.ReadsDates)
    {time : Int} (range : TimeValue time) (wide : ¬ FourDigits time)
    (depth : Nat) :
    pgTimeWithin runtime depth (.date (some time)) =
      .error "Maximum call stack size exceeded" := by
  have layout : isoLayout (toISOString time) = false := by
    rw [← Bool.not_eq_true, isoLayout_toISOString_iff]
    exact wide
  induction depth with
  | zero => rw [pgTimeWithin_parsed rfl layout, reads.inverse time range]
  | succ depth induction =>
      rw [pgTimeWithin_parsed rfl layout, reads.inverse time range]
      exact induction

/-! ## Ends -/

/-- The base case, or the `Invalid timestamp` error. -/
inductive RegularEnd : Except String String → Prop where
  | stored (text : String) : RegularEnd (.ok text)
  | rejected (iso : String) : RegularEnd (.error s!"Invalid timestamp: {iso}")

/-- Any stack with room for the calls sees the same end. -/
def SettlesWithin (runtime : Runtime) (calls : Nat) (time : JsTime) : Prop :=
  ∃ result, RegularEnd result ∧
    ∀ depth, calls ≤ depth → pgTimeWithin runtime depth time = result

/-- Some stack is large enough. -/
def Terminates (runtime : Runtime) (time : JsTime) : Prop :=
  ∃ depth, pgTimeWithin runtime depth time ≠
    .error "Maximum call stack size exceeded"

/-- A date has a time value. -/
def JsTime.InRange : JsTime → Prop
  | .date (some time) => TimeValue time
  | _ => True

/-- A text that has the layout, or parses to no date or to one of the years
0000 to 9999; a valid date of these years. -/
def JsTime.YearFits (runtime : Runtime) : JsTime → Prop
  | .text iso => isoLayout iso.toList = true ∨
      ∀ moment, runtime.parseDate iso = some moment → FourDigits moment
  | .date moment => ∃ time, moment = some time ∧ FourDigits time

/-- Messages that differ from the start of the error are not it. -/
theorem not_regularEnd {message : String}
    (differs : message.toList.take 14 ≠ "Invalid timest".toList) :
    ¬ RegularEnd (.error message) := by
  intro settled
  generalize isResult : Except.error message = result at settled
  cases settled with
  | stored text => cases isResult
  | rejected iso =>
      apply differs
      cases isResult
      rw [show toString "Invalid timestamp: " ++ toString iso =
        "Invalid timestamp: " ++ iso from rfl, String.toList_append,
        List.take_append_of_le_length (by decide)]
      decide

theorem not_regularEnd_overflow :
    ¬ RegularEnd (.error "Maximum call stack size exceeded") := by
  apply not_regularEnd
  decide

theorem not_regularEnd_invalidDate :
    ¬ RegularEnd (.error "Invalid time value") := by
  apply not_regularEnd
  decide

theorem settlesWithin_of_yearFits {runtime : Runtime} {time : JsTime}
    (fits : time.YearFits runtime) : SettlesWithin runtime 1 time := by
  cases time with
  | text text =>
      by_cases layout : isoLayout text.toList = true
      · exact ⟨_, .stored _, fun depth _ => pgTimeWithin_layout rfl layout depth⟩
      · rw [Bool.not_eq_true] at layout
        have parses := fits.resolve_left (by simp [layout])
        have parsed := @pgTimeWithin_parsed runtime (.text text) _ rfl layout
        rw [String.ofList_toList] at parsed
        cases isDate : runtime.parseDate text with
        | none =>
            refine ⟨_, .rejected text, fun depth _ => ?_⟩
            rw [parsed, isDate]
        | some moment =>
            have digits := parses moment isDate
            refine ⟨_, .stored (pgText moment), fun depth room => ?_⟩
            rw [parsed, isDate]
            cases depth with
            | zero => cases room
            | succ depth =>
                exact pgTimeWithin_layout rfl
                  (isoLayout_toISOString digits) depth
  | date moment =>
      obtain ⟨time, rfl, digits⟩ := fits
      exact ⟨_, .stored _, fun depth _ =>
        pgTimeWithin_layout rfl (isoLayout_toISOString digits) depth⟩

/-- Any other text or valid date calls for more, whatever the stack. -/
theorem pgTimeWithin_of_not_yearFits {runtime : Runtime}
    (reads : runtime.ReadsDates) {time : JsTime} (range : time.InRange)
    (wide : ¬ time.YearFits runtime) (valid : time ≠ .date none)
    (depth : Nat) :
    pgTimeWithin runtime depth time =
      .error "Maximum call stack size exceeded" := by
  cases time with
  | text text =>
      simp only [JsTime.YearFits, not_or, not_forall] at wide
      obtain ⟨layout, moment, isDate, wide⟩ := wide
      rw [Bool.not_eq_true] at layout
      rw [pgTimeWithin_parsed rfl layout, String.ofList_toList, isDate]
      cases depth with
      | zero => rfl
      | succ depth =>
          exact pgTimeWithin_overflows reads (reads.range text moment isDate)
            wide depth
  | date moment =>
      cases moment with
      | none => exact absurd rfl valid
      | some time =>
          apply pgTimeWithin_overflows reads range
          intro digits
          exact wide ⟨time, rfl, digits⟩

theorem not_terminates {runtime : Runtime} (reads : runtime.ReadsDates)
    {time : JsTime} (range : time.InRange) (wide : ¬ time.YearFits runtime)
    (valid : time ≠ .date none) : ¬ Terminates runtime time := by
  intro terminates
  obtain ⟨depth, ends⟩ := terminates
  exact ends (pgTimeWithin_of_not_yearFits reads range wide valid depth)

theorem Terminates.of_settlesWithin {runtime : Runtime} {calls : Nat}
    {time : JsTime} (settles : SettlesWithin runtime calls time) :
    Terminates runtime time := by
  obtain ⟨result, settled, ends⟩ := settles
  refine ⟨calls, ?_⟩
  intro overflows
  rw [← ends calls (Nat.le_refl _), overflows] at settled
  exact not_regularEnd_overflow settled

/-- `pgTime` settles with at most one call of itself exactly when the year
fits.  Otherwise it never ends, but for an invalid date, whose `toISOString`
throws. -/
theorem pgTime_settles_iff {runtime : Runtime} (reads : runtime.ReadsDates)
    {time : JsTime} (range : time.InRange) :
    (SettlesWithin runtime 1 time ↔ time.YearFits runtime) ∧
      (Terminates runtime time ↔
        time.YearFits runtime ∨ time = .date none) := by
  have ends : Terminates runtime time → time.YearFits runtime ∨
      time = .date none := by
    intro terminates
    by_contra neither
    rw [not_or] at neither
    exact not_terminates reads range neither.1 neither.2 terminates
  refine ⟨⟨?_, settlesWithin_of_yearFits⟩, ⟨ends, ?_⟩⟩
  · intro settles
    rcases ends (.of_settlesWithin settles) with fits | isInvalid
    · exact fits
    · obtain ⟨result, settled, ends⟩ := settles
      rw [← ends 1 (Nat.le_refl _), isInvalid, pgTimeWithin] at settled
      exact absurd settled not_regularEnd_invalidDate
  · intro either
    rcases either with fits | isInvalid
    · exact .of_settlesWithin (settlesWithin_of_yearFits fits)
    · refine ⟨0, ?_⟩
      rw [isInvalid, pgTimeWithin]
      simp

/-- The first moment of the year 10000. -/
theorem pgTime_settles_iff_year10000 :
    (SettlesWithin isoRuntime 1 (.date (some 253402300800000)) ↔
        JsTime.YearFits isoRuntime (.date (some 253402300800000))) ∧
      (Terminates isoRuntime (.date (some 253402300800000)) ↔
        JsTime.YearFits isoRuntime (.date (some 253402300800000)) ∨
          JsTime.date (some 253402300800000) = .date none) :=
  pgTime_settles_iff isoRuntime_readsDates
    (by decide : TimeValue 253402300800000)

/-- The year 10000 as a date, and as the text of it. -/
theorem pgTime_recurs_year10000 :
    TimeValue 253402300800000 ∧
      toISOString 253402300800000 = "+010000-01-01T00:00:00.000Z".toList ∧
      ¬ SettlesWithin isoRuntime 1 (.date (some 253402300800000)) ∧
      ¬ SettlesWithin isoRuntime 1 (.text "+010000-01-01T00:00:00.000Z") ∧
      ∀ depth, pgTimeWithin isoRuntime depth (.date (some 253402300800000)) =
        .error "Maximum call stack size exceeded" := by
  have range : TimeValue 253402300800000 := by decide
  have isText : toISOString 253402300800000 =
      "+010000-01-01T00:00:00.000Z".toList := by decide
  have wide : ¬ FourDigits 253402300800000 := by
    intro digits
    exact absurd digits.2 (by decide)
  have endless := pgTimeWithin_overflows isoRuntime_readsDates range wide
  refine ⟨range, isText, ?_, ?_, endless⟩
  · intro settles
    obtain ⟨depth, ends⟩ := Terminates.of_settlesWithin settles
    exact ends (endless depth)
  · intro settles
    have parsed := isoRuntime_readsDates.inverse _ range
    rw [isText, String.ofList_toList] at parsed
    have misfit : ¬ JsTime.YearFits isoRuntime
        (.text "+010000-01-01T00:00:00.000Z") := by
      intro fits
      rcases fits with layout | digits
      · revert layout
        decide
      · exact wide (digits _ parsed)
    exact not_terminates isoRuntime_readsDates
      (show JsTime.InRange (.text _) from trivial) misfit JsTime.noConfusion
      (.of_settlesWithin settles)

end Stellar8004.Indexer
