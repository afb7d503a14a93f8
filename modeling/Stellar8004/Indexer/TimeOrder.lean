import Stellar8004.Indexer.Time

/-!
# Text order is time order

The lock compares timestamps as texts.  A time between the years 0000 and 9999
is written as fields of fixed width, largest unit first, so the texts compare
as the times do.
-/

namespace Stellar8004.Indexer

/-! ## Fields of fixed width -/

theorem append_lt_append {α : Type*} [LT α] {first second : List α}
    (less : first < second) (same : first.length = second.length)
    (left right : List α) : first ++ left < second ++ right := by
  induction less with
  | nil => cases same
  | cons _ induction =>
      exact .cons (induction (Nat.succ.inj same))
  | rel less => exact .rel less

@[simp] theorem length_decimals (width number : Nat) :
    (decimals width number).length = width := by
  induction width generalizing number with
  | zero => rfl
  | succ width induction => simp [decimals, induction]

theorem digitChar_lt {small large : Nat} (less : small < large)
    (digit : large < 10) : Nat.digitChar small < Nat.digitChar large := by
  have all : ∀ large : Fin 10, ∀ small : Fin 10, small < large →
      Nat.digitChar small < Nat.digitChar large := by decide
  exact all ⟨large, digit⟩ ⟨small, Nat.lt_trans less digit⟩ less

theorem decimals_lt {width small large : Nat} (less : small < large)
    (fits : large < 10 ^ width) :
    decimals width small < decimals width large := by
  induction width generalizing small large with
  | zero =>
      rw [Nat.pow_zero] at fits
      omega
  | succ width induction =>
      have shorter : large / 10 < 10 ^ width := by
        rw [Nat.pow_succ] at fits
        omega
      simp only [decimals]
      rcases Nat.lt_or_ge (small / 10) (large / 10) with ahead | level
      · apply append_lt_append (induction ahead shorter)
        simp
      · have same : small / 10 = large / 10 := by omega
        have last : small % 10 < large % 10 := by omega
        rw [same]
        apply List.append_left_lt
        exact .rel (digitChar_lt last (Nat.mod_lt _ (by decide)))

/-- Numbers of fixed width, each followed by a separator. -/
def rendered : List (Nat × Char) → List Nat → List Char
  | (width, separator) :: layout, value :: values =>
      decimals width value ++ separator :: rendered layout values
  | _, _ => []

/-- Every number fits its width. -/
def Fits (layout : List (Nat × Char)) (values : List Nat) : Prop :=
  List.Forall₂ (fun field value => value < 10 ^ field.1) layout values

theorem length_rendered {layout : List (Nat × Char)}
    {first second : List Nat} (fits : Fits layout first)
    (others : Fits layout second) :
    (rendered layout first).length = (rendered layout second).length := by
  induction fits generalizing second with
  | nil =>
      cases others
      rfl
  | cons _ _ induction =>
      cases others with
      | cons _ later => simp [rendered, induction later]

theorem rendered_lt {layout : List (Nat × Char)} {first second : List Nat}
    (fits : Fits layout first) (others : Fits layout second)
    (less : first < second) :
    rendered layout first < rendered layout second := by
  induction fits generalizing second with
  | nil =>
      cases others
      cases less
  | @cons field value layout values _ _ induction =>
      cases others with
      | @cons _ other _ rest bound later =>
          simp only [rendered]
          rcases List.cons_lt_cons_iff.mp less with ahead | ⟨same, behind⟩
          · apply append_lt_append (decimals_lt ahead bound)
            simp
          · rw [same]
            apply List.append_left_lt
            exact .cons (induction later behind)

/-- The last number and its separator. -/
theorem rendered_snoc {layout : List (Nat × Char)} {values : List Nat}
    (fits : Fits layout values) (width : Nat) (last : Char) (value : Nat)
    (isLast : layout.getLast? = some (width, last))
    (isValue : values.getLast? = some value) :
    rendered layout values =
      rendered layout.dropLast values.dropLast ++ decimals width value ++
        [last] := by
  induction fits with
  | nil => cases isLast
  | @cons field number layout values _ later induction =>
      cases later with
      | nil =>
          cases isLast
          cases isValue
          simp [rendered]
      | cons _ _ =>
          rw [List.getLast?_cons_cons] at isLast isValue
          have rest := induction isLast isValue
          rw [rendered, rest]
          simp [rendered]

/-! ## Calendar -/

theorem dayFromYear_bounds (year : Int) :
    146097 * (year - 1970) - 506 ≤ 400 * dayFromYear year ∧
      400 * dayFromYear year ≤ 146097 * (year - 1970) + 589 := by
  unfold dayFromYear
  omega

theorem yearFromDay_spec (day : Int) :
    dayFromYear (yearFromDay day) ≤ day ∧
      day < dayFromYear (yearFromDay day + 1) := by
  unfold yearFromDay
  simp only
  generalize isEstimate : day * 400 / 146097 + 1970 = estimate
  have before := dayFromYear_bounds (estimate - 1)
  have beyond := dayFromYear_bounds (estimate + 1 + 1)
  split
  · constructor
    · assumption
    · omega
  · split
    · have same : estimate - 1 + 1 = estimate := by omega
      rw [same]
      constructor
      · omega
      · assumption
    · omega

/-- The days of a year, as its months say. -/
theorem dayFromYear_succ (year : Int) :
    dayFromYear (year + 1) = dayFromYear year + (monthLengths year).sum := by
  unfold dayFromYear monthLengths isLeapYear
  simp only [List.sum_cons, List.sum_nil]
  split
  · rename_i leap
    simp only [Bool.or_eq_true, Bool.and_eq_true, decide_eq_true_eq] at leap
    omega
  · rename_i common
    simp only [Bool.or_eq_true, Bool.and_eq_true, decide_eq_true_eq,
      not_or, not_and] at common
    omega

theorem dayFromYear_mono {first second : Int} (less : first ≤ second) :
    dayFromYear first ≤ dayFromYear second := by
  unfold dayFromYear
  omega

theorem yearFromDay_mono {first second : Int} (less : first ≤ second) :
    yearFromDay first ≤ yearFromDay second := by
  by_contra back
  have ordered := dayFromYear_mono
    (show yearFromDay second + 1 ≤ yearFromDay first by omega)
  have early := yearFromDay_spec first
  have late := yearFromDay_spec second
  omega

theorem monthAndDate_lt {lengths : List Nat} {first second : Nat}
    (less : first < second) :
    (monthAndDate lengths first).1 < (monthAndDate lengths second).1 ∨
      (monthAndDate lengths first).1 = (monthAndDate lengths second).1 ∧
        (monthAndDate lengths first).2 <
          (monthAndDate lengths second).2 := by
  induction lengths generalizing first second with
  | nil =>
      refine .inr ⟨rfl, ?_⟩
      simp only [monthAndDate]
      omega
  | cons length lengths induction =>
      simp only [monthAndDate]
      by_cases here : first < length
      · rw [if_pos here]
        split
        · refine .inr ⟨rfl, ?_⟩
          dsimp only
          omega
        · exact .inl (Nat.succ_pos _)
      · rw [if_neg here, if_neg (show ¬ second < length by omega)]
        have later := @induction (first - length) (second - length) (by omega)
        dsimp only
        omega

theorem monthAndDate_bounds {lengths : List Nat} {day : Nat}
    (short : ∀ length ∈ lengths, length ≤ 31) (inside : day < lengths.sum) :
    (monthAndDate lengths day).1 < lengths.length ∧
      (monthAndDate lengths day).2 ≤ 31 := by
  induction lengths generalizing day with
  | nil => cases inside
  | cons length lengths induction =>
      have here := short length List.mem_cons_self
      rw [List.sum_cons] at inside
      simp only [monthAndDate, List.length_cons]
      split
      · dsimp only
        omega
      · have later := @induction (day - length)
          (fun other member => short other (List.mem_cons_of_mem _ member))
          (by omega)
        dsimp only
        omega

/-! ## Times -/

def timeYear (time : Int) : Int := yearFromDay (time / msPerDay)

/-- A day of its year, counted from zero. -/
def dayOfYear (time : Int) : Nat :=
  (time / msPerDay - dayFromYear (timeYear time)).toNat

def msOfDay (time : Int) : Nat := (time % msPerDay).toNat

/-- The numbers `toISOString` writes. -/
def timeFields (time : Int) : List Nat :=
  let monthDate := monthAndDate (monthLengths (timeYear time)) (dayOfYear time)
  [(timeYear time).toNat, monthDate.1 + 1, monthDate.2,
    msOfDay time / 3600000, msOfDay time / 60000 % 60,
    msOfDay time / 1000 % 60, msOfDay time % 1000]

def isoFields (last : Char) : List (Nat × Char) :=
  [(4, '-'), (2, '-'), (2, 'T'), (2, ':'), (2, ':'), (2, '.'), (3, last)]

/-- A time whose year is written with four digits. -/
def FourDigits (time : Int) : Prop :=
  0 ≤ timeYear time ∧ timeYear time ≤ 9999

/-- The text stored for a time. -/
def pgText (time : Int) : String :=
  String.ofList ((toISOString time).dropLast ++ "+00:00".toList)

theorem toISOString_eq {time : Int} (digits : FourDigits time) :
    toISOString time = rendered (isoFields 'Z') (timeFields time) := by
  have isYear : isoYear (timeYear time) =
      decimals 4 (timeYear time).toNat := if_pos digits
  simp only [toISOString, rendered, isoFields, timeFields, ← isYear]
  rfl

theorem timeYear_mono {first second : Int} (less : first ≤ second) :
    timeYear first ≤ timeYear second := by
  apply yearFromDay_mono
  unfold msPerDay
  omega

theorem dayOfYear_lt_sum (time : Int) :
    dayOfYear time < (monthLengths (timeYear time)).sum := by
  have year := yearFromDay_spec (time / msPerDay)
  have days := dayFromYear_succ (timeYear time)
  unfold dayOfYear
  unfold timeYear at days ⊢
  omega

theorem msOfDay_lt (time : Int) : msOfDay time < 86400000 := by
  unfold msOfDay msPerDay
  omega

theorem monthLengths_le {year : Int} {length : Nat}
    (member : length ∈ monthLengths year) : length ≤ 31 := by
  simp only [monthLengths, List.mem_cons, List.not_mem_nil, or_false]
    at member
  split at member <;> omega

theorem monthAndDate_year (time : Int) :
    (monthAndDate (monthLengths (timeYear time)) (dayOfYear time)).1 < 12 ∧
      (monthAndDate (monthLengths (timeYear time)) (dayOfYear time)).2 ≤ 31 :=
  monthAndDate_bounds (fun _ => monthLengths_le) (dayOfYear_lt_sum time)

/-- Month, date and clock fit, whatever the year. -/
theorem laterFields_fit (time : Int) (last : Char) :
    Fits (isoFields last).tail (timeFields time).tail := by
  obtain ⟨month, date⟩ := monthAndDate_year time
  have ms := msOfDay_lt time
  unfold Fits isoFields timeFields
  refine .cons ?_ (.cons ?_ (.cons ?_ (.cons ?_ (.cons ?_ (.cons ?_ .nil)))))
  all_goals
    simp only
    omega

theorem timeFields_fit {time : Int} (digits : FourDigits time)
    (last : Char) : Fits (isoFields last) (timeFields time) := by
  apply List.Forall₂.cons _ (laterFields_fit time last)
  obtain ⟨positive, small⟩ := digits
  simp only
  omega

theorem pgText_eq {time : Int} (digits : FourDigits time) :
    (pgText time).toList =
      rendered (isoFields '+') (timeFields time) ++ "00:00".toList := by
  have fits := timeFields_fit digits
  have whole : ∀ last, rendered (isoFields last) (timeFields time) =
      rendered (isoFields last).dropLast (timeFields time).dropLast ++
        decimals 3 (msOfDay time % 1000) ++ [last] := fun last =>
    rendered_snoc (fits last) 3 last (msOfDay time % 1000) rfl rfl
  unfold pgText
  rw [toISOString_eq digits, String.toList_ofList, whole, whole,
    List.dropLast_concat, List.append_assoc, List.append_assoc,
    List.append_assoc]
  rfl

theorem clockFields_lt {first second : Nat} (less : first < second) :
    [first / 3600000, first / 60000 % 60, first / 1000 % 60, first % 1000] <
      [second / 3600000, second / 60000 % 60, second / 1000 % 60,
        second % 1000] := by
  rcases Nat.lt_or_ge (first / 3600000) (second / 3600000) with
    hour | sameHour
  · exact .rel hour
  · rw [show first / 3600000 = second / 3600000 by omega]
    apply List.Lex.cons
    rcases Nat.lt_or_ge (first / 60000 % 60) (second / 60000 % 60) with
      minute | sameMinute
    · exact .rel minute
    · rw [show first / 60000 % 60 = second / 60000 % 60 by omega]
      apply List.Lex.cons
      rcases Nat.lt_or_ge (first / 1000 % 60) (second / 1000 % 60) with
        second | sameSecond
      · exact .rel second
      · rw [show first / 1000 % 60 = second / 1000 % 60 by omega]
        apply List.Lex.cons
        apply List.Lex.rel
        omega

theorem timeFields_lt {first second : Int} (less : first < second)
    (positive : 0 ≤ timeYear first) :
    timeFields first < timeFields second := by
  unfold timeFields
  rcases Int.lt_or_eq_of_le (timeYear_mono (Int.le_of_lt less)) with
    ahead | same
  · apply List.Lex.rel
    omega
  · rw [← same]
    apply List.Lex.cons
    rcases Nat.lt_or_ge (dayOfYear first) (dayOfYear second) with day | level
    · rcases @monthAndDate_lt (monthLengths (timeYear first)) _ _ day with
        month | ⟨sameMonth, date⟩
      · apply List.Lex.rel
        omega
      · rw [sameMonth]
        apply List.Lex.cons
        exact .rel date
    · have sameDay : dayOfYear first = dayOfYear second := by
        unfold dayOfYear msPerDay at level ⊢
        rw [← same] at level ⊢
        have spec := yearFromDay_spec (first / 86400000)
        unfold timeYear msPerDay at level ⊢
        omega
      rw [sameDay]
      apply List.Lex.cons
      apply List.Lex.cons
      have ms : msOfDay first < msOfDay second := by
        have one := yearFromDay_spec (first / msPerDay)
        have two := yearFromDay_spec (second / msPerDay)
        unfold dayOfYear at sameDay
        rw [← same] at sameDay
        unfold msOfDay
        unfold timeYear at same sameDay
        rw [← same] at two
        unfold msPerDay at *
        omega
      exact clockFields_lt ms

/-- A later time is a larger text. -/
theorem pgText_lt {first second : Int} (less : first < second)
    (early : FourDigits first) (late : FourDigits second) :
    pgText first < pgText second := by
  rw [String.lt_iff, pgText_eq early, pgText_eq late]
  apply append_lt_append
  · exact rendered_lt (timeFields_fit early '+') (timeFields_fit late '+')
      (timeFields_lt less early.1)
  · exact length_rendered (timeFields_fit early '+') (timeFields_fit late '+')

/-- A smaller text is an earlier time. -/
theorem lt_of_pgText_lt {first second : Int}
    (less : pgText first < pgText second) (early : FourDigits first)
    (late : FourDigits second) : first < second := by
  by_contra notEarlier
  rcases Int.lt_or_eq_of_le (Int.not_lt.mp notEarlier) with after | same
  · exact String.lt_asymm less (pgText_lt after late early)
  · rw [same] at less
    exact String.lt_irrefl _ less

/-! ## `pgTime` of a date -/

theorem isDigit_digitChar {digit : Nat} (small : digit < 10) :
    (Nat.digitChar digit).isDigit = true := by
  have all : ∀ digit : Fin 10, (Nat.digitChar digit).isDigit = true := by
    decide
  exact all ⟨digit, small⟩

theorem isoLayout_toISOString {time : Int} (digits : FourDigits time) :
    isoLayout (toISOString time) = true := by
  have last : ∀ number, (Nat.digitChar (number % 10)).isDigit = true :=
    fun number => isDigit_digitChar (Nat.mod_lt _ (by decide))
  rw [toISOString_eq digits]
  simp only [rendered, isoFields, timeFields, decimals, List.nil_append,
    List.cons_append, isoLayout, isoFraction, isoFractionDigits, last,
    List.all_cons, List.all_nil, Bool.and_true]
  rfl

theorem pgTime_date (runtime : Runtime) {time : Int}
    (digits : FourDigits time) :
    pgTime runtime (.date (some time)) = .ok (pgText time) := by
  have layout := isoLayout_toISOString digits
  unfold pgTime
  cases runtime.callDepth <;>
    simp [pgTimeWithin, layout, pgText]

/-! ## Before the year 9999 -/

/-- The first moment of the year 9999. -/
def year9999 : Int := dayFromYear 9999 * msPerDay

theorem timeYear_lt {time : Int} (before : time < year9999) :
    timeYear time < 9999 := by
  by_contra late
  have ordered := dayFromYear_mono (Int.not_lt.mp late)
  have spec := yearFromDay_spec (time / msPerDay)
  unfold timeYear at ordered
  unfold year9999 msPerDay at before
  unfold msPerDay at ordered spec
  omega

theorem timeYear_nonneg {time : Int} (recent : -msPerDay ≤ time) :
    0 ≤ timeYear time := by
  have ordered : yearFromDay (-1) ≤ timeYear time := by
    apply yearFromDay_mono
    unfold msPerDay at recent ⊢
    omega
  have isYear : yearFromDay (-1) = 1969 := by decide
  omega

/-- A clock before the year 9999, and the time a lock goes stale. -/
theorem fourDigits_of_recent {time : Int} (recent : -msPerDay ≤ time)
    (before : time < year9999) : FourDigits time :=
  ⟨timeYear_nonneg recent, by
    have year := timeYear_lt before
    omega⟩

/-- The copy fence compares as later than any such time. -/
theorem pgText_lt_fence {time : Int} (recent : -msPerDay ≤ time)
    (before : time < year9999) :
    pgText time < "9999-12-31T00:00:00+00:00" := by
  have digits := fourDigits_of_recent recent before
  have year := timeYear_lt before
  have isFence : "9999-12-31T00:00:00+00:00".toList =
      decimals 4 9999 ++ "-12-31T00:00:00+00:00".toList := by decide
  rw [String.lt_iff, pgText_eq digits, isFence]
  simp only [timeFields, isoFields, rendered, List.append_assoc]
  apply append_lt_append
  · apply decimals_lt
    · omega
    · decide
  · simp

end Stellar8004.Indexer
