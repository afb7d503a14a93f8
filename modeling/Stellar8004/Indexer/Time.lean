import Mathlib

/-!
# Timestamps

`pgTime` of `apps/indexer/src/db.ts` rewrites RPC and JavaScript times into
the layout the schema stores.  JavaScript's `Date` is a count of milliseconds
since the epoch; `toISOString` follows the date arithmetic of the language
standard.
-/

namespace Stellar8004.Indexer

/-! ## `Date.prototype.toISOString` -/

def msPerDay : Int := 86400000

/-- The day number of January 1 of a year. -/
def dayFromYear (year : Int) : Int :=
  365 * (year - 1970) + (year - 1969) / 4 - (year - 1901) / 100 +
    (year - 1601) / 400

/-- The largest year that does not start after the day. -/
def yearFromDay (day : Int) : Int :=
  let estimate := day * 400 / 146097 + 1970
  if dayFromYear (estimate + 1) ≤ day then estimate + 1
  else if day < dayFromYear estimate then estimate - 1
  else estimate

def isLeapYear (year : Int) : Bool :=
  (year % 4 = 0 && year % 100 ≠ 0) || year % 400 = 0

def monthLengths (year : Int) : List Nat :=
  [31, if isLeapYear year then 29 else 28, 31, 30, 31, 30, 31, 31, 30, 31, 30,
    31]

/-- The month, counted from zero, and the day of the month, counted from one,
of a day counted from the start of the first month. -/
def monthAndDate : List Nat → Nat → Nat × Nat
  | [], day => (0, day + 1)
  | length :: lengths, day =>
      if day < length then (0, day + 1)
      else
        let later := monthAndDate lengths (day - length)
        (later.1 + 1, later.2)

/-- The last `width` decimal digits of a number. -/
def decimals : (width : Nat) → Nat → List Char
  | 0, _ => []
  | width + 1, number =>
      decimals width (number / 10) ++ [Nat.digitChar (number % 10)]

/-- Four digits, or a sign and six digits outside the years 0000 to 9999. -/
def isoYear (year : Int) : List Char :=
  if 0 ≤ year ∧ year ≤ 9999 then decimals 4 year.toNat
  else (if year < 0 then '-' else '+') :: decimals 6 year.natAbs

def toISOString (time : Int) : List Char :=
  let day := time / msPerDay
  let year := yearFromDay day
  let monthDate :=
    monthAndDate (monthLengths year) (day - dayFromYear year).toNat
  let ms := (time % msPerDay).toNat
  isoYear year ++ '-' :: (decimals 2 (monthDate.1 + 1) ++ '-' ::
    (decimals 2 monthDate.2 ++ 'T' :: (decimals 2 (ms / 3600000) ++ ':' ::
      (decimals 2 (ms / 60000 % 60) ++ ':' ::
        (decimals 2 (ms / 1000 % 60) ++ '.' ::
          (decimals 3 (ms % 1000) ++ ['Z']))))))

/-! ## `pgTime` -/

/-- A `string | Date` argument.  An invalid date has no time value. -/
inductive JsTime where
  | text (iso : String)
  | date (time : Option Int)

/-- What the indexer takes from the JavaScript engine: `Date.parse`, and how
many nested calls the stack holds. -/
structure Runtime where
  parseDate : String → Option Int
  callDepth : Nat

/-- One or more digits, then `Z`. -/
def isoFractionDigits : List Char → Bool
  | [] => false
  | [_] => false
  | [digit, zone] => digit.isDigit && zone == 'Z'
  | digit :: rest => digit.isDigit && isoFractionDigits rest

/-- `(\.\d+)?Z` to the end of the text. -/
def isoFraction : List Char → Bool
  | ['Z'] => true
  | '.' :: digits => isoFractionDigits digits
  | _ => false

/-- `^\d{4}-\d\d-\d\dT\d\d:\d\d:\d\d(\.\d+)?Z$`. -/
def isoLayout : List Char → Bool
  | y₁ :: y₂ :: y₃ :: y₄ :: '-' :: m₁ :: m₂ :: '-' :: d₁ :: d₂ :: 'T' ::
      h₁ :: h₂ :: ':' :: i₁ :: i₂ :: ':' :: s₁ :: s₂ :: rest =>
      [y₁, y₂, y₃, y₄, m₁, m₂, d₁, d₂, h₁, h₂, i₁, i₂, s₁, s₂].all
        Char.isDigit && isoFraction rest
  | _ => false

/-- `pgTime` with room for `depth` further nested calls. -/
def pgTimeWithin (runtime : Runtime) : (depth : Nat) → JsTime →
    Except String String
  | _, .date none => .error "Invalid time value"
  | depth, time =>
      let iso : List Char :=
        match time with
        | .text iso => iso.toList
        | .date moment => toISOString (moment.getD 0)
      if isoLayout iso then
        .ok (String.ofList (iso.dropLast ++ "+00:00".toList))
      else
        let text := String.ofList iso
        match runtime.parseDate text with
        | none => .error s!"Invalid timestamp: {text}"
        | some moment =>
            match depth with
            | 0 => .error "Maximum call stack size exceeded"
            | depth + 1 => pgTimeWithin runtime depth (.date (some moment))

def pgTime (runtime : Runtime) (time : JsTime) : Except String String :=
  pgTimeWithin runtime runtime.callDepth time

/-- The stored form of a text in the expected layout. -/
def storedTime (iso : String) : String :=
  String.ofList (iso.toList.dropLast ++ "+00:00".toList)

theorem pgTime_text {runtime : Runtime} {iso : String}
    (layout : isoLayout iso.toList = true) :
    pgTime runtime (.text iso) = .ok (storedTime iso) := by
  unfold pgTime
  cases runtime.callDepth <;> simp [pgTimeWithin, layout, storedTime]

end Stellar8004.Indexer
