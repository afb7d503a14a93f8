import Stellar8004.D1.Script
import Stellar8004.D1.Sqlite
import Stellar8004.Library.JoinedPairs

/-!
# Reading literals back

What SQLite reads in a literal of the script is the value the script wrote,
and the pieces of a text make the text again.
-/

namespace Stellar8004.D1

open Indexer (Json)

/-- The value of a column as the database has it: a boolean is 0 or 1. -/
def cell : Json → Value
  | .bool value => .integer (if value then 1 else 0)
  | .number number => ((integerOf number.toList).map .integer).getD .null
  | .text text => .text text
  | _ => .null

def NoNul (text : String) : Prop := Char.ofNat 0 ∉ text.toList

/-! ## Texts -/

theorem readText_doubled {chars : List Char} (clean : Char.ofNat 0 ∉ chars) :
    readText ((chars.flatMap fun char =>
        if char = quoteMark then [quoteMark, quoteMark] else [char]) ++
      [quoteMark]) = some chars := by
  induction chars with
  | nil => rfl
  | cons char chars induction =>
      obtain ⟨visible, rest⟩ := List.ne_and_not_mem_of_not_mem_cons clean
      have later := induction rest
      rw [List.flatMap_cons]
      by_cases same : char = quoteMark
      · rw [if_pos same, List.append_assoc, same]
        change (if quoteMark = quoteMark then
            if quoteMark = quoteMark then
              (readText (_ ++ [quoteMark])).map (quoteMark :: ·)
            else none
          else _) = _
        rw [if_pos rfl, if_pos rfl, later]
        rfl
      · rw [if_neg same, List.append_assoc, List.singleton_append]
        cases isRest : (chars.flatMap fun char =>
            if char = quoteMark then [quoteMark, quoteMark] else [char]) ++
          [quoteMark] with
        | nil => exact absurd isRest (by simp)
        | cons next others =>
            rw [isRest] at later
            rw [readText, if_neg same, if_neg visible.symm, later]
            rfl

theorem toList_textLiteral (text : String) :
    (textLiteral text).toList = quoteMark ::
      ((text.toList.flatMap fun char =>
        if char = quoteMark then [quoteMark, quoteMark] else [char]) ++
          [quoteMark]) := by
  have inside : (doubled text).toList = text.toList.flatMap fun char =>
      if char = quoteMark then [quoteMark, quoteMark] else [char] :=
    String.toList_ofList
  rw [textLiteral, String.toList_append, String.toList_append, inside]
  rfl

theorem readLiteral_textLiteral {text : String} (clean : NoNul text) :
    readLiteral (textLiteral text) = some (.text text) := by
  rw [readLiteral, toList_textLiteral]
  simp only [if_true]
  rw [readText_doubled clean, Option.map_some, String.ofList_toList]

/-! ## Numbers -/

theorem integerOf_start {first : Char} {rest : List Char} {value : Int}
    (isInteger : integerOf (first :: rest) = some value) :
    first = '-' ∨ first.isDigit = true := by
  unfold integerOf at isInteger
  split at isInteger
  · rename_i others same
    exact .inl (List.cons.inj same).1
  · right
    obtain ⟨number, isNumber, -⟩ := Option.map_eq_some_iff.mp isInteger
    unfold digitsNumber at isNumber
    split_ifs at isNumber with digits
    exact List.all_eq_true.mp digits.2 first List.mem_cons_self

theorem readLiteral_number {number : String}
    (safe : isSafeInteger number = true) :
    readLiteral number = some (cell (.number number)) := by
  unfold isSafeInteger at safe
  split at safe
  · rename_i value isInteger
    rw [cell, isInteger, Option.map_some, Option.getD_some, readLiteral]
    cases isList : number.toList with
    | nil =>
        rw [isList] at isInteger
        cases isInteger
    | cons first rest =>
        rw [isList] at isInteger
        have start := integerOf_start isInteger
        have notQuote : first ≠ quoteMark := by
          rintro rfl
          exact absurd start (by decide)
        have notNull : number ≠ "NULL" := by
          rintro rfl
          have isFirst : first = 'N' := (List.cons.inj
            ((by decide : "NULL".toList = ['N', 'U', 'L', 'L']).symm.trans
              isList)).1.symm
          rw [isFirst] at start
          exact absurd start (by decide)
        simp only [if_neg notQuote, if_neg notNull]
        rw [isInteger, Option.map_some]
  · cases safe

/-- A value is written and read back. -/
theorem readLiteral_literalText {value : Json} (writable : Writable value)
    (clean : ∀ text, value = .text text → NoNul text) :
    readLiteral (literalText value) = some (cell value) := by
  cases value with
  | null => decide
  | bool value => cases value <;> decide
  | number number => exact readLiteral_number writable
  | text text => exact readLiteral_textLiteral (clean text rfl)
  | array items => exact writable.elim
  | object fields => exact writable.elim

/-! ## Pieces -/

theorem join_piecesFrom (chars : List Char) (current : String) (bytes : Nat) :
    ((piecesFrom chars current bytes).flatMap String.toList) =
      current.toList ++ chars := by
  induction chars generalizing current bytes with
  | nil =>
      rw [piecesFrom]
      split_ifs with empty
      · rw [empty]
        rfl
      · rw [List.flatMap_cons, List.flatMap_nil]
  | cons char chars induction =>
      rw [piecesFrom]
      split_ifs
      · rw [List.flatMap_cons, induction, String.toList_singleton]
        rfl
      · rw [induction, String.toList_push, List.append_assoc]
        rfl

theorem toList_pieces (text : String) :
    (pieces text).flatMap String.toList = text.toList :=
  join_piecesFrom text.toList "" 0

theorem join_pieces (text : String) : String.join (pieces text) = text := by
  apply String.toList_inj.mp
  rw [String.toList_join, toList_pieces]

theorem NoNul.piece {text piece : String} (clean : NoNul text)
    (isPiece : piece ∈ pieces text) : NoNul piece := by
  intro inPiece
  apply clean
  rw [← toList_pieces]
  exact List.mem_flatMap.mpr ⟨piece, isPiece, inPiece⟩

/-! ## Keys of pieces -/

/-- A name without a dot or a NUL. -/
def Plain (name : String) : Prop :=
  '.' ∉ name.toList ∧ Char.ofNat 0 ∉ name.toList

instance (name : String) : Decidable (Plain name) :=
  inferInstanceAs (Decidable ('.' ∉ name.toList ∧
    Char.ofNat 0 ∉ name.toList))

theorem plain_table (table : Table) : Plain table.name := by
  cases table <;> decide

theorem plain_column {source : Source} (listed : source ∈ TABLES)
    {column : Column} (inColumns : column ∈ source.columns) :
    Plain column.name := by
  have all : (TABLES.all fun source => source.columns.all fun column =>
      decide (Plain column.name)) = true := by decide
  have each := List.all_eq_true.mp all source listed
  exact of_decide_eq_true (List.all_eq_true.mp each column inColumns)

theorem toList_index (index : Nat) :
    (toString index).toList = Nat.toDigits 10 index := Nat.toList_repr

theorem plain_index (index : Nat) : Plain (toString index) := by
  have other {char : Char} (notDigit : char.isDigit = false) :
      char ∉ (toString index).toList := by
    intro member
    rw [toList_index] at member
    have isDigit := Nat.isDigit_of_mem_toDigits (by omega) (by omega) member
    rw [notDigit] at isDigit
    cases isDigit
  exact ⟨other (by decide), other (by decide)⟩

theorem toList_pieceKey (table : Table) (name : String) (index : Nat) :
    (pieceKey table name index).toList =
      table.name.toList ++ '.' :: (name.toList ++ '.' ::
        (toString index).toList) := by
  rw [pieceKey]
  simp only [String.toList_append, List.append_assoc]
  rfl

theorem noNul_pieceKey (table : Table) {name : String} (plain : Plain name)
    (index : Nat) : NoNul (pieceKey table name index) := by
  unfold NoNul
  rw [toList_pieceKey]
  intro member
  rcases List.mem_append.mp member with inTable | inside
  · exact (plain_table table).2 inTable
  · rcases List.mem_cons.mp inside with isDot | inside
    · exact absurd isDot (by decide)
    · rcases List.mem_append.mp inside with inName | inside
      · exact plain.2 inName
      · rcases List.mem_cons.mp inside with isDot | inIndex
        · exact absurd isDot (by decide)
        · exact (plain_index index).2 inIndex

theorem name_inj {table other : Table} (same : table.name = other.name) :
    table = other := by
  cases table <;> cases other <;> first
    | rfl
    | exact absurd same (by decide)

/-- Each long value has its own key. -/
theorem pieceKey_inj {table other : Table} {name name' : String}
    (plain : Plain name) (plain' : Plain name') {index index' : Nat}
    (same : pieceKey table name index = pieceKey other name' index') :
    table = other ∧ name = name' ∧ index = index' := by
  have lists := congrArg String.toList same
  rw [toList_pieceKey, toList_pieceKey] at lists
  have starts (rest : List Char) :
      ∀ first ∈ ('.' :: rest).head?, first = '.' := by
    intro first isFirst
    cases isFirst
    rfl
  obtain ⟨tables, rest⟩ := append_separated_inj (plain_table table).1
    (plain_table other).1 (starts _) (starts _) lists
  obtain ⟨names, rest⟩ := append_separated_inj plain.1 plain'.1 (starts _)
    (starts _) (List.cons.inj rest).2
  refine ⟨name_inj (String.toList_inj.mp tables), String.toList_inj.mp names,
    ?_⟩
  have digits : Nat.toDigits 10 index = Nat.toDigits 10 index' := by
    have ends := (List.cons.inj rest).2
    rwa [toList_index, toList_index] at ends
  rw [← Nat.ofDigitChars_ten_toDigits (n := index), digits,
    Nat.ofDigitChars_ten_toDigits]

end Stellar8004.D1
