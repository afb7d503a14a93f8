import Stellar8004.D1.Literals

/-!
# The text of the script

How SQLite takes the statements of a text apart, and that the text the script
prints comes apart into its lines.  The comment on the first line ends at a
line break, so the time of the snapshot may not have one.
-/

namespace Stellar8004.D1

open Indexer (Json)

/-! ## Statements of a text -/

/-- Where SQLite is in a text. -/
inductive Place where
  | code
  | quoted (closing : Char)
  | lineComment
  | blockOpening
  | blockComment
  | blockClosing

/-- The character that closes what this one opens: a text, or a name. -/
def closing? (char : Char) : Option Char :=
  if char = quoteMark ∨ char = '"' ∨ char = Char.ofNat 96 then some char
  else if char = '[' then some ']'
  else none

/-- The white space of SQLite. -/
def isBlank (char : Char) : Bool :=
  char = ' ' || char = '\t' || char = '\n' || char = '\r' ||
    char = Char.ofNat 12

/-- The statements of a text, from what there is of the first one.  A quote
that is doubled closes a text and opens it again.  Comments and the space
before a statement are no part of it. -/
def separated : Place → List Char → List Char → List (List Char)
  | _, current, [] => if current = [] then [] else [current]
  | .code, current, char :: rest =>
      if char = ';' then
        if current = [] then separated .code [] rest
        else (current ++ [char]) :: separated .code [] rest
      else if char = '-' ∧ rest.head? = some '-' then
        separated .lineComment current rest
      else if char = '/' ∧ rest.head? = some '*' then
        separated .blockOpening current rest
      else if current = [] ∧ isBlank char = true then separated .code [] rest
      else
        match closing? char with
        | some closing => separated (.quoted closing) (current ++ [char]) rest
        | none => separated .code (current ++ [char]) rest
  | .quoted closing, current, char :: rest =>
      if char = closing then separated .code (current ++ [char]) rest
      else separated (.quoted closing) (current ++ [char]) rest
  | .lineComment, current, char :: rest =>
      if char = '\n' then separated .code current rest
      else separated .lineComment current rest
  | .blockOpening, current, _ :: rest => separated .blockComment current rest
  | .blockComment, current, char :: rest =>
      if char = '*' ∧ rest.head? = some '/' then
        separated .blockClosing current rest
      else separated .blockComment current rest
  | .blockClosing, current, _ :: rest => separated .code current rest

def sqlStatements (text : String) : List String :=
  (separated .code [] text.toList).map String.ofList

/-! ## Parts of a statement -/

/-- Every text and name that a part opens is closed in it, and it neither ends
the statement nor may begin a comment. -/
def balanced : Option Char → List Char → Bool
  | none, [] => true
  | some _, [] => false
  | none, char :: rest =>
      char ≠ ';' && char ≠ '-' && char ≠ '/' && balanced (closing? char) rest
  | some closing, char :: rest =>
      balanced (if char = closing then none else some closing) rest

/-- A part that stays within its statement, whatever is around it. -/
def Closed (part : String) : Prop :=
  ∀ current rest, current ≠ [] →
    separated .code current (part.toList ++ rest) =
      separated .code (current ++ part.toList) rest

/-- A part that begins a statement. -/
def Opens (part : String) : Prop :=
  part.toList ≠ [] ∧ ∀ rest, separated .code [] (part.toList ++ rest) =
    separated .code part.toList rest

/-- A statement as a whole. -/
def Whole (text : String) : Prop := ∃ part, Opens part ∧ text = part ++ ";"

theorem closed_of_balanced {part : String}
    (isBalanced : balanced none part.toList = true) : Closed part := by
  have both (chars : List Char) : ∀ current rest,
      (balanced none chars = true → current ≠ [] →
        separated .code current (chars ++ rest) =
          separated .code (current ++ chars) rest) ∧
      ∀ closing, balanced (some closing) chars = true →
        separated (.quoted closing) current (chars ++ rest) =
          separated .code (current ++ chars) rest := by
    induction chars with
    | nil =>
        intro current rest
        constructor
        · intro _ _
          simp
        · intro closing opened
          cases opened
    | cons char chars induction =>
        intro current rest
        have split : current ++ char :: chars =
            (current ++ [char]) ++ chars := by simp
        constructor
        · intro isBalanced begun
          simp only [balanced, Bool.and_eq_true, decide_eq_true_eq]
            at isBalanced
          obtain ⟨⟨⟨notEnd, notDash⟩, notSlash⟩, later⟩ := isBalanced
          rw [List.cons_append, separated, if_neg notEnd, if_neg (by simp [notDash]),
            if_neg (by simp [notSlash]), if_neg (by simp [begun]), split]
          cases isClosing : closing? char with
          | none =>
              rw [isClosing] at later
              exact (induction _ rest).1 later (by simp)
          | some closing =>
              rw [isClosing] at later
              exact (induction _ rest).2 closing later
        · intro closing isBalanced
          rw [balanced] at isBalanced
          rw [List.cons_append, separated, split]
          split_ifs at isBalanced ⊢ with isEnd
          · exact (induction _ rest).1 isBalanced (by simp)
          · exact (induction _ rest).2 closing isBalanced
  intro current rest begun
  exact (both part.toList current rest).1 isBalanced begun

theorem Closed.append {first second : String} (isFirst : Closed first)
    (isSecond : Closed second) : Closed (first ++ second) := by
  intro current rest begun
  rw [String.toList_append, List.append_assoc, isFirst _ _ begun,
    isSecond _ _ (by simp [begun]), List.append_assoc]

theorem Closed.intercalate {separator : String} (between : Closed separator)
    {parts : List String} (each : ∀ part ∈ parts, Closed part) :
    Closed (String.intercalate separator parts) := by
  induction parts with
  | nil =>
      rw [String.intercalate_nil]
      exact closed_of_balanced rfl
  | cons part parts induction =>
      have isPart := each part List.mem_cons_self
      have later := induction fun other member =>
        each other (List.mem_cons_of_mem _ member)
      cases parts with
      | nil => simpa using isPart
      | cons next parts =>
          rw [String.intercalate_cons_cons]
          exact (isPart.append between).append later

theorem Opens.append {first second : String} (opens : Opens first)
    (closed : Closed second) : Opens (first ++ second) := by
  obtain ⟨some, reads⟩ := opens
  constructor
  · rw [String.toList_append]
    simp [some]
  · intro rest
    rw [String.toList_append, List.append_assoc, reads, closed _ _ some]

theorem closing?_alphanum {char : Char} (plain : char.isAlphanum = true) :
    closing? char = none := by
  unfold closing?
  split_ifs with quote bracket
  · rcases quote with rfl | rfl | rfl <;> exact absurd plain (by decide)
  · rw [bracket] at plain
    exact absurd plain (by decide)
  · rfl

/-- A letter begins the part. -/
def beginsPart (chars : List Char) : Bool :=
  match chars with
  | [] => false
  | first :: rest => first.isAlpha && balanced none (first :: rest)

theorem opens_of_beginsPart {part : String}
    (begins : beginsPart part.toList = true) : Opens part := by
  cases isPart : part.toList with
  | nil =>
      rw [isPart] at begins
      cases begins
  | cons first rest =>
      rw [isPart, beginsPart, Bool.and_eq_true] at begins
      obtain ⟨letter, isBalanced⟩ := begins
      have notBlank : isBlank first = false := by
        cases blank : isBlank first with
        | false => rfl
        | true =>
            simp only [isBlank, Bool.or_eq_true, decide_eq_true_eq] at blank
            rcases blank with (((rfl | rfl) | rfl) | rfl) | rfl <;>
              exact absurd letter (by decide)
      have notOpening : closing? first = none :=
        closing?_alphanum (by simp [Char.isAlphanum, letter])
      simp only [balanced, Bool.and_eq_true, decide_eq_true_eq, notOpening]
        at isBalanced
      obtain ⟨⟨⟨notEnd, notDash⟩, notSlash⟩, later⟩ := isBalanced
      constructor
      · rw [isPart]
        exact List.cons_ne_nil _ _
      · intro following
        have closed : Closed (String.ofList rest) :=
          closed_of_balanced (by rw [String.toList_ofList]; exact later)
        have tail := closed [first] following (List.cons_ne_nil _ _)
        rw [String.toList_ofList] at tail
        rw [isPart, List.cons_append, separated, if_neg notEnd,
          if_neg (by simp [notDash]), if_neg (by simp [notSlash]),
          if_neg (by simp [notBlank]), notOpening]
        exact tail

/-- A statement is read up to its semicolon. -/
theorem Whole.taken {text : String} (whole : Whole text)
    (rest : List Char) :
    separated .code [] (text.toList ++ rest) =
      text.toList :: separated .code [] rest := by
  obtain ⟨part, ⟨some, reads⟩, rfl⟩ := whole
  have ends : ";".toList = [';'] := by decide
  rw [String.toList_append, ends, List.append_assoc, reads,
    List.singleton_append, separated, if_pos rfl, if_neg some]

/-! ## Lines -/

theorem separated_unbroken {chars : List Char} (unbroken : '\n' ∉ chars)
    (current rest : List Char) :
    separated .lineComment current (chars ++ rest) =
      separated .lineComment current rest := by
  induction chars with
  | nil => rfl
  | cons char chars induction =>
      obtain ⟨other, later⟩ := List.ne_and_not_mem_of_not_mem_cons unbroken
      rw [List.cons_append, separated, if_neg other.symm, induction later]

theorem separated_comment {chars : List Char} (unbroken : '\n' ∉ chars)
    (current rest : List Char) :
    separated .lineComment current (chars ++ '\n' :: rest) =
      separated .code current rest := by
  rw [separated_unbroken unbroken, separated, if_pos rfl]

theorem separated_break (rest : List Char) :
    separated .code [] ('\n' :: rest) = separated .code [] rest := by
  rw [separated, if_neg (by decide), if_neg (by simp), if_neg (by simp),
    if_pos ⟨rfl, by decide⟩]

theorem toList_lines (first : String) (lines : List String) :
    (String.intercalate "\n" (first :: lines) ++ "\n").toList =
      (first :: lines).flatMap fun line => line.toList ++ ['\n'] := by
  have ends : "\n".toList = ['\n'] := by decide
  induction lines generalizing first with
  | nil => simp [ends]
  | cons next lines induction =>
      rw [String.intercalate_cons_cons, String.append_assoc,
        String.append_assoc, String.toList_append, String.toList_append,
        induction, ends, List.flatMap_cons (x := first), List.append_assoc]

theorem separated_lines {lines : List String}
    (whole : ∀ line ∈ lines, Whole line) :
    separated .code [] (lines.flatMap fun line => line.toList ++ ['\n']) =
      lines.map String.toList := by
  induction lines with
  | nil => rfl
  | cons line lines induction =>
      have later := induction fun other member =>
        whole other (List.mem_cons_of_mem _ member)
      rw [List.flatMap_cons, List.append_assoc,
        (whole line List.mem_cons_self).taken, List.singleton_append,
        separated_break, later, List.map_cons]

/-- The statements of lines of statements, whatever the lines before them add
to these. -/
theorem sqlStatements_lines {first : String} {added lines : List String}
    (whole : ∀ line ∈ lines, Whole line)
    (before : ∀ rest, separated .code [] (first.toList ++ '\n' :: rest) =
      added.map String.toList ++ separated .code [] rest) :
    sqlStatements (String.intercalate "\n" (first :: lines) ++ "\n") =
      added ++ lines := by
  have read (texts : List String) :
      (texts.map String.toList).map String.ofList = texts := by
    rw [List.map_map]
    conv_rhs => rw [← List.map_id texts]
    exact List.map_congr_left fun text _ => String.ofList_toList
  rw [sqlStatements, toList_lines, List.flatMap_cons, List.append_assoc,
    List.singleton_append, before, separated_lines whole, List.map_append,
    read, read]

/-! ## Values -/

theorem closed_textLiteral (text : String) : Closed (textLiteral text) := by
  have inside (chars : List Char) : balanced (some quoteMark)
      ((chars.flatMap fun char =>
          if char = quoteMark then [quoteMark, quoteMark] else [char]) ++
        [quoteMark]) = true := by
    induction chars with
    | nil => rfl
    | cons char chars induction =>
        rw [List.flatMap_cons]
        by_cases same : char = quoteMark
        · rw [if_pos same]
          exact induction
        · rw [if_neg same, List.append_assoc, List.singleton_append, balanced,
            if_neg same]
          exact induction
  apply closed_of_balanced
  rw [toList_textLiteral]
  exact inside text.toList

theorem balanced_digits {digits : List Char}
    (all : digits.all Char.isDigit = true) : balanced none digits = true := by
  induction digits with
  | nil => rfl
  | cons digit digits induction =>
      rw [List.all_cons, Bool.and_eq_true] at all
      have isDigit := all.1
      have notOpening : closing? digit = none :=
        closing?_alphanum (by simp [Char.isAlphanum, isDigit])
      simp only [balanced, notOpening, induction all.2, Bool.and_true,
        Bool.and_eq_true, decide_eq_true_eq]
      refine ⟨⟨?_, ?_⟩, ?_⟩ <;>
        · rintro rfl
          exact absurd isDigit (by decide)

/-- A safe integer.  Its sign begins no comment, as a digit follows it. -/
theorem closed_number {number : String}
    (safe : isSafeInteger number = true) : Closed number := by
  have digitsOf {digits : List Char} {value : Nat}
      (isNumber : digitsNumber digits = some value) :
      digits ≠ [] ∧ digits.all Char.isDigit = true := by
    unfold digitsNumber at isNumber
    split_ifs at isNumber with isDigits
    exact isDigits
  unfold isSafeInteger at safe
  cases isValue : integerOf number.toList with
  | none =>
      rw [isValue] at safe
      cases safe
  | some value =>
      unfold integerOf at isValue
      split at isValue
      · rename_i digits isSigned
        obtain ⟨size, isNumber, -⟩ := Option.map_eq_some_iff.mp isValue
        obtain ⟨nonempty, all⟩ := digitsOf isNumber
        intro current rest begun
        have notDash : (digits ++ rest).head? ≠ some '-' := by
          cases digits with
          | nil => exact absurd rfl nonempty
          | cons digit digits =>
              rw [List.all_cons, Bool.and_eq_true] at all
              rw [List.cons_append, List.head?_cons]
              rintro same
              rw [Option.some.inj same] at all
              exact absurd all.1 (by decide)
        have isClosed : Closed (String.ofList digits) :=
          closed_of_balanced (by
            rw [String.toList_ofList]
            exact balanced_digits all)
        have later := isClosed (current ++ ['-']) rest (by simp)
        rw [String.toList_ofList] at later
        have notOpening : closing? '-' = none := by decide
        rw [isSigned, List.cons_append, separated, if_neg (by decide),
          if_neg (fun both => notDash both.2),
          if_neg (fun both => absurd both.1 (by decide)),
          if_neg (fun both => begun both.1), notOpening]
        simpa using later
      · obtain ⟨size, isNumber, -⟩ := Option.map_eq_some_iff.mp isValue
        exact closed_of_balanced (balanced_digits (digitsOf isNumber).2)

theorem closed_literalText {value : Json} (writable : Writable value) :
    Closed (literalText value) := by
  cases value with
  | null => exact closed_of_balanced (by decide)
  | bool value => cases value <;> exact closed_of_balanced (by decide)
  | number number => exact closed_number writable
  | text text => exact closed_textLiteral text
  | array items => exact writable.elim
  | object fields => exact writable.elim

/-! ## The statements of the script -/

theorem closed_table (table : Table) : Closed table.name := by
  cases table <;> exact closed_of_balanced (by decide)

theorem closed_column {source : Source} (listed : source ∈ TABLES)
    {column : Column} (inColumns : column ∈ source.columns) :
    Closed column.name := by
  have all : (TABLES.all fun source => source.columns.all fun column =>
      balanced none column.name.toList) = true := by decide
  have each := List.all_eq_true.mp all source listed
  exact closed_of_balanced (List.all_eq_true.mp each column inColumns)

theorem closed_placeholder (table : Table) (name : String) :
    Closed (placeholder table name) := by
  unfold placeholder
  cases found : PLACEHOLDERS.find? fun entry =>
      entry.1 == columnPath table name with
  | none => exact closed_of_balanced (by decide)
  | some entry =>
      rcases List.mem_cons.mp (List.mem_of_find?_eq_some found) with
        rfl | other
      · exact closed_of_balanced (by decide)
      · rw [List.mem_singleton.mp other]
        exact closed_of_balanced (by decide)

theorem closed_index (index : Nat) : Closed (toString index) := by
  apply closed_of_balanced
  rw [toList_index]
  exact balanced_digits (List.all_eq_true.mpr fun char member =>
    Nat.isDigit_of_mem_toDigits (by omega) (by omega) member)

/-- The texts around the values. -/
theorem fixed_parts :
    Opens "INSERT INTO " ∧ Opens "UPDATE " ∧ Opens "DELETE FROM " ∧
      Opens "DROP TABLE " ∧ Opens "DROP TABLE IF EXISTS " ∧
      Opens "INSERT INTO load_pieces VALUES (" := by
  refine ⟨?_, ?_, ?_, ?_, ?_, ?_⟩ <;>
    exact opens_of_beginsPart (by decide)

theorem whole_named {start : String} (opens : Opens start) (table : Table) :
    Whole (start ++ table.name ++ ";") :=
  ⟨_, opens.append (closed_table table), rfl⟩

theorem whole_delete (table : Table) :
    Whole (Statement.deleteFrom table).text :=
  whole_named fixed_parts.2.2.1 table

theorem whole_header {statement : Statement} (inHeader : statement ∈ header) :
    Whole statement.text := by
  have checked {body text : String} (begins : beginsPart body.toList = true)
      (isText : text = body ++ ";") : Whole text :=
    ⟨body, opens_of_beginsPart begins, isText⟩
  obtain ⟨-, -, -, drop, dropIf, -⟩ := fixed_parts
  rcases List.mem_append.mp inHeader with inFirst | inDeletes
  · simp only [List.mem_cons, List.not_mem_nil, or_false] at inFirst
    rcases inFirst with rfl | rfl | rfl | rfl | rfl
    · exact @checked
        "CREATE TABLE copy_guard (fence_present INTEGER NOT NULL CHECK (fence_present = 1))"
        _ (by decide +kernel) (by decide +kernel)
    · exact @checked
        "INSERT INTO copy_guard SELECT EXISTS (SELECT 1 FROM indexer_locks WHERE lock_name = 'indexer' AND owner = 'copy-fence')"
        _ (by decide +kernel) (by decide +kernel)
    · exact whole_named drop _
    · exact whole_named dropIf _
    · exact @checked
        "CREATE TABLE load_pieces (k TEXT NOT NULL, i INTEGER NOT NULL, v TEXT NOT NULL, PRIMARY KEY (k, i))"
        _ (by decide +kernel) (by decide +kernel)
  · obtain ⟨source, -, rfl⟩ := List.mem_map.mp inDeletes
    exact whole_delete _

theorem closed_inlined {source : Source} {row : Row} {column : Column}
    (writable : Writable (column.value row)) :
    Closed (inlined source row column) := by
  unfold inlined
  cases isValue : column.value row with
  | text text =>
      simp only []
      split_ifs
      · exact closed_placeholder _ _
      · exact closed_textLiteral text
  | null => exact closed_literalText (isValue ▸ writable)
  | bool value => exact closed_literalText (isValue ▸ writable)
  | number number => exact closed_literalText (isValue ▸ writable)
  | array items => exact closed_literalText (isValue ▸ writable)
  | object fields => exact closed_literalText (isValue ▸ writable)

section

variable {source : Source} {row : Row}

theorem whole_insert (listed : source ∈ TABLES)
    (accepts : source.Accepts row) :
    Whole (Statement.insert source.table (source.columns.map Column.name)
      (source.columns.map (inlined source row))).text := by
  have names : ∀ name ∈ source.columns.map Column.name, Closed name := by
    intro name inNames
    obtain ⟨column, inColumns, rfl⟩ := List.mem_map.mp inNames
    exact closed_column listed inColumns
  have values : ∀ value ∈ source.columns.map (inlined source row),
      Closed value := by
    intro value inValues
    obtain ⟨column, inColumns, rfl⟩ := List.mem_map.mp inValues
    obtain ⟨value, isRead, writable⟩ := accepts column inColumns
    apply closed_inlined
    simpa only [Column.value, isRead] using writable
  have comma : Closed ", " := closed_of_balanced (by decide)
  have opening : Closed " (" := closed_of_balanced (by decide)
  have middle : Closed ") VALUES (" := closed_of_balanced (by decide)
  have last : Closed ")" := closed_of_balanced (by decide)
  have ends : ");" = ")" ++ ";" := by decide
  refine ⟨_, (((((fixed_parts.1.append (closed_table source.table)).append
    opening).append (comma.intercalate names)).append middle).append
      (comma.intercalate values)).append last, ?_⟩
  rw [Statement.text_insert, ends]
  simp only [String.append_assoc]

theorem whole_insertPiece (table : Table) (name : String) (index i : Nat)
    (piece : String) :
    Whole (Statement.insertPiece (textLiteral (pieceKey table name index)) i
      (textLiteral piece)).text := by
  obtain ⟨-, -, -, -, -, start⟩ := fixed_parts
  have comma : Closed ", " := closed_of_balanced (by decide)
  have last : Closed ")" := closed_of_balanced (by decide)
  have ends : ");" = ")" ++ ";" := by decide
  refine ⟨_, (((((start.append
    (closed_textLiteral (pieceKey table name index))).append comma).append
    (closed_index i)).append comma).append (closed_textLiteral piece)).append
      last, ?_⟩
  rw [Statement.text_insertPiece, ends]
  simp only [String.append_assoc]

theorem whole_join (listed : source ∈ TABLES) (accepts : source.Accepts row)
    {column : Column} (inColumns : column ∈ source.columns) (index : Nat) :
    Whole (Statement.join source.table column.name
      (textLiteral (pieceKey source.table column.name index))
      (keyTexts source row)).text := by
  obtain ⟨-, start, -⟩ := fixed_parts
  have equals : Closed " = " := closed_of_balanced (by decide)
  have each : ∀ part ∈ (keyTexts source row).map equation, Closed part := by
    intro part inParts
    obtain ⟨matched, inKey, rfl⟩ := List.mem_map.mp inParts
    obtain ⟨name, isName, rfl⟩ := List.mem_map.mp inKey
    have inSource := key_plain listed isName
    obtain ⟨value, isRead, writable⟩ := accepts _ inSource
    cases isRead
    exact ((closed_column listed inSource).append equals).append
      (closed_literalText writable)
  have both : Closed " AND " := closed_of_balanced (by decide)
  have set : Closed " SET " := closed_of_balanced (by decide)
  have concat : Closed
      " = (SELECT group_concat(v, '' ORDER BY i) FROM load_pieces WHERE k = " :=
    closed_of_balanced (by decide)
  have matching : Closed ") WHERE " := closed_of_balanced (by decide)
  have key : Closed (textLiteral (pieceKey source.table column.name index)) :=
    closed_textLiteral _
  exact ⟨_, ((((((start.append (closed_table source.table)).append
    set).append (closed_column listed inColumns)).append concat).append
      key).append matching).append (both.intercalate each),
    Statement.text_join _ _ _ _⟩

theorem whole_rowScript (listed : source ∈ TABLES)
    (accepts : source.Accepts row) {index : Nat} {statement : Statement}
    (inRow : statement ∈ rowScript source row index) :
    Whole statement.text := by
  rcases List.mem_cons.mp inRow with rfl | inFinishing
  · exact whole_insert listed accepts
  · obtain ⟨column, inColumns, isFinishing⟩ := List.mem_flatMap.mp inFinishing
    unfold finishing at isFinishing
    split at isFinishing
    · rename_i text isText
      split_ifs at isFinishing with long
      · rcases List.mem_append.mp isFinishing with inPieces | isJoin
        · obtain ⟨⟨piece, i⟩, -, rfl⟩ := List.mem_map.mp inPieces
          exact whole_insertPiece _ _ _ _ _
        · rw [List.mem_singleton.mp isJoin]
          exact whole_join listed accepts inColumns index
      · cases isFinishing
    · cases isFinishing

end

/-! ## The script -/

section

variable {snapshot : Snapshot} {output : Output}

theorem whole_statements (accepted : snapshotToSql snapshot = .ok output) :
    ∀ line ∈ output.statements.map Statement.text, Whole line := by
  obtain ⟨isScript, accepts⟩ := snapshotToSql_ok accepted
  intro line inLines
  obtain ⟨statement, member, rfl⟩ := List.mem_map.mp inLines
  rw [isScript, List.append_assoc, List.mem_append, List.mem_append] at member
  rcases member with inHeader | inTables | isLast
  · exact whole_header inHeader
  · obtain ⟨source, listed, inTable⟩ := List.mem_flatMap.mp inTables
    obtain ⟨⟨row, index⟩, inZip, inRow⟩ := List.mem_flatMap.mp inTable
    have inRows := List.mem_of_getElem?
      (List.mk_mem_zipIdx_iff_getElem?.mp inZip)
    exact whole_rowScript listed ((accepts source listed).2 row inRows) inRow
  · obtain ⟨-, -, -, drop, -⟩ := fixed_parts
    rw [List.mem_singleton.mp isLast]
    exact whole_named drop .loadPieces

/-- The first line as SQLite reads it: a comment up to the first break of the
time of the snapshot. -/
theorem separated_comment_line (accepted : snapshotToSql snapshot = .ok output)
    (rest : List Char) :
    separated .code [] (output.comment.toList ++ '\n' :: rest) =
      separated .lineComment []
        (snapshot.takenAt.toList ++ '.' :: '\n' :: rest) := by
  have start : "-- Loaded from the Supabase snapshot taken at ".toList =
      '-' :: "- Loaded from the Supabase snapshot taken at ".toList := by
    decide
  have isComment : output.comment =
      "-- Loaded from the Supabase snapshot taken at " ++ snapshot.takenAt ++
        "." := by
    unfold snapshotToSql at accepted
    split at accepted
    · obtain ⟨loads, -, rest⟩ := bind_ok_iff.mp accepted
      cases rest
      rfl
    · cases accepted
  rw [isComment, String.toList_append, String.toList_append, start]
  simp only [List.cons_append, List.append_assoc]
  rw [separated, if_neg (by decide), if_pos ⟨rfl, rfl⟩,
    separated_unbroken (by decide)]
  rfl

/-- The text of the script comes apart into its lines, unless the time of the
snapshot has a line break. -/
theorem sqlStatements_text (accepted : snapshotToSql snapshot = .ok output)
    (unbroken : '\n' ∉ snapshot.takenAt.toList) :
    sqlStatements output.text = output.statements.map Statement.text := by
  apply @sqlStatements_lines _ [] _ (whole_statements accepted)
  intro rest
  have through : '\n' ∉ snapshot.takenAt.toList ++ ['.'] := by
    simp [unbroken]
  rw [separated_comment_line accepted, List.map_nil, List.nil_append,
    ← separated_comment through [] rest, List.append_assoc,
    List.singleton_append]

end

end Stellar8004.D1
