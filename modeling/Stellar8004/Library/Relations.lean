import Mathlib

/-!
# Tables under constraints

Tables of rows, with columns that must hold a value, checks, keys that no two
rows share and references to rows of other tables.  A row is written where it
violates nothing, and rows leave together with those that refer to them.

A row that satisfies its table can also be written as a draft first, in which
some columns hold placeholders that nothing depends on, and be completed
later.
-/

namespace Relations

/-- A value for each column. -/
abbrev Record (κ ν : Type) := κ → ν

/-- Columns that name a row of another table, by columns of that table. -/
structure Reference (τ κ : Type) where
  columns : List κ
  parent : τ
  parentColumns : List κ
  deriving DecidableEq

/-- The constraints on some tables.  They are listed parents first. -/
structure Schema (τ κ ν : Type) where
  null : ν
  tables : List τ
  columns : τ → List κ
  required : τ → κ → Bool
  check : τ → κ → ν → Bool
  keys : τ → List (List κ)
  references : τ → List (Reference τ κ)

inductive Violation where
  | notNull
  | check
  | unique
  | foreignKey
  deriving DecidableEq

section

variable {τ κ ν : Type}

/-- Two rows with one value in a key.  A null is like no other value. -/
def SameKey (null : ν) (key : List κ) (row other : Record κ ν) : Prop :=
  ∀ column ∈ key, row column = other column ∧ row column ≠ null

theorem SameKey.symm {null : ν} {key : List κ} {row other : Record κ ν}
    (same : SameKey null key row other) : SameKey null key other row := by
  intro column inKey
  obtain ⟨equal, present⟩ := same column inKey
  exact ⟨equal.symm, equal ▸ present⟩

variable [DecidableEq ν] (schema : Schema τ κ ν)

instance (null : ν) (key : List κ) (row other : Record κ ν) :
    Decidable (SameKey null key row other) :=
  inferInstanceAs (Decidable (∀ column ∈ key,
    row column = other column ∧ row column ≠ null))

/-- A row refers to a parent. -/
def Reference.Matches (reference : Reference τ κ)
    (row parent : Record κ ν) : Prop :=
  reference.columns.map row = reference.parentColumns.map parent

instance (reference : Reference τ κ) (row parent : Record κ ν) :
    Decidable (reference.Matches row parent) :=
  inferInstanceAs (Decidable (reference.columns.map row =
    reference.parentColumns.map parent))

/-- The row a reference names is there, or it names none. -/
def Schema.Held (tables : τ → List (Record κ ν)) (reference : Reference τ κ)
    (row : Record κ ν) : Prop :=
  (∃ column ∈ reference.columns, row column = schema.null) ∨
    ∃ parent ∈ tables reference.parent, reference.Matches row parent

instance (tables : τ → List (Record κ ν)) (reference : Reference τ κ)
    (row : Record κ ν) : Decidable (schema.Held tables reference row) :=
  inferInstanceAs (Decidable ((∃ column ∈ reference.columns,
    row column = schema.null) ∨
      ∃ parent ∈ tables reference.parent, reference.Matches row parent))

/-- What keeps a row from standing in a table beside others. -/
def Schema.violation? (tables : τ → List (Record κ ν)) (table : τ)
    (others : List (Record κ ν)) (row : Record κ ν) : Option Violation :=
  if ∃ column ∈ schema.columns table,
      schema.required table column = true ∧ row column = schema.null then
    some .notNull
  else if ∃ column ∈ schema.columns table,
      schema.check table column (row column) = false then
    some .check
  else if ∃ key ∈ schema.keys table, ∃ other ∈ others,
      SameKey schema.null key row other then
    some .unique
  else if ∃ reference ∈ schema.references table,
      ¬ schema.Held tables reference row then
    some .foreignKey
  else none

/-- The rows of a table satisfy its constraints. -/
structure Schema.Satisfied (tables : τ → List (Record κ ν)) (table : τ) :
    Prop where
  notNull : ∀ row ∈ tables table, ∀ column ∈ schema.columns table,
    schema.required table column = true → row column ≠ schema.null
  checked : ∀ row ∈ tables table, ∀ column ∈ schema.columns table,
    schema.check table column (row column) = true
  unique : ∀ key ∈ schema.keys table,
    (tables table).Pairwise fun row other =>
      ¬ SameKey schema.null key row other
  referenced : ∀ reference ∈ schema.references table,
    ∀ row ∈ tables table, schema.Held tables reference row

theorem Schema.violation?_eq_none {tables : τ → List (Record κ ν)} {table : τ}
    {others : List (Record κ ν)} {row : Record κ ν}
    (notNull : ∀ column ∈ schema.columns table,
      schema.required table column = true → row column ≠ schema.null)
    (checked : ∀ column ∈ schema.columns table,
      schema.check table column (row column) = true)
    (unique : ∀ key ∈ schema.keys table, ∀ other ∈ others,
      ¬ SameKey schema.null key row other)
    (referenced : ∀ reference ∈ schema.references table,
      schema.Held tables reference row) :
    schema.violation? tables table others row = none := by
  unfold Schema.violation?
  rw [if_neg, if_neg, if_neg, if_neg]
  · intro violated
    obtain ⟨reference, isReference, missing⟩ := violated
    exact missing (referenced reference isReference)
  · intro violated
    obtain ⟨key, isKey, other, inOthers, same⟩ := violated
    exact unique key isKey other inOthers same
  · intro violated
    obtain ⟨column, inColumns, fails⟩ := violated
    exact absurd (checked column inColumns) (by rw [fails]; exact nofun)
  · intro violated
    obtain ⟨column, inColumns, required, isNull⟩ := violated
    exact notNull column inColumns required isNull

/-! ## Writing rows -/

/-- Appends a row. -/
def Schema.insert [DecidableEq τ] (tables : τ → List (Record κ ν))
    (table : τ) (row : Record κ ν) : Except Violation (τ → List (Record κ ν)) :=
  match schema.violation? tables table (tables table) row with
  | some violation => .error violation
  | none => .ok (Function.update tables table (tables table ++ [row]))

/-- Changes the rows that are found, one after another, and tells which they
are afterwards. -/
def Schema.updateRows (tables : τ → List (Record κ ν)) (table : τ)
    (found : Record κ ν → Bool) (change : Record κ ν → Record κ ν) :
    List (Record κ ν) → List (Record κ ν) →
      Except Violation (List (Record κ ν) × List (Record κ ν))
  | before, [] => .ok (before, [])
  | before, row :: rest =>
      if found row then
        match schema.violation? tables table (before ++ rest) (change row) with
        | some violation => .error violation
        | none =>
            match Schema.updateRows tables table found change
                (before ++ [change row]) rest with
            | .error violation => .error violation
            | .ok (rows, changed) => .ok (rows, change row :: changed)
      else Schema.updateRows tables table found change (before ++ [row]) rest

/-- The rows that refer to a table name rows that are there. -/
def Schema.ChildrenHeld [DecidableEq τ] (tables : τ → List (Record κ ν))
    (table : τ) : Prop :=
  ∀ child ∈ schema.tables, ∀ reference ∈ schema.references child,
    reference.parent = table →
      ∀ row ∈ tables child, schema.Held tables reference row

instance [DecidableEq τ] (tables : τ → List (Record κ ν)) (table : τ) :
    Decidable (schema.ChildrenHeld tables table) :=
  inferInstanceAs (Decidable (∀ child ∈ schema.tables,
    ∀ reference ∈ schema.references child, reference.parent = table →
      ∀ row ∈ tables child, schema.Held tables reference row))

/-- Changes the rows of a table that are found. -/
def Schema.update [DecidableEq τ] (tables : τ → List (Record κ ν))
    (table : τ) (found : Record κ ν → Bool)
    (change : Record κ ν → Record κ ν) :
    Except Violation ((τ → List (Record κ ν)) × List (Record κ ν)) :=
  match schema.updateRows tables table found change [] (tables table) with
  | .error violation => .error violation
  | .ok (rows, changed) =>
      if schema.ChildrenHeld (Function.update tables table rows) table then
        .ok (Function.update tables table rows, changed)
      else .error .foreignKey

/-! ## Removing rows -/

/-- A row refers to a row that leaves. -/
def Schema.Orphan (removed : τ → List (Record κ ν)) (table : τ)
    (row : Record κ ν) : Prop :=
  ∃ reference ∈ schema.references table,
    (∀ column ∈ reference.columns, row column ≠ schema.null) ∧
      ∃ parent ∈ removed reference.parent, reference.Matches row parent

instance (removed : τ → List (Record κ ν)) (table : τ) (row : Record κ ν) :
    Decidable (schema.Orphan removed table row) :=
  inferInstanceAs (Decidable (∃ reference ∈ schema.references table,
    (∀ column ∈ reference.columns, row column ≠ schema.null) ∧
      ∃ parent ∈ removed reference.parent, reference.Matches row parent))

/-- Lets the rows of some tables leave that refer to rows that do, and tells
which rows of each table left. -/
def Schema.cascade [DecidableEq τ] : List τ →
    (τ → List (Record κ ν)) × (τ → List (Record κ ν)) →
      (τ → List (Record κ ν)) × (τ → List (Record κ ν))
  | [], state => state
  | table :: rest, (kept, removed) =>
      Schema.cascade rest
        (Function.update kept table
            ((kept table).filter fun row => ¬ schema.Orphan removed table row),
          Function.update removed table
            (removed table ++
              (kept table).filter fun row => schema.Orphan removed table row))

/-- Removes the rows of a table, and those that refer to them. -/
def Schema.clear [DecidableEq τ] (tables : τ → List (Record κ ν))
    (target : τ) : (τ → List (Record κ ν)) × (τ → List (Record κ ν)) :=
  schema.cascade schema.tables
    (Function.update tables target [],
      Function.update (fun _ => []) target (tables target))

/-! ## Drafts -/

/-- A placeholder: no constraint needs the final value in its place. -/
structure Schema.Spare (table : τ) (column : κ) (value : ν) : Prop where
  notNull : schema.required table column = true → value ≠ schema.null
  checked : schema.check table column value = true
  keyless : ∀ key ∈ schema.keys table, column ∈ key → value = schema.null
  unreferring : ∀ reference ∈ schema.references table,
    column ∉ reference.columns

/-- A row with placeholders in some columns. -/
def Schema.Draft (table : τ) (draft row : Record κ ν) : Prop :=
  ∀ column, draft column = row column ∨
    schema.Spare table column (draft column)

variable {schema} {tables final : τ → List (Record κ ν)} {table : τ}
  {before after : List (Record κ ν)} {draft row : Record κ ν}

omit [DecidableEq ν] in
/-- No earlier row of a satisfied table shares a key with a row. -/
theorem Schema.Satisfied.alone (satisfied : schema.Satisfied final table)
    (isFinal : final table = before ++ row :: after) {key : List κ}
    (isKey : key ∈ schema.keys table) {other : Record κ ν}
    (inBefore : other ∈ before) : ¬ SameKey schema.null key other row := by
  have apart := satisfied.unique key isKey
  rw [isFinal, List.pairwise_append] at apart
  exact apart.2.2 other inBefore row List.mem_cons_self

/-- A draft of a row violates nothing beside the rows before it, once the
parents are there. -/
theorem Schema.Draft.violation?_eq_none
    (isDraft : schema.Draft table draft row)
    (satisfied : schema.Satisfied final table)
    (isFinal : final table = before ++ row :: after)
    (parents : ∀ reference ∈ schema.references table,
      tables reference.parent = final reference.parent) :
    schema.violation? tables table before draft = none := by
  have inFinal : row ∈ final table := by
    rw [isFinal]
    exact List.mem_append_right _ List.mem_cons_self
  apply Schema.violation?_eq_none
  · intro column inColumns required
    rcases isDraft column with same | spare
    · rw [same]
      exact satisfied.notNull row inFinal column inColumns required
    · exact spare.notNull required
  · intro column inColumns
    rcases isDraft column with same | spare
    · rw [same]
      exact satisfied.checked row inFinal column inColumns
    · exact spare.checked
  · intro key isKey other inBefore sameKey
    apply satisfied.alone isFinal isKey inBefore
    apply SameKey.symm
    intro column inKey
    obtain ⟨equal, present⟩ := sameKey column inKey
    rcases isDraft column with same | spare
    · rw [← same]
      exact ⟨equal, present⟩
    · exact absurd (spare.keyless key isKey inKey) present
  · intro reference isReference
    have same : ∀ column ∈ reference.columns, draft column = row column := by
      intro column inColumns
      rcases isDraft column with same | spare
      · exact same
      · exact absurd inColumns (spare.unreferring reference isReference)
    rcases satisfied.referenced reference isReference row inFinal with
      noParent | parent
    · obtain ⟨column, inColumns, isNull⟩ := noParent
      exact .inl ⟨column, inColumns, (same column inColumns).trans isNull⟩
    · obtain ⟨parent, inParents, named⟩ := parent
      right
      rw [parents reference isReference]
      refine ⟨parent, inParents, ?_⟩
      unfold Reference.Matches
      rw [List.map_congr_left same]
      exact named

omit [DecidableEq ν] in
/-- A required column of a key is never a placeholder. -/
theorem Schema.Draft.eq_of_key (isDraft : schema.Draft table draft row)
    {key : List κ} (isKey : key ∈ schema.keys table) {column : κ}
    (inKey : column ∈ key) (required : schema.required table column = true) :
    draft column = row column := by
  rcases isDraft column with same | spare
  · exact same
  · exact absurd (spare.keyless key isKey inKey) (spare.notNull required)

variable [DecidableEq τ]

theorem Schema.insert_draft (isDraft : schema.Draft table draft row)
    (satisfied : schema.Satisfied final table)
    (isFinal : final table = before ++ row :: after)
    (parents : ∀ reference ∈ schema.references table,
      tables reference.parent = final reference.parent)
    (stands : tables table = before) :
    schema.insert tables table draft =
      .ok (Function.update tables table (before ++ [draft])) := by
  unfold Schema.insert
  rw [stands, isDraft.violation?_eq_none satisfied isFinal parents]

omit [DecidableEq τ] in
theorem Schema.updateRows_others {found : Record κ ν → Bool}
    {change : Record κ ν → Record κ ν} {others : List (Record κ ν)}
    (unfound : ∀ other ∈ others, found other = false)
    (start rest : List (Record κ ν)) :
    schema.updateRows tables table found change start (others ++ rest) =
      schema.updateRows tables table found change (start ++ others) rest := by
  induction others generalizing start with
  | nil => rw [List.nil_append, List.append_nil]
  | cons other others induction =>
      have first := unfound other List.mem_cons_self
      rw [List.cons_append, Schema.updateRows, first, if_neg Bool.false_ne_true,
        induction fun later member =>
          unfound later (List.mem_cons_of_mem _ member),
        List.append_assoc, List.singleton_append]

/-- The last row can be replaced by another draft of the same row while no
table that refers to it has rows. -/
theorem Schema.update_draft {found : Record κ ν → Bool}
    {change : Record κ ν → Record κ ν}
    (isDraft : schema.Draft table (change draft) row)
    (satisfied : schema.Satisfied final table)
    (isFinal : final table = before ++ row :: after)
    (parents : ∀ reference ∈ schema.references table,
      tables reference.parent = final reference.parent)
    (childless : ∀ child ∈ schema.tables,
      ∀ reference ∈ schema.references child, reference.parent = table →
        child ≠ table ∧ tables child = [])
    (stands : tables table = before ++ [draft]) (isFound : found draft = true)
    (unfound : ∀ other ∈ before, found other = false) :
    schema.update tables table found change =
      .ok (Function.update tables table (before ++ [change draft]),
        [change draft]) := by
  have rows : schema.updateRows tables table found change []
      (before ++ [draft]) = .ok (before ++ [change draft], [change draft]) := by
    rw [Schema.updateRows_others unfound, List.nil_append, Schema.updateRows,
      isFound, if_pos rfl, List.append_nil,
      isDraft.violation?_eq_none satisfied isFinal parents]
    rfl
  have children : schema.ChildrenHeld
      (Function.update tables table (before ++ [change draft])) table := by
    intro child isTable reference isReference toTable other inChild
    obtain ⟨different, empty⟩ :=
      childless child isTable reference isReference toTable
    rw [Function.update_of_ne different, empty] at inChild
    cases inChild
  unfold Schema.update
  rw [stands, rows]
  simp only [if_pos children]

/-! ## What is left -/

section

variable {order : List τ}
  {state : (τ → List (Record κ ν)) × (τ → List (Record κ ν))}

theorem Schema.cascade_free (free : schema.references table = []) :
    (schema.cascade order state).1 table = state.1 table := by
  induction order generalizing state with
  | nil => rfl
  | cons first order induction =>
      obtain ⟨kept, removed⟩ := state
      rw [Schema.cascade, induction]
      dsimp only
      by_cases same : table = first
      · cases same
        rw [Function.update_self]
        apply List.filter_eq_self.mpr
        intro row _
        rw [decide_eq_true_eq]
        intro orphan
        obtain ⟨reference, isReference, -⟩ := orphan
        rw [free] at isReference
        cases isReference
      · rw [Function.update_of_ne same]

theorem Schema.cascade_empty (empty : state.1 table = []) :
    (schema.cascade order state).1 table = [] := by
  induction order generalizing state with
  | nil => exact empty
  | cons first order induction =>
      obtain ⟨kept, removed⟩ := state
      rw [Schema.cascade]
      apply induction
      dsimp only
      by_cases same : table = first
      · cases same
        rw [Function.update_self, show kept table = [] from empty,
          List.filter_nil]
      · rw [Function.update_of_ne same]
        exact empty

theorem Schema.cascade_removed (gone : row ∈ state.2 table) :
    row ∈ (schema.cascade order state).2 table := by
  induction order generalizing state with
  | nil => exact gone
  | cons first order induction =>
      obtain ⟨kept, removed⟩ := state
      rw [Schema.cascade]
      apply induction
      dsimp only
      by_cases same : table = first
      · cases same
        rw [Function.update_self]
        exact List.mem_append_left _ gone
      · rw [Function.update_of_ne same]
        exact gone

end

variable {target : τ}

@[simp] theorem Schema.clear_self :
    (schema.clear tables target).1 target = [] :=
  Schema.cascade_empty (Function.update_self _ _ _)

theorem Schema.clear_empty (empty : tables table = []) :
    (schema.clear tables target).1 table = [] := by
  apply Schema.cascade_empty
  by_cases same : table = target
  · cases same
    exact Function.update_self _ _ _
  · exact (Function.update_of_ne same _ _).trans empty

/-- A table without references loses rows by a statement on it alone. -/
theorem Schema.clear_free (free : schema.references table = [])
    (different : table ≠ target) :
    (schema.clear tables target).1 table = tables table :=
  (Schema.cascade_free free).trans (Function.update_of_ne different _ _)

theorem Schema.clear_removed (stood : row ∈ tables target) :
    row ∈ (schema.clear tables target).2 target := by
  apply Schema.cascade_removed
  dsimp only
  rw [Function.update_self]
  exact stood

end

end Relations
