import Mathlib

/-!
# Keyset pagination

Sorted rows are read a page at a time.  A page starts after the key of the
last row of the page before it, and one row more than the page holds is read
to learn whether rows remain.
-/

/-- What the sort, the condition for a later page and the key are.  The three
are given separately. -/
structure Keyset (α κ : Type*) where
  le : α → α → Bool
  after : κ → α → Bool
  key : α → κ

structure KeysetPage (α κ : Type*) where
  items : List α
  hasMore : Bool
  next : Option κ

/-- A reader that takes pages until there are no more. -/
structure PageWalk (α κ : Type*) where
  collected : List α
  start : Option κ
  ended : Bool

section

variable {α κ : Type*}

def PageWalk.advance (walk : PageWalk α κ) (page : KeysetPage α κ) :
    PageWalk α κ :=
  { collected := walk.collected ++ page.items
    start := page.next
    ended := !page.hasMore }

/-- The reader after a number of requests.  The limits are its own choice. -/
def pageWalk (page : Option κ → Nat → KeysetPage α κ) (limits : Nat → Nat) :
    Nat → PageWalk α κ
  | 0 => { collected := [], start := none, ended := false }
  | count + 1 =>
      let walk := pageWalk page limits count
      if walk.ended then walk
      else walk.advance (page walk.start (limits count))

namespace Keyset

variable (keyset : Keyset α κ)

/-- The rows a page is taken from. -/
def remaining (rows : List α) : Option κ → List α
  | none => rows
  | some key => rows.filter (keyset.after key)

def page (rows : List α) (start : Option κ) (limit : Nat) : KeysetPage α κ :=
  let results := ((keyset.remaining rows start).mergeSort keyset.le).take
    (limit + 1)
  let items := results.take limit
  let hasMore := decide (limit < results.length)
  { items
    hasMore
    next := if hasMore then items.getLast?.map keyset.key else none }

/-- The sort is a total preorder, and the rows after the key of a row are
those that do not come before it or with it. -/
structure Lawful : Prop where
  trans : ∀ first second third, keyset.le first second = true →
    keyset.le second third = true → keyset.le first third = true
  total : ∀ first second,
    (keyset.le first second || keyset.le second first) = true
  after_key : ∀ row other,
    keyset.after (keyset.key row) other = !keyset.le other row

/-- No two of the rows share their place. -/
def Separates (rows : List α) : Prop :=
  rows.Nodup ∧ ∀ first ∈ rows, ∀ second ∈ rows,
    keyset.le first second = true → keyset.le second first = true →
      first = second

variable {keyset} {rows : List α}

/-- Rows sorted by their place in a linear order. -/
theorem Lawful.of_place {β : Type*} [LinearOrder β] (place : α → β)
    (le_iff : ∀ first second,
      keyset.le first second = true ↔ place first ≤ place second)
    (after_iff : ∀ row other,
      keyset.after (keyset.key row) other = true ↔ place row < place other) :
    keyset.Lawful := by
  refine ⟨?_, ?_, ?_⟩
  · intro first second third
    rw [le_iff, le_iff, le_iff]
    exact le_trans
  · intro first second
    rw [Bool.or_eq_true, le_iff, le_iff]
    exact le_total (place first) (place second)
  · intro row other
    rw [Bool.eq_iff_iff, after_iff, Bool.not_eq_true', ← Bool.not_eq_true,
      le_iff, not_le]

theorem Separates.of_place {β : Type*} [LinearOrder β] (place : α → β)
    (le_iff : ∀ first second,
      keyset.le first second = true ↔ place first ≤ place second)
    (distinct : rows.Nodup)
    (apart : ∀ first ∈ rows, ∀ second ∈ rows,
      place first = place second → first = second) :
    keyset.Separates rows := by
  refine ⟨distinct, fun first isFirst second isSecond forth back => ?_⟩
  rw [le_iff] at forth back
  exact apart first isFirst second isSecond (le_antisymm forth back)

theorem Separates.filter (separates : keyset.Separates rows)
    (test : α → Bool) : keyset.Separates (rows.filter test) := by
  refine ⟨separates.1.filter test, ?_⟩
  intro first isFirst second isSecond
  exact separates.2 first (List.mem_of_mem_filter isFirst) second
    (List.mem_of_mem_filter isSecond)

theorem Lawful.sorted (lawful : keyset.Lawful) (rows : List α) :
    (rows.mergeSort keyset.le).Pairwise
      (fun first second => keyset.le first second = true) :=
  List.pairwise_mergeSort lawful.trans lawful.total rows

/-- In the sorted rows an earlier row is strictly before a later one. -/
theorem Lawful.strictly_sorted (lawful : keyset.Lawful)
    (separates : keyset.Separates rows) :
    (rows.mergeSort keyset.le).Pairwise
      (fun first second => keyset.le second first = false) := by
  have permuted := List.mergeSort_perm rows keyset.le
  have distinct : (rows.mergeSort keyset.le).Nodup :=
    permuted.nodup_iff.mpr separates.1
  have both := (lawful.sorted rows).and distinct
  apply List.Pairwise.imp_of_mem _ both
  intro first second isFirst isSecond related
  by_contra back
  rw [Bool.not_eq_false] at back
  apply related.2
  exact separates.2 first (permuted.mem_iff.mp isFirst) second
    (permuted.mem_iff.mp isSecond) related.1 back

/-- Filtering and sorting commute. -/
theorem Lawful.mergeSort_filter (lawful : keyset.Lawful)
    (separates : keyset.Separates rows) (test : α → Bool) :
    (rows.filter test).mergeSort keyset.le =
      (rows.mergeSort keyset.le).filter test := by
  have permuted : ((rows.filter test).mergeSort keyset.le).Perm
      ((rows.mergeSort keyset.le).filter test) :=
    (List.mergeSort_perm _ _).trans
      ((List.mergeSort_perm rows keyset.le).filter test).symm
  refine List.Perm.eq_of_pairwise ?_ (lawful.sorted _)
    ((lawful.sorted rows).filter test) permuted
  intro first second isFirst isSecond forth back
  have here : first ∈ rows := List.mem_of_mem_filter
    ((List.mergeSort_perm _ _).mem_iff.mp isFirst)
  have there : second ∈ rows := (List.mergeSort_perm _ _).mem_iff.mp
    (List.mem_of_mem_filter isSecond)
  exact separates.2 first here second there forth back

/-- After the key of a sorted row come exactly the rows behind it. -/
theorem Lawful.filter_after (lawful : keyset.Lawful) {last : α}
    {front rest : List α}
    (sorted : (front ++ last :: rest).Pairwise
      (fun first second => keyset.le second first = false)) :
    (front ++ last :: rest).filter (keyset.after (keyset.key last)) = rest := by
  rw [List.pairwise_append] at sorted
  obtain ⟨-, behind, across⟩ := sorted
  have noFront : front.filter (keyset.after (keyset.key last)) = [] := by
    rw [List.filter_eq_nil_iff]
    intro row member later
    have before := across row member last List.mem_cons_self
    have either := lawful.total row last
    rw [before, Bool.or_false] at either
    rw [lawful.after_key, either] at later
    cases later
  have notLast : keyset.after (keyset.key last) last = false := by
    have same := lawful.total last last
    rw [Bool.or_self] at same
    rw [lawful.after_key, same]
    rfl
  have allRest : rest.filter (keyset.after (keyset.key last)) = rest := by
    rw [List.filter_eq_self]
    intro row member
    rw [lawful.after_key, (List.pairwise_cons.mp behind).1 row member]
    rfl
  rw [List.filter_append, noFront, List.filter_cons, notLast, allRest]
  rfl

/-- The page of a reader that has read the beginning of the sorted rows. -/
theorem Lawful.page_eq (lawful : keyset.Lawful)
    (separates : keyset.Separates rows) {before rest : List α}
    (split : rows.mergeSort keyset.le = before ++ rest) (limit : Nat) :
    keyset.page rows (before.getLast?.map keyset.key) limit =
      { items := rest.take limit
        hasMore := decide (limit < rest.length)
        next := if limit < rest.length then
          (rest.take limit).getLast?.map keyset.key else none } := by
  have sorted := lawful.strictly_sorted separates
  have isRest : (keyset.remaining rows (before.getLast?.map
      keyset.key)).mergeSort keyset.le = rest := by
    rcases List.eq_nil_or_concat before with rfl | ⟨front, last, rfl⟩
    · exact split
    · rw [List.concat_eq_append, List.append_assoc] at split
      rw [List.concat_eq_append, List.getLast?_concat, Option.map_some,
        remaining, lawful.mergeSort_filter separates, split]
      rw [split] at sorted
      exact lawful.filter_after sorted
  have more : (limit < (rest.take (limit + 1)).length) =
      (limit < rest.length) := by
    rw [List.length_take]
    apply propext
    omega
  unfold page
  simp only [isRest, more, List.take_take, Nat.min_eq_left (Nat.le_succ limit),
    decide_eq_true_eq]

theorem take_ne_nil {rest : List α} {limit : Nat} (positive : 0 < limit)
    (more : limit < rest.length) : rest.take limit ≠ [] := by
  intro empty
  have size := congrArg List.length empty
  rw [List.length_take, List.length_nil] at size
  omega

/-- A page has a next one where rows are left behind it. -/
theorem Lawful.next_isSome_iff (lawful : keyset.Lawful)
    (separates : keyset.Separates rows) {before rest : List α}
    (split : rows.mergeSort keyset.le = before ++ rest) {limit : Nat}
    (positive : 0 < limit) :
    (keyset.page rows (before.getLast?.map keyset.key) limit).next.isSome ↔
      limit < rest.length := by
  rw [lawful.page_eq separates split]
  by_cases more : limit < rest.length
  · obtain ⟨last, isLast⟩ := Option.isSome_iff_exists.mp
      (List.getLast?_isSome.mpr (take_ne_nil positive more))
    simp [more, isLast]
  · simp [more]

/-! ## A whole walk -/

/-- Where a reader stands: it has the beginning of the sorted rows, and
either nothing is left, or it goes on behind what it has.  Each request but
the last has brought a row. -/
structure Stands (keyset : Keyset α κ) (rows : List α) (count : Nat)
    (walk : PageWalk α κ) (rest : List α) : Prop where
  split : rows.mergeSort keyset.le = walk.collected ++ rest
  finished : walk.ended = true → rest = []
  more : walk.ended = false → 0 < count → rest ≠ []
  start : walk.ended = false →
    walk.start = walk.collected.getLast?.map keyset.key
  progress : walk.ended = false → count ≤ walk.collected.length

/-- One request. -/
theorem Lawful.stands_advance (lawful : keyset.Lawful)
    (separates : keyset.Separates rows) {count : Nat} {walk : PageWalk α κ}
    {rest : List α} (stands : Stands keyset rows count walk rest)
    (goesOn : walk.ended = false) {limit : Nat} (positive : 0 < limit) :
    Stands keyset rows (count + 1)
      (walk.advance (keyset.page rows walk.start limit))
      (rest.drop limit) := by
  have isPage := lawful.page_eq separates stands.split limit
  rw [← stands.start goesOn] at isPage
  have split : rows.mergeSort keyset.le =
      (walk.collected ++ rest.take limit) ++ rest.drop limit := by
    rw [List.append_assoc, List.take_append_drop, stands.split]
  have progress := stands.progress goesOn
  rw [isPage]
  refine ⟨split, fun ended => ?_, fun unended _ => ?_, fun unended => ?_,
    fun unended => ?_⟩
  · simp only [PageWalk.advance, Bool.not_eq_true', decide_eq_false_iff_not,
      Nat.not_lt] at ended
    exact List.drop_eq_nil_of_le ended
  all_goals
    simp only [PageWalk.advance, Bool.not_eq_false', decide_eq_true_eq] at unended
  · intro none
    rw [List.drop_eq_nil_iff] at none
    omega
  · simp only [PageWalk.advance, if_pos unended]
    rw [List.getLast?_append_of_ne_nil _ (take_ne_nil positive unended)]
  · simp only [PageWalk.advance, List.length_append, List.length_take]
    omega

/-- Any number of requests. -/
theorem Lawful.stands (lawful : keyset.Lawful)
    (separates : keyset.Separates rows) {limits : Nat → Nat}
    (positive : ∀ count, 0 < limits count) (count : Nat) :
    ∃ rest, Stands keyset rows count
      (pageWalk (keyset.page rows) limits count) rest := by
  induction count with
  | zero =>
      refine ⟨rows.mergeSort keyset.le, rfl, (nomatch ·), ?_, fun _ => rfl,
        fun _ => Nat.zero_le _⟩
      intro _ impossible
      exact absurd impossible (Nat.lt_irrefl 0)
  | succ count induction =>
      obtain ⟨rest, stands⟩ := induction
      simp only [pageWalk]
      split
      · rename_i ended
        refine ⟨rest, stands.split, stands.finished, ?_, ?_, ?_⟩
        all_goals
          intro goesOn
          rw [ended] at goesOn
          cases goesOn
      · rename_i goesOn
        rw [Bool.not_eq_true] at goesOn
        exact ⟨_, lawful.stands_advance separates stands goesOn
          (positive count)⟩

/-- What is asked of a walk over the rows that match: it ends, what it has
when it ends are these rows in order and each once, and a page has a next one
exactly while such a row is missing. -/
structure Visits (page : Option κ → Nat → KeysetPage α κ)
    (before : α → α → Prop) (wanted : α → Prop) (limits : Nat → Nat) :
    Prop where
  ends : ∃ count, (pageWalk page limits count).ended = true
  exactly : ∀ count, (pageWalk page limits count).ended = true →
    (pageWalk page limits count).collected.Pairwise before ∧
      (pageWalk page limits count).collected.Nodup ∧
      ∀ row, row ∈ (pageWalk page limits count).collected ↔ wanted row
  next : ∀ count, (pageWalk page limits count).ended = false →
    ((page (pageWalk page limits count).start (limits count)).next.isSome ↔
      ∃ row, wanted row ∧
        row ∉ (pageWalk page limits (count + 1)).collected)

theorem Lawful.visits (lawful : keyset.Lawful)
    (separates : keyset.Separates rows) {limits : Nat → Nat}
    (positive : ∀ count, 0 < limits count) :
    Visits (keyset.page rows)
      (fun first second => keyset.le second first = false)
      (· ∈ rows) limits := by
  have permuted := List.mergeSort_perm rows keyset.le
  have distinct : (rows.mergeSort keyset.le).Nodup :=
    permuted.nodup_iff.mpr separates.1
  refine ⟨⟨rows.length + 1, ?_⟩, fun count ended => ?_, fun count goesOn => ?_⟩
  · obtain ⟨rest, stands⟩ := lawful.stands separates positive
      (rows.length + 1)
    by_contra goesOn
    rw [Bool.not_eq_true] at goesOn
    have size := congrArg List.length stands.split
    rw [List.length_mergeSort, List.length_append] at size
    have progress := stands.progress goesOn
    omega
  · obtain ⟨rest, stands⟩ := lawful.stands separates positive count
    have split := stands.split
    rw [stands.finished ended, List.append_nil] at split
    rw [← split]
    exact ⟨lawful.strictly_sorted separates, distinct,
      fun row => permuted.mem_iff⟩
  · obtain ⟨rest, stands⟩ := lawful.stands separates positive count
    have later := lawful.stands_advance separates stands goesOn
      (positive count)
    have isLater : pageWalk (keyset.page rows) limits (count + 1) =
        (pageWalk (keyset.page rows) limits count).advance
          (keyset.page rows (pageWalk (keyset.page rows) limits count).start
            (limits count)) := by
      simp only [pageWalk, goesOn, Bool.false_eq_true, if_false]
    have nextIff := lawful.next_isSome_iff separates stands.split
      (positive count)
    rw [← stands.start goesOn] at nextIff
    rw [nextIff, isLater]
    have split := later.split
    constructor
    · intro more
      obtain ⟨row, others, left⟩ := List.exists_cons_of_ne_nil
        (l := rest.drop (limits count)) (by
          rw [ne_eq, List.drop_eq_nil_iff]
          omega)
      rw [left] at split
      rw [split] at distinct permuted
      refine ⟨row, permuted.mem_iff.mp (by simp), fun visited => ?_⟩
      exact (List.nodup_append.mp distinct).2.2 row visited row
        List.mem_cons_self rfl
    · rintro ⟨row, wanted, missing⟩
      by_contra none
      have empty : rest.drop (limits count) = [] :=
        List.drop_eq_nil_of_le (by omega)
      rw [empty, List.append_nil] at split
      exact missing (split ▸ permuted.mem_iff.mpr wanted)

end Keyset

end
