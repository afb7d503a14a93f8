import Mathlib

/-!
# Pages by number

A fixed list read in pages of one size, numbered from 1.  A client asks for
one page after another until no more is announced.
-/

structure NumberedPage (α : Type*) where
  items : List α
  hasMore : Bool

/-- What a client has received after at most so many requests, from a page
on.  Nothing while more is announced. -/
def numberedWalk {α : Type*} (fetch : Nat → NumberedPage α) :
    Nat → Nat → Option (List α)
  | 0, _ => none
  | requests + 1, page =>
      if (fetch page).hasMore then
        (numberedWalk fetch requests (page + 1)).map ((fetch page).items ++ ·)
      else some (fetch page).items

/-- Up to the last page, a page is its slice of the rows and announces
whether some are behind it. -/
structure ServesPages {α : Type*} (rows : List α) (limit last : Nat)
    (fetch : Nat → NumberedPage α) : Prop where
  items : ∀ page, page < last →
    (fetch (page + 1)).items = (rows.drop (page * limit)).take limit
  hasMore : ∀ page, page < last →
    ((fetch (page + 1)).hasMore = true ↔ (page + 1) * limit < rows.length)

section

variable {α : Type*} {rows : List α} {limit last : Nat}
  {fetch : Nat → NumberedPage α}

/-- The first pages are the beginning of the rows. -/
theorem ServesPages.beginning (serves : ServesPages rows limit last fetch) :
    ∀ pages, pages ≤ last →
      (List.range pages).flatMap (fun page => (fetch (page + 1)).items) =
        rows.take (pages * limit) := by
  intro pages
  induction pages with
  | zero =>
      intro _
      rw [Nat.zero_mul, List.take_zero]
      rfl
  | succ pages induction =>
      intro inside
      rw [List.range_succ, List.flatMap_append, induction (by omega),
        List.flatMap_singleton, serves.items pages (by omega), Nat.succ_mul,
        List.take_add]

/-- The induction is on the pages that are left before the last one. -/
theorem ServesPages.walk_from (serves : ServesPages rows limit last fetch)
    (few : rows.length ≤ last * limit) :
    ∀ left page, page + left + 1 = last →
      ∃ requests, numberedWalk fetch requests (page + 1) =
        some (rows.drop (page * limit)) := by
  intro left
  induction left with
  | zero =>
      intro page isLast
      have inside : page < last := by omega
      have ends : ¬(fetch (page + 1)).hasMore = true := by
        rw [serves.hasMore page inside]
        have same : page + 1 = last := by omega
        rw [same]
        omega
      have rest : (rows.drop (page * limit)).length ≤ limit := by
        rw [serves.hasMore page inside, Nat.succ_mul] at ends
        rw [List.length_drop]
        omega
      refine ⟨1, ?_⟩
      rw [numberedWalk, if_neg ends, serves.items page inside,
        List.take_of_length_le rest]
  | succ left induction =>
      intro page isLast
      have inside : page < last := by omega
      by_cases more : (fetch (page + 1)).hasMore = true
      · obtain ⟨requests, walked⟩ := induction (page + 1) (by omega)
        refine ⟨requests + 1, ?_⟩
        rw [numberedWalk, if_pos more, walked, serves.items page inside,
          Option.map_some, Nat.succ_mul, ← List.drop_drop,
          List.take_append_drop]
      · have rest : (rows.drop (page * limit)).length ≤ limit := by
          rw [serves.hasMore page inside, Nat.succ_mul] at more
          rw [List.length_drop]
          omega
        refine ⟨1, ?_⟩
        rw [numberedWalk, if_neg more, serves.items page inside,
          List.take_of_length_le rest]

/-- Where the pages hold all rows, a walk ends and has received them. -/
theorem ServesPages.walk (serves : ServesPages rows limit last fetch)
    (some : 0 < last) (few : rows.length ≤ last * limit) :
    ∃ requests, numberedWalk fetch requests 1 = .some rows := by
  obtain ⟨requests, walked⟩ := serves.walk_from few (last - 1) 0 (by omega)
  rw [Nat.zero_mul, List.drop_zero] at walked
  exact ⟨requests, walked⟩

/-- Each row presented by itself, the pages stay pages. -/
theorem ServesPages.map {β : Type*}
    (serves : ServesPages rows limit last fetch) (present : α → β) :
    ServesPages (rows.map present) limit last fun page =>
      { items := (fetch page).items.map present
        hasMore := (fetch page).hasMore } := by
  constructor
  · intro page inside
    rw [serves.items page inside, List.map_take, List.map_drop]
  · intro page inside
    rw [serves.hasMore page inside, List.length_map]

/-- A walk does not end while more is announced. -/
theorem numberedWalk_eq_none
    (more : ∀ page, (fetch (page + 1)).hasMore = true) :
    ∀ requests page, numberedWalk fetch requests (page + 1) = none := by
  intro requests
  induction requests with
  | zero => exact fun _ => rfl
  | succ requests induction =>
      intro page
      rw [numberedWalk, if_pos (more page), induction (page + 1)]
      rfl

end
