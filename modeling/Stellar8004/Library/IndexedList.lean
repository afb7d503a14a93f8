import Mathlib

/-!
# Lists kept under numbered keys

A key-value store keeps a growing list as a count and one entry for each
position below it.
-/

/-- The count and the entries of a store are those of a list. -/
structure IndexedList {α : Type*} (count : Nat) (entry : Nat → Option α)
    (items : List α) : Prop where
  counts : count = items.length
  entries : ∀ position, entry position = items[position]?

namespace IndexedList

variable {α : Type*} {count : Nat} {entry : Nat → Option α} {items : List α}

theorem empty : IndexedList 0 (fun _ => (none : Option α)) [] :=
  ⟨rfl, fun _ => rfl⟩

/-- Writing at the count and raising it appends. -/
theorem push (listed : IndexedList count entry items) (item : α) :
    IndexedList (count + 1) (Function.update entry count (some item))
      (items ++ [item]) := by
  refine ⟨by rw [listed.counts, List.length_append, List.length_singleton],
    fun position => ?_⟩
  by_cases last : position = count
  · rw [last, Function.update_self, listed.counts]
    simp
  · rw [Function.update_of_ne last, listed.entries,
      List.getElem?_append]
    rw [listed.counts] at last
    split
    · rfl
    · rename_i beyond
      have far : items.length + 1 ≤ position := by omega
      rw [List.getElem?_eq_none (by omega), List.getElem?_eq_none (by
        rw [List.length_singleton]
        omega)]

theorem isSome_iff (listed : IndexedList count entry items)
    (position : Nat) :
    (entry position).isSome = true ↔ position < count := by
  rw [listed.entries, listed.counts]
  simp

theorem mem_iff (listed : IndexedList count entry items) (item : α) :
    item ∈ items ↔ ∃ position, entry position = some item := by
  rw [List.mem_iff_getElem?]
  simp only [listed.entries]

/-- Reading the positions in order reads the list. -/
theorem map_range (listed : IndexedList count entry items) :
    (List.range count).map entry = items.map some := by
  apply List.ext_getElem?
  intro position
  rw [List.getElem?_map, List.getElem?_map, listed.counts]
  by_cases inside : position < items.length
  · rw [List.getElem?_range inside, Option.map_some, listed.entries,
      List.getElem?_eq_getElem inside]
    rfl
  · rw [List.getElem?_eq_none (by simpa using inside),
      List.getElem?_eq_none (by simpa using inside)]
    rfl

/-- In a list without repetitions an item has one position. -/
theorem injective (listed : IndexedList count entry items)
    (distinct : items.Nodup) {left right : Nat} {item : α}
    (first : entry left = some item) (second : entry right = some item) :
    left = right := by
  have inside : left < items.length := by
    rw [← listed.counts]
    apply (listed.isSome_iff left).mp
    rw [first]
    rfl
  rw [listed.entries] at first second
  exact (List.getElem?_inj inside distinct).mp (first.trans second.symm)

end IndexedList
