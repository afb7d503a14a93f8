import Mathlib

/-!
# Rows grouped by a key

`Map.groupBy`: the keys in the order in which they first appear, each with its
rows in the order in which they came.
-/

namespace Groups

section

variable {α κ : Type*} [DecidableEq κ]

/-- A row joins the group of its key. -/
def add : List (κ × List α) → κ → α → List (κ × List α)
  | [], key, row => [(key, [row])]
  | (known, rows) :: groups, key, row =>
      if known = key then (known, rows ++ [row]) :: groups
      else (known, rows) :: add groups key row

def groupBy (key : α → κ) (rows : List α) : List (κ × List α) :=
  rows.foldl (fun groups row => add groups (key row) row) []

/-- `groups.get(key) ?? []`. -/
def get (groups : List (κ × List α)) (key : κ) : List α :=
  match groups.find? fun group => group.1 = key with
  | some group => group.2
  | none => []

theorem get_cons (known : κ) (rows : List α) (groups : List (κ × List α))
    (key : κ) : get ((known, rows) :: groups) key =
      if known = key then rows else get groups key := by
  unfold get
  by_cases same : known = key
  · rw [List.find?_cons_of_pos (by simpa using same), if_pos same]
  · rw [List.find?_cons_of_neg (by simpa using same), if_neg same]

theorem get_add (groups : List (κ × List α)) (key : κ) (row : α)
    (wanted : κ) : get (add groups key row) wanted =
      get groups wanted ++ if key = wanted then [row] else [] := by
  induction groups with
  | nil =>
      rw [add, get_cons]
      rfl
  | cons group groups induction =>
      obtain ⟨known, rows⟩ := group
      rw [add, get_cons]
      by_cases here : known = key
      · subst here
        rw [if_pos rfl, get_cons]
        by_cases same : known = wanted
        · simp only [if_pos same]
        · simp only [if_neg same, List.append_nil]
      · rw [if_neg here, get_cons, induction]
        by_cases same : known = wanted
        · subst same
          simp only [if_neg (Ne.symm here), if_true, List.append_nil]
        · simp only [if_neg same]

/-- A group holds the rows of its key. -/
theorem get_groupBy (key : α → κ) (rows : List α) (wanted : κ) :
    get (groupBy key rows) wanted =
      rows.filter fun row => key row = wanted := by
  unfold groupBy
  induction rows using List.reverseRecOn with
  | nil => rfl
  | append_singleton rows row induction =>
      rw [List.foldl_append, List.foldl_cons, List.foldl_nil, get_add,
        induction, List.filter_append]
      by_cases same : key row = wanted
      · simp [same]
      · simp [same]

end

end Groups
