import Mathlib

/-!
# Computations that may fail

How a computation in `Except` succeeds and fails, step by step.
-/

@[simp] theorem ok_bind {ε α β : Type} (value : α) (next : α → Except ε β) :
    ((Except.ok value : Except ε α) >>= next) = next value := rfl

/-- A computation that succeeds does so step by step. -/
theorem bind_ok_iff {ε α β : Type} {first : Except ε α}
    {next : α → Except ε β} {result : β} :
    (first >>= next) = .ok result ↔
      ∃ value, first = .ok value ∧ next value = .ok result := by
  cases first with
  | error failure => simp [bind, Except.bind]
  | ok value => simp [bind, Except.bind]

/-- A computation fails at its first failing step. -/
theorem bind_error_iff {ε α β : Type} {first : Except ε α}
    {next : α → Except ε β} {failure : ε} :
    (first >>= next) = .error failure ↔ first = .error failure ∨
      ∃ value, first = .ok value ∧ next value = .error failure := by
  cases first with
  | error failure => simp [bind, Except.bind]
  | ok value => simp [bind, Except.bind]

/-- A loop of checks succeeds where each of them does. -/
theorem forM_ok_iff {ε α : Type} (check : α → Except ε Unit) (items : List α) :
    items.forM check = .ok () ↔ ∀ item ∈ items, check item = .ok () := by
  induction items with
  | nil => simp [pure, Except.pure]
  | cons item items induction =>
      change (check item >>= fun _ => items.forM check) = .ok () ↔ _
      rw [bind_ok_iff, List.forall_mem_cons, ← induction]
      constructor
      · rintro ⟨⟨⟩, first, others⟩
        exact ⟨first, others⟩
      · rintro ⟨first, others⟩
        exact ⟨(), first, others⟩

/-- A list is computed item by item. -/
theorem mapM_ok_iff {ε α β : Type} {next : α → Except ε β} {items : List α}
    {results : List β} :
    items.mapM next = .ok results ↔ items.map next = results.map .ok := by
  induction items generalizing results with
  | nil =>
      cases results with
      | nil => exact ⟨fun _ => rfl, fun _ => rfl⟩
      | cons result results => exact ⟨nofun, nofun⟩
  | cons item items induction =>
      rw [List.mapM_cons, bind_ok_iff, List.map_cons]
      constructor
      · intro ran
        obtain ⟨result, first, rest⟩ := ran
        obtain ⟨others, later, together⟩ := bind_ok_iff.mp rest
        cases together
        rw [List.map_cons, first, induction.mp later]
      · intro same
        cases results with
        | nil => cases same
        | cons result results =>
            rw [List.map_cons] at same
            obtain ⟨first, later⟩ := List.cons.inj same
            refine ⟨result, first, ?_⟩
            rw [induction.mpr later]
            rfl

/-- Each item of a list that is computed is computed. -/
theorem mapM_ok_mem {ε α β : Type} {next : α → Except ε β} {items : List α}
    {results : List β} (ran : items.mapM next = .ok results) {item : α}
    (member : item ∈ items) : ∃ result, next item = .ok result := by
  have inMap : next item ∈ items.map next := List.mem_map_of_mem member
  rw [mapM_ok_iff.mp ran] at inMap
  obtain ⟨result, -, same⟩ := List.mem_map.mp inMap
  exact ⟨result, same.symm⟩

/-- Where a step can only give one value, a list that is computed is the list
of these. -/
theorem mapM_ok_map {ε α β : Type} {next : α → Except ε β} {value : α → β}
    {items : List α} {results : List β}
    (only : ∀ item ∈ items, ∀ result, next item = .ok result →
      result = value item)
    (ran : items.mapM next = .ok results) : results = items.map value := by
  induction items generalizing results with
  | nil =>
      cases ran
      rfl
  | cons item items induction =>
      rw [List.mapM_cons, bind_ok_iff] at ran
      obtain ⟨result, first, rest⟩ := ran
      obtain ⟨others, later, together⟩ := bind_ok_iff.mp rest
      cases together
      rw [List.map_cons, only item List.mem_cons_self result first, induction
        (fun other member => only other (List.mem_cons_of_mem _ member)) later]

/-- A list is computed where each of its items is. -/
theorem mapM_ok_exists {ε α β : Type} {next : α → Except ε β} {items : List α}
    (each : ∀ item ∈ items, ∃ result, next item = .ok result) :
    ∃ results, items.mapM next = .ok results := by
  induction items with
  | nil => exact ⟨[], rfl⟩
  | cons item items induction =>
      obtain ⟨result, first⟩ := each item List.mem_cons_self
      obtain ⟨results, later⟩ := induction fun other member =>
        each other (List.mem_cons_of_mem _ member)
      refine ⟨result :: results, ?_⟩
      rw [List.mapM_cons, first, ok_bind, later]
      rfl
