import Mathlib

/-!
# Joined pairs

Named values written one after another, each as a separator, the name, an
equals mark and the value.  Nothing is escaped, so the text gives a value back
only where the value has no separator.
-/

section

variable {α ν : Type*} (separator equals : α)
  (text : ν → List α)

def joinedPair (name : ν) : Option (List α) → List α
  | none => []
  | some value => separator :: (text name ++ equals :: value)

def joinedPairs (names : List ν) (values : ν → Option (List α)) : List α :=
  names.flatMap fun name => joinedPair separator equals text name (values name)

variable {separator equals text}

/-- A front without the separator is known from what it stands before. -/
theorem append_separated_inj [DecidableEq α] {left right rest others : List α}
    (noLeft : separator ∉ left) (noRight : separator ∉ right)
    (starts : ∀ first ∈ rest.head?, first = separator)
    (starts' : ∀ first ∈ others.head?, first = separator)
    (same : left ++ rest = right ++ others) :
    left = right ∧ rest = others := by
  have front : ∀ {before after : List α}, separator ∉ before →
      (∀ first ∈ after.head?, first = separator) →
        (before ++ after).takeWhile (· ≠ separator) = before := by
    intro before after absent begins
    have kept : ∀ item ∈ before, decide (item ≠ separator) = true := by
      intro item member
      rw [decide_eq_true_eq]
      rintro rfl
      exact absent member
    rw [List.takeWhile_append_of_pos kept]
    cases after with
    | nil => simp
    | cons first after =>
        rw [begins first rfl, List.takeWhile_cons_of_neg (by simp),
          List.append_nil]
  have isLeft := front noLeft starts
  rw [same, front noRight starts'] at isLeft
  subst isLeft
  exact ⟨rfl, List.append_cancel_left same⟩

theorem joinedPairs_cons (separator equals : α) (text : ν → List α)
    (name : ν) (names : List ν) (values : ν → Option (List α)) :
    joinedPairs separator equals text (name :: names) values =
      joinedPair separator equals text name (values name) ++
        joinedPairs separator equals text names values := rfl

/-- What is written is nothing, or begins with one of the names. -/
theorem joinedPairs_cases (separator equals : α) (text : ν → List α)
    (names : List ν) (values : ν → Option (List α)) :
    joinedPairs separator equals text names values = [] ∨
      ∃ name ∈ names, ∃ rest,
        joinedPairs separator equals text names values =
          separator :: (text name ++ equals :: rest) := by
  induction names with
  | nil => exact .inl rfl
  | cons name names induction =>
      rw [joinedPairs_cons]
      cases values name with
      | none =>
          rw [joinedPair, List.nil_append]
          refine induction.imp_right ?_
          rintro ⟨other, member, rest, begins⟩
          exact ⟨other, List.mem_cons_of_mem name member, rest, begins⟩
      | some value =>
          right
          refine ⟨name, List.mem_cons_self,
            value ++ joinedPairs separator equals text names values, ?_⟩
          rw [joinedPair, List.cons_append, List.append_assoc,
            List.cons_append]

theorem joinedPairs_head (separator equals : α) (text : ν → List α)
    (names : List ν) (values : ν → Option (List α)) :
    ∀ first ∈ (joinedPairs separator equals text names values).head?,
      first = separator := by
  intro first isFirst
  rcases joinedPairs_cases separator equals text names values with
    empty | ⟨name, -, rest, begins⟩
  · rw [empty] at isFirst
    cases isFirst
  · rw [begins] at isFirst
    exact (Option.some.inj isFirst).symm

/-- The names can be told apart and from what follows them. -/
structure Distinguished (equals : α) (text : ν → List α) (names : List ν) :
    Prop where
  plain : ∀ name ∈ names, equals ∉ text name
  distinct : (names.map text).Nodup

section

variable {name : ν} {names : List ν} {values others : ν → Option (List α)}

theorem Distinguished.tail (told : Distinguished equals text (name :: names)) :
    Distinguished equals text names :=
  ⟨fun other member => told.plain other (List.mem_cons_of_mem name member),
    (List.nodup_cons.mp told.distinct).2⟩

variable [DecidableEq α] (told : Distinguished equals text (name :: names))
  (same : joinedPairs separator equals text (name :: names) values =
    joinedPairs separator equals text (name :: names) others)

include told same

/-- A name that was not written is not read. -/
theorem Distinguished.absent (absent : values name = none) :
    others name = none := by
  cases isOther : others name with
  | none => rfl
  | some value =>
      rw [joinedPairs_cons, joinedPairs_cons, absent, isOther] at same
      simp only [joinedPair, List.nil_append, List.cons_append,
        List.append_assoc] at same
      rcases joinedPairs_cases separator equals text names values with
        empty | ⟨next, member, rest, begins⟩
      · rw [empty] at same
        cases same
      · rw [begins] at same
        have fronts := append_separated_inj
          (told.plain next (List.mem_cons_of_mem name member))
          (told.plain name List.mem_cons_self)
          (by simp) (by simp) (List.cons.inj same).2
        have new := (List.nodup_cons.mp told.distinct).1
        exact absurd (List.mem_map.mpr ⟨next, member, fronts.1⟩) new

/-- A value without the separator is read as it was written. -/
theorem Distinguished.value
    (plain : ∀ value, values name = some value → separator ∉ value)
    (plain' : ∀ value, others name = some value → separator ∉ value) :
    values name = others name := by
  cases isValue : values name with
  | none => exact (told.absent same isValue).symm
  | some value =>
      cases isOther : others name with
      | none =>
          rw [told.absent same.symm isOther] at isValue
          cases isValue
      | some other =>
          rw [joinedPairs_cons, joinedPairs_cons, isValue, isOther] at same
          simp only [joinedPair, List.cons_append, List.append_assoc,
            List.cons.injEq, true_and, List.append_cancel_left_eq] at same
          rw [(append_separated_inj (plain value isValue)
            (plain' other isOther)
            (joinedPairs_head separator equals text names values)
            (joinedPairs_head separator equals text names others) same).1]

omit told [DecidableEq α] in
/-- Behind the same value the same was written. -/
theorem joinedPairs_rest (equal : values name = others name) :
    joinedPairs separator equals text names values =
      joinedPairs separator equals text names others := by
  rw [joinedPairs_cons, joinedPairs_cons, equal] at same
  exact List.append_cancel_left same

end

end
