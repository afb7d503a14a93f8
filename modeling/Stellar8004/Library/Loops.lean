import Mathlib

/-!
# Loops that may stop early

A loop over a list carries a state and may stop with an error.  While what it
has seen is good the state is a function of what it has seen; at the first
item that makes it bad the loop stops there.  Two things such loops compute:
sums whose every partial sum has to stay in an interval, and the first place
of a greatest value.  A loop may also run over part of its list: the items
dropped bring nothing where the result is the same.
-/

/-- While the items seen are good, the loop's state is their summary. -/
structure LoopSummary {σ α ε : Type*} (step : σ → α → Except ε σ)
    (summary : List α → σ) (Good : List α → Prop) : Prop where
  start : Good []
  earlier : ∀ {before item}, Good (before ++ [item]) → Good before
  goesOn : ∀ {before item}, Good (before ++ [item]) →
    step (summary before) item = .ok (summary (before ++ [item]))

namespace LoopSummary

variable {σ α ε : Type*} {step : σ → α → Except ε σ} {summary : List α → σ}
  {Good : List α → Prop}

theorem foldlM_good (loop : LoopSummary step summary Good) {items : List α}
    (good : Good items) :
    items.foldlM step (summary []) = .ok (summary items) := by
  induction items using List.reverseRecOn with
  | nil => rfl
  | append_singleton items item induction =>
      rw [List.foldlM_append, induction (loop.earlier good)]
      change [item].foldlM step (summary items) = _
      rw [List.foldlM_cons, loop.goesOn good]
      rfl

/-- A bad list has a first bad item, and the loop gets there. -/
theorem foldlM_bad (loop : LoopSummary step summary Good) {items : List α}
    (bad : ¬ Good items) :
    ∃ before item rest, items = before ++ item :: rest ∧ Good before ∧
      ¬ Good (before ++ [item]) ∧
      items.foldlM step (summary []) =
        step (summary before) item >>= fun state =>
          rest.foldlM step state := by
  induction items using List.reverseRecOn with
  | nil => exact absurd loop.start bad
  | append_singleton items item induction =>
      by_cases good : Good items
      · refine ⟨items, item, [], rfl, good, bad, ?_⟩
        rw [List.foldlM_append, loop.foldlM_good good]
        rfl
      · obtain ⟨before, first, rest, rfl, isGood, isBad, stops⟩ :=
          induction good
        refine ⟨before, first, rest ++ [item], by simp, isGood, isBad, ?_⟩
        rw [List.foldlM_append, stops, bind_assoc]
        simp only [List.foldlM_append]

end LoopSummary

/-! ## Sums inside an interval -/

/-- Every partial sum stays between the bounds. -/
def PartialSums {α : Type*} [AddMonoid α] [Preorder α] (low high : α)
    (values : List α) : Prop :=
  ∀ before, before <+: values → before.sum ∈ Set.Icc low high

namespace PartialSums

section

variable {α : Type*} [AddMonoid α] [Preorder α] {low high : α}

theorem sum_mem {values : List α} (sums : PartialSums low high values) :
    values.sum ∈ Set.Icc low high :=
  sums values List.prefix_rfl

theorem snoc_iff {values : List α} {value : α} :
    PartialSums low high (values ++ [value]) ↔
      PartialSums low high values ∧
        (values ++ [value]).sum ∈ Set.Icc low high := by
  constructor
  · intro sums
    exact ⟨fun before isPrefix => sums before
      (isPrefix.trans (List.prefix_append _ _)), sums.sum_mem⟩
  · rintro ⟨sums, last⟩ before isPrefix
    rcases List.prefix_concat_iff.mp isPrefix with whole | earlier
    · rw [whole]
      exact last
    · exact sums before earlier

end

section

variable {α : Type*} [AddCommMonoid α] [PartialOrder α] [IsOrderedAddMonoid α]
  {low high : α} {values : List α}

/-- Growing sums stay inside when the last does. -/
theorem of_nonneg (below : low ≤ 0) (grow : ∀ value ∈ values, 0 ≤ value)
    (last : values.sum ≤ high) : PartialSums low high values := by
  rintro before ⟨rest, rfl⟩
  have first : 0 ≤ before.sum :=
    List.sum_nonneg fun value member => grow value (by simp [member])
  have second : 0 ≤ rest.sum :=
    List.sum_nonneg fun value member => grow value (by simp [member])
  rw [List.sum_append] at last
  exact ⟨below.trans first, (le_add_of_nonneg_right second).trans last⟩

/-- Shrinking sums stay inside when the last does. -/
theorem of_nonpos (above : 0 ≤ high) (shrink : ∀ value ∈ values, value ≤ 0)
    (last : low ≤ values.sum) : PartialSums low high values := by
  rintro before ⟨rest, rfl⟩
  have first : before.sum ≤ 0 :=
    List.sum_induction (· ≤ 0) (fun _ _ => add_nonpos) le_rfl
      fun value member => shrink value (by simp [member])
  have second : rest.sum ≤ 0 :=
    List.sum_induction (· ≤ 0) (fun _ _ => add_nonpos) le_rfl
      fun value member => shrink value (by simp [member])
  rw [List.sum_append] at last
  exact ⟨last.trans (add_le_of_nonpos_right second), first.trans above⟩

end

end PartialSums

/-! ## The first place of a greatest value -/

/-- One round of the search: a strictly greater value is a better place. -/
def betterPlace {α : Type*} [LT α] [DecidableLT α] (value : Nat → α)
    (best : Nat × α) (place : Nat) : Nat × α :=
  if best.2 < value place then (place, value place) else best

/-- The place found is the first of the greatest value, provided some value
is greater than the one the search starts with. -/
theorem foldl_betterPlace {α : Type*} [LinearOrder α] (value : Nat → α)
    (bottom : α) (count : Nat) :
    let best := (List.range count).foldl (betterPlace value) (0, bottom)
    bottom ≤ best.2 ∧ (∀ place < count, value place ≤ best.2) ∧
      (bottom < best.2 → best.1 < count ∧ value best.1 = best.2 ∧
        ∀ place < best.1, value place < best.2) := by
  induction count with
  | zero => simp
  | succ count induction =>
      rw [List.range_succ, List.foldl_append]
      generalize (List.range count).foldl (betterPlace value) (0, bottom) =
        best at induction
      obtain ⟨above, greatest, isFirst⟩ := induction
      simp only [List.foldl_cons, List.foldl_nil, betterPlace]
      split
      · rename_i better
        refine ⟨above.trans better.le, ?_, fun _ => ⟨?_, rfl, ?_⟩⟩
        · intro place earlier
          rcases Nat.lt_succ_iff_lt_or_eq.mp earlier with old | rfl
          · exact (greatest place old).trans better.le
          · exact le_rfl
        · exact Nat.lt_succ_self count
        · intro place earlier
          exact (greatest place earlier).trans_lt better
      · rename_i worse
        refine ⟨above, ?_, fun positive => ?_⟩
        · intro place earlier
          rcases Nat.lt_succ_iff_lt_or_eq.mp earlier with old | rfl
          · exact greatest place old
          · exact not_lt.mp worse
        · obtain ⟨inside, isValue, smaller⟩ := isFirst positive
          exact ⟨Nat.lt_succ_of_lt inside, isValue, smaller⟩

/-! ## Items that are dropped -/

section

variable {α β : Type*} [DecidableEq α] {kept items : List α}

/-- Dropping items that bring nothing changes nothing. -/
theorem flatMap_sublist {bring : α → List β} (sublist : kept.Sublist items)
    (nothing : ∀ item, kept.count item < items.count item →
      bring item = []) :
    items.flatMap bring = kept.flatMap bring := by
  induction sublist with
  | slnil => rfl
  | @cons kept items item sublist induction =>
      have smaller := sublist.count_le item
      have dropped : bring item = [] := by
        apply nothing
        rw [List.count_cons_self]
        omega
      rw [List.flatMap_cons, dropped, List.nil_append]
      apply induction
      intro other fewer
      apply nothing
      exact fewer.trans_le (List.count_le_count_cons)
  | @cons_cons kept items item sublist induction =>
      rw [List.flatMap_cons, List.flatMap_cons]
      congr 1
      apply induction
      intro other fewer
      apply nothing
      rw [List.count_cons, List.count_cons]
      omega

/-- Items that are dropped without changing the sum weigh nothing. -/
theorem weight_of_sum_sublist {weight : α → Nat}
    (sublist : kept.Sublist items)
    (same : (items.map weight).sum = (kept.map weight).sum) :
    ∀ item, kept.count item < items.count item → weight item = 0 := by
  induction sublist with
  | slnil => simp
  | @cons kept items item sublist induction =>
      have smaller : (kept.map weight).sum ≤ (items.map weight).sum :=
        (sublist.map weight).sum_le_sum (by simp)
      rw [List.map_cons, List.sum_cons] at same
      intro other fewer
      by_cases mine : other = item
      · subst mine
        omega
      · apply induction (by omega)
        rwa [List.count_cons_of_ne (Ne.symm mine)] at fewer
  | @cons_cons kept items item sublist induction =>
      simp only [List.map_cons, List.sum_cons, Nat.add_left_cancel_iff] at same
      intro other fewer
      apply induction same
      rw [List.count_cons, List.count_cons] at fewer
      omega

end
