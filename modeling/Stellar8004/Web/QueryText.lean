import Stellar8004.Library.JoinedPairs
import Stellar8004.Web.CursorTravel

/-!
# The query of a cursor

The text a cursor belongs to, and which parameters it tells apart.  A value is
written into it as it is, separators included.
-/

namespace Stellar8004.Web

open Stellar8004.Indexer

/-! ## The text -/

/-- The names a cursor is bound to, as they are sorted. -/
def queryNames : List String :=
  ["hasServices", "minScore", "mpp", "network", "sort", "text", "trust", "x402"]

def queryPairs (names : List String) (params : Params) : List Char :=
  joinedPairs '&' '=' String.toList names fun name =>
    (params.get name).map String.toList

theorem queryNames_sorted : queryNames.Pairwise (· < ·) := by
  decide

theorem queryNames_told : Distinguished '=' String.toList queryNames := by
  constructor
  · decide
  · decide

theorem mem_queryNames_iff {name : String} :
    name ∈ queryNames ↔ name ∈ PARAMS ∧ name ≠ "cursor" ∧ name ≠ "limit" := by
  constructor
  · revert name
    decide
  · rintro ⟨member, notCursor, notLimit⟩
    simp only [PARAMS, List.mem_cons, List.not_mem_nil, or_false] at member
    rcases member with rfl | rfl | rfl | rfl | rfl | rfl | rfl | rfl | rfl | rfl
    all_goals first | decide | exact absurd rfl notCursor |
      exact absurd rfl notLimit

theorem count_names (params : Params) (name : String) :
    (params.map Prod.fst).count name =
      (params.filter fun param => param.1 = name).length := by
  rw [List.count_eq_countP, List.countP_map, List.countP_eq_length_filter]
  rfl

/-- A name that passes is there once. -/
theorem count_of_checkName {params : Params} {name : String}
    (checked : checkName params name = .ok ()) :
    (params.map Prod.fst).count name ≤ 1 := by
  unfold checkName at checked
  split_ifs at checked with unknown repeated
  rw [count_names]
  exact Nat.not_lt.mp repeated

theorem Accepted.nodup {platform : Platform} {network : String}
    {params : Params} {request : DiscoveryRequest}
    (accepted : Accepted platform network params request) :
    (params.map Prod.fst).Nodup := by
  rw [List.nodup_iff_count_le_one]
  intro name
  by_cases member : name ∈ params.map Prod.fst
  · exact count_of_checkName (accepted.names name member)
  · rw [List.count_eq_zero_of_not_mem member]
    omega

theorem Params.get_eq_some_iff {params : Params}
    (nodup : (params.map Prod.fst).Nodup) {name value : String} :
    params.get name = some value ↔ (name, value) ∈ params := by
  unfold Params.get
  constructor
  · intro isValue
    obtain ⟨⟨other, found⟩, isFound, rfl⟩ := Option.map_eq_some_iff.mp isValue
    have same := List.find?_some isFound
    rw [decide_eq_true_eq] at same
    rw [← same]
    exact List.mem_of_find?_eq_some isFound
  · intro member
    have some : (params.find? fun param => param.1 = name).isSome := by
      rw [List.find?_isSome]
      exact ⟨(name, value), member, by simp⟩
    obtain ⟨found, isFound⟩ := Option.isSome_iff_exists.mp some
    have same := List.find?_some isFound
    rw [decide_eq_true_eq] at same
    have isSame := List.inj_on_of_nodup_map nodup
      (List.mem_of_find?_eq_some isFound) member same
    rw [isFound, isSame]
    rfl

/-- The parameters with given values, by their names. -/
def Params.ofValues (values : String → Option String) : Params :=
  queryNames.filterMap fun name => (values name).map (Prod.mk name)

theorem mem_ofValues_iff {values : String → Option String}
    {param : String × String} : param ∈ Params.ofValues values ↔
      param.1 ∈ queryNames ∧ values param.1 = some param.2 := by
  unfold Params.ofValues
  rw [List.mem_filterMap]
  constructor
  · rintro ⟨name, member, isParam⟩
    obtain ⟨value, isValue, rfl⟩ := Option.map_eq_some_iff.mp isParam
    exact ⟨member, isValue⟩
  · rintro ⟨member, isValue⟩
    exact ⟨param.1, member, by rw [isValue]; rfl⟩

theorem ofValues_sorted (values : String → Option String) :
    (Params.ofValues values).Pairwise
      (fun first second => first.1 < second.1) := by
  unfold Params.ofValues
  refine List.Pairwise.filterMap _ ?_ queryNames_sorted
  intro first second before left isLeft right isRight
  obtain ⟨value, -, rfl⟩ := Option.map_eq_some_iff.mp isLeft
  obtain ⟨other, -, rfl⟩ := Option.map_eq_some_iff.mp isRight
  exact before

theorem ofValues_nodup (values : String → Option String) :
    ((Params.ofValues values).map Prod.fst).Nodup := by
  rw [List.Nodup, List.pairwise_map]
  exact (ofValues_sorted values).imp fun before => before.ne

theorem get_ofValues (values : String → Option String) {name : String}
    (member : name ∈ queryNames) :
    (Params.ofValues values).get name = values name := by
  apply Option.ext
  intro value
  rw [Params.get_eq_some_iff (ofValues_nodup values), mem_ofValues_iff]
  exact ⟨fun both => both.2, fun isValue => ⟨member, isValue⟩⟩

/-- Sorting the accepted parameters by their names gives each name its
place. -/
theorem Accepted.sorted_eq {platform : Platform} {network : String}
    {params : Params} {request : DiscoveryRequest}
    (accepted : Accepted platform network params request) :
    (params.filter fun param => param.1 ≠ "cursor" ∧ param.1 ≠ "limit").mergeSort
      (fun first second => ¬second.1 < first.1) =
      Params.ofValues params.get := by
  have nodup := accepted.nodup
  have known : ∀ param ∈ params, param.1 ∈ PARAMS := fun param member =>
    name_mem_of_checkName (accepted.names param.1
      (List.mem_map_of_mem member))
  have permuted : (params.filter fun param =>
      param.1 ≠ "cursor" ∧ param.1 ≠ "limit").Perm
      (Params.ofValues params.get) := by
    refine (List.perm_ext_iff_of_nodup (nodup.of_map.filter _) ?_).mpr ?_
    · exact (ofValues_nodup params.get).of_map
    · intro param
      rw [mem_ofValues_iff, mem_queryNames_iff,
        Params.get_eq_some_iff nodup, List.mem_filter, decide_eq_true_eq]
      constructor
      · rintro ⟨member, others⟩
        exact ⟨⟨known param member, others⟩, member⟩
      · rintro ⟨⟨-, others⟩, member⟩
        exact ⟨member, others⟩
  refine List.Perm.eq_of_pairwise ?_
    (List.pairwise_mergeSort ?_ ?_ _) ?_
    ((List.mergeSort_perm _ _).trans permuted)
  · intro first second isFirst isSecond forth back
    have here := (List.mem_filter.mp (List.mem_mergeSort.mp isFirst)).1
    have there := (List.mem_filter.mp (permuted.mem_iff.mpr isSecond)).1
    simp only [decide_eq_true_eq, not_lt] at forth back
    exact List.inj_on_of_nodup_map nodup here there (le_antisymm forth back)
  · intro first second third
    simp only [decide_eq_true_eq, not_lt]
    exact le_trans
  · intro first second
    simp only [Bool.or_eq_true, decide_eq_true_eq, not_lt]
    exact le_total first.1 second.1
  · refine (ofValues_sorted params.get).imp fun before => ?_
    simp only [decide_eq_true_eq, not_lt]
    exact before.le

theorem toList_intercalate_cons (text : String) (texts : List String) :
    '&' :: (String.intercalate "&" (text :: texts)).toList =
      (text :: texts).flatMap fun part => '&' :: part.toList := by
  induction texts generalizing text with
  | nil =>
      rw [String.intercalate_singleton, List.flatMap_singleton]
  | cons next texts induction =>
      rw [String.intercalate_cons_cons, String.toList_append,
        String.toList_append, List.flatMap_cons, ← induction]
      simp

theorem flatMap_pairs (names : List String) (params : Params) :
    ((names.filterMap fun name => (params.get name).map (Prod.mk name)).map
        fun param => param.1 ++ "=" ++ param.2).flatMap
      (fun part => '&' :: part.toList) = queryPairs names params := by
  induction names with
  | nil => rfl
  | cons name names induction =>
      rw [queryPairs, joinedPairs_cons, ← queryPairs, ← induction]
      cases isValue : params.get name with
      | none =>
          rw [List.filterMap_cons_none (by rw [isValue]; rfl)]
          rfl
      | some value =>
          rw [List.filterMap_cons_some (by rw [isValue]; rfl), List.map_cons,
            List.flatMap_cons]
          simp [joinedPair]

/-- The query of an accepted request is the pairs of its parameters. -/
theorem Accepted.query_eq {platform : Platform} {network : String}
    {params : Params} {request : DiscoveryRequest}
    (accepted : Accepted platform network params request) :
    '&' :: request.query.toList = queryPairs queryNames params := by
  have isNetwork : ∃ value, params.get "network" = some value := by
    have checked := accepted.network
    cases isValue : params.get "network" with
    | none =>
        rw [isValue] at checked
        cases checked
    | some value => exact ⟨value, rfl⟩
  obtain ⟨value, isValue⟩ := isNetwork
  have named : "network" ∈ queryNames := by decide
  have member : ("network", value) ∈ Params.ofValues params.get :=
    mem_ofValues_iff.mpr ⟨named, isValue⟩
  obtain ⟨first, others, isBound⟩ := List.exists_cons_of_ne_nil
    (List.ne_nil_of_mem member)
  rw [accepted.query, cursorQuery]
  simp only [accepted.sorted_eq]
  have written := flatMap_pairs queryNames params
  change ((Params.ofValues params.get).map _).flatMap _ = _ at written
  rw [isBound] at written ⊢
  rw [← written, List.map_cons, toList_intercalate_cons]

end Stellar8004.Web
