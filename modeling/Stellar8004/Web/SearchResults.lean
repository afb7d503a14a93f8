import Stellar8004.Web.ListPages

/-!
# Search results

`handleSearch` of `apps/web/src/lib/server/api/handlers.ts`, beside the list of
agents with the same text and filters: what it answers is what a client would
make of a walk over the list.  The items of an answer are the rows it was built
from.
-/

namespace Stellar8004.Web

/-! ## `handleSearch` -/

/-- `Number.isFinite(minScore) ? Math.max(minScore, 0) : 0`. -/
def searchScore (params : Params) : ℚ :=
  match parseFloat ((params.get "minScore").getD "") with
  | .finite value => max value 0
  | .infinite _ => 0
  | .nan => 0

/-- The conditions of a search; nothing where it has only stopwords. -/
def searchConditions (platform : Platform) (params : Params) (q : String) :
    Option (List ListCondition) := do
  let trust := (params.get "trust").getD ""
  let query ← ftsMatch platform q
  let overlap :=
    if trust = "" then []
    else [ListCondition.shared (.trustOverlap (trustValues trust))]
  return [.shared (.ftsMatch query), .totalScore (some (searchScore params))] ++
    overlap

/-- `ORDER BY s.total_score DESC, s.agent_id ASC`, of rows that have a
score. -/
def searchOrder (first second : AgentScores) : Ordering :=
  (descending (·.totalScore.getD 0) first second).then
    (ascending AgentScores.id first second)

def handleSearch (platform : Platform) (db : ListDb) (params : Params) :
    Except ApiError (List AgentScores) :=
  let q := (params.get "q").getD ""
  if isBlank q then
    .error { code := "MISSING_PARAM"
             message := "Query parameter \"q\" is required", status := 400 }
  else
    let limit := parseIntParam (params.get "limit") 20 1 100
    match searchConditions platform params q with
    | none => .ok []
    | some conditions =>
        let rows := db.rows.filter fun row =>
          conditions.all (ListCondition.holds platform db.toDiscoveryDb row)
        .ok ((ordered searchOrder rows).take limit)

/-! ## The order of a search -/

/-- The highest score first, then the lowest id. -/
def searchPlace (row : AgentScores) : ℚᵒᵈ ×ₗ Nat :=
  toLex (OrderDual.toDual (row.totalScore.getD 0), row.id)

theorem searchOrder_isLE (first second : AgentScores) :
    (searchOrder first second).isLE = true ↔
      searchPlace first ≤ searchPlace second :=
  then_isLE_iff (OrderDual.toDual (first.totalScore.getD 0))
    (OrderDual.toDual (second.totalScore.getD 0)) first.id second.id

theorem searchOrder_sorted (rows : List AgentScores) :
    (ordered searchOrder rows).Pairwise fun first second =>
      (searchOrder first second).isLE = true := by
  apply List.pairwise_mergeSort
  · intro first second third left right
    rw [searchOrder_isLE] at left right ⊢
    exact left.trans right
  · intro first second
    rw [Bool.or_eq_true, searchOrder_isLE, searchOrder_isLE]
    exact le_total _ _

/-- The order in which the rows came does not matter. -/
theorem ordered_searchOrder_perm {first second : List AgentScores}
    (perm : first.Perm second)
    (apart : ∀ row ∈ second, ∀ other ∈ second, row.id = other.id →
      row = other) :
    ordered searchOrder first = ordered searchOrder second := by
  have sorted : ∀ rows : List AgentScores,
      (ordered searchOrder rows).Perm rows :=
    fun rows => List.mergeSort_perm rows _
  refine List.Perm.eq_of_pairwise ?_ (searchOrder_sorted first)
    (searchOrder_sorted second)
    (((sorted first).trans perm).trans (sorted second).symm)
  intro row other isRow isOther before behind
  have here := perm.mem_iff.mp ((sorted first).mem_iff.mp isRow)
  have there := (sorted second).mem_iff.mp isOther
  rw [searchOrder_isLE] at before behind
  have places := le_antisymm before behind
  exact apart row here other there
    (congrArg (fun place => (ofLex place).2) places)

/-! ## Search and list -/

/-- The list is asked for what the search is asked for, in any order and with
pages of any size. -/
structure SameQuestion (params listParams : Params) (q : String) : Prop where
  asked : params.get "q" = some q
  search : listParams.get "search" = some q
  trust : listParams.get "trust" = params.get "trust"
  minScore : listParams.get "minScore" = params.get "minScore"
  flags : ∀ flag ∈ ["hasServices", "x402", "mpp"],
    listParams.get flag ≠ some "true"

/-- What a client makes of the agents it has received: those whose score is
not negative, the best first. -/
def ranked (received : List AgentScores) : List AgentScores :=
  ordered searchOrder (received.filter fun row =>
    row.totalScore.any fun score => 0 ≤ score)

section

variable {platform : Platform} {db : ListDb} {params listParams : Params}
  {q : String}

/-- Of a row that the list's score passes, the search asks only that it is not
negative. -/
theorem score_agrees (platform : Platform) (db : DiscoveryDb)
    (row : AgentScores)
    (bounded : parseFloat ((params.get "minScore").getD "") ≠
      .infinite false) :
    ListCondition.holds platform db row
        (.totalScore (some (searchScore params))) =
      ((row.totalScore.any fun score => 0 ≤ score) &&
        (scoreCondition params).all (ListCondition.holds platform db row)) := by
  unfold searchScore scoreCondition
  cases isScore : row.totalScore with
  | none => simp [ListCondition.holds, isScore]
  | some score =>
      cases isBound : parseFloat ((params.get "minScore").getD "") with
      | nan => simp [ListCondition.holds, isScore]
      | infinite negative =>
          cases negative with
          | false => exact absurd isBound bounded
          | true => simp [ListCondition.holds, isScore]
      | finite value =>
          dsimp only
          split_ifs with positive
          · have larger : max value 0 = value := max_eq_left positive.le
            rw [larger, Bool.eq_iff_iff]
            simp only [ListCondition.holds, isScore, List.all_cons,
              List.all_nil, Bool.and_true, Bool.and_eq_true,
              Option.any_some, decide_eq_true_eq]
            constructor
            · exact fun above => ⟨positive.le.trans above, above⟩
            · exact And.right
          · have zero : max value 0 = 0 := max_eq_right (not_lt.mp positive)
            simp [ListCondition.holds, isScore, zero]

theorem SameQuestion.listConditions (same : SameQuestion params listParams q)
    (text : isBlank q = false) : listConditions platform listParams =
      (ftsMatch platform q).map fun query =>
        ListCondition.shared (.ftsMatch query) ::
          ((if (params.get "trust").getD "" = "" then []
            else [ListCondition.shared (.trustOverlap
              (trustValues ((params.get "trust").getD "")))]) ++
            scoreCondition params) := by
  have some : q ≠ "" := by
    rintro rfl
    exact absurd text (by decide)
  have noFlag : ∀ flag ∈ ["hasServices", "x402", "mpp"], ∀ condition,
      flagCondition listParams flag condition = [] :=
    fun flag member condition => if_neg (same.flags flag member)
  have score : scoreCondition listParams = scoreCondition params := by
    unfold scoreCondition
    rw [same.minScore]
  unfold Web.listConditions
  rw [same.search, same.trust, score, noFlag "hasServices" (by simp),
    noFlag "x402" (by simp), noFlag "mpp" (by simp)]
  simp only [Option.getD_some, if_neg some]
  cases ftsMatch platform q with
  | none => rfl
  | some query => simp

/-- The rows of a search are those of the list with no negative score. -/
theorem SameQuestion.rows (same : SameQuestion params listParams q)
    (text : isBlank q = false)
    (bounded : parseFloat ((params.get "minScore").getD "") ≠
      .infinite false) :
    handleSearch platform db params = .ok ((ranked (listedAgents platform
      db.toDiscoveryDb listParams)).take (pageParams params).limit) := by
  unfold handleSearch searchConditions listedAgents
  rw [same.listConditions text, same.asked]
  simp only [Option.getD_some, text, Bool.false_eq_true, if_false]
  cases ftsMatch platform q with
  | none =>
      have none : ranked [] = [] := (List.mergeSort_perm [] _).eq_nil
      simp [none]
  | some query =>
      have agrees := fun row =>
        score_agrees platform db.toDiscoveryDb row bounded
      simp only [Option.map_some, Option.bind_eq_bind, Option.bind_some,
        Option.pure_def, ranked, List.filter_filter]
      congr 4
      funext row
      simp only [List.cons_append, List.nil_append, List.all_cons,
        List.all_append, agrees row]
      cases row.totalScore.any fun score => decide (0 ≤ score) with
      | false => simp
      | true => simp [Bool.and_comm, Bool.and_left_comm]

end

theorem rated_real : ∀ row ∈ [sampleScores 1 "t" (some 50),
    sampleScores 2 "t" (some (-1)), sampleScores 3 "t" (some 60)],
      ∀ score, row.totalScore = some score → IsDouble score := by
  intro row member score isScore
  simp only [List.mem_cons, List.not_mem_nil, or_false] at member
  rcases member with rfl | rfl | rfl
  · cases isScore
    decide +kernel
  · cases isScore
    decide +kernel
  · cases isScore
    decide +kernel

/-- Three agents of which the middle one has a negative score. -/
def ratedDb : ListDb :=
  { rows := [sampleScores 1 "t" (some 50), sampleScores 2 "t" (some (-1)),
      sampleScores 3 "t" (some 60)]
    agentsFts := fun _ _ => true
    identity := freshContract
    reputation := freshContract
    validation := freshContract
    unique := by decide
    registered := by decide
    real := rated_real
    feedback := []
    feedbackUnique := List.nodup_nil }

end Stellar8004.Web
