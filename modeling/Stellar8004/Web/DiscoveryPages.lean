import Stellar8004.Web.Discovery

/-!
# The pages of discovery

Order clause, condition and key of a sort describe one place of a row, so the
pages of a walk are the matching agents in order.
-/

namespace Stellar8004.Web

open Stellar8004.Indexer

/-! ## Places -/

/-- Two columns, the first deciding. -/
theorem then_isLE_iff {β γ : Type} [LinearOrder β] [LinearOrder γ]
    (left right : β) (before later : γ) :
    ((compare left right).then (compare before later)).isLE = true ↔
      toLex (left, before) ≤ toLex (right, later) := by
  rw [Ordering.isLE_then_iff_or, compare_lt_iff_lt, compare_eq_iff_eq,
    Prod.Lex.toLex_le_toLex]
  simp only [Ordering.isLE_iff_ne_gt, compare_gt_iff_gt, not_lt]

def sortKeyset (sort : SortName) : Keyset AgentScores Key :=
  { le := fun first second => ((SORTS sort).order first second).isLE
    after := (SORTS sort).after
    key := (SORTS sort).key }

/-- The highest score first, then the lowest id. -/
def scorePlace (row : AgentScores) : ℚᵒᵈ ×ₗ Nat :=
  toLex (OrderDual.toDual row.score, row.id)

/-- The latest first, then the highest id. -/
def newestPlace (row : AgentScores) : Stringᵒᵈ ×ₗ Natᵒᵈ :=
  toLex (OrderDual.toDual row.agent.createdAt, OrderDual.toDual row.id)

theorem score_le_iff (first second : AgentScores) :
    (sortKeyset .score).le first second = true ↔
      scorePlace first ≤ scorePlace second :=
  then_isLE_iff (OrderDual.toDual first.score) (OrderDual.toDual second.score)
    first.id second.id

theorem newest_le_iff (first second : AgentScores) :
    (sortKeyset .newest).le first second = true ↔
      newestPlace first ≤ newestPlace second :=
  then_isLE_iff (OrderDual.toDual first.agent.createdAt)
    (OrderDual.toDual second.agent.createdAt) (OrderDual.toDual first.id)
    (OrderDual.toDual second.id)

theorem id_le_iff (first second : AgentScores) :
    (sortKeyset .id).le first second = true ↔ first.id ≤ second.id := by
  change (compare first.id second.id).isLE = true ↔ _
  rw [Ordering.isLE_iff_ne_gt, compare_gt_iff_gt, not_lt]

theorem score_after_iff (row other : AgentScores) :
    (sortKeyset .score).after ((sortKeyset .score).key row) other = true ↔
      scorePlace row < scorePlace other := by
  unfold scorePlace
  rw [Prod.Lex.toLex_lt_toLex]
  simp only [sortKeyset, SORTS, KeyValue.less, Bool.or_eq_true,
    Bool.and_eq_true, decide_eq_true_eq, KeyValue.number.injEq, Int.ofNat_lt,
    OrderDual.toDual_lt_toDual, OrderDual.toDual_inj, eq_comm (a := row.score)]

theorem newest_after_iff (row other : AgentScores) :
    (sortKeyset .newest).after ((sortKeyset .newest).key row) other = true ↔
      newestPlace row < newestPlace other := by
  unfold newestPlace
  rw [Prod.Lex.toLex_lt_toLex]
  simp only [sortKeyset, SORTS, KeyValue.less, Bool.or_eq_true,
    Bool.and_eq_true, decide_eq_true_eq, KeyValue.text.injEq, Int.ofNat_lt,
    OrderDual.toDual_lt_toDual, OrderDual.toDual_inj,
    eq_comm (a := row.agent.createdAt)]

theorem id_after_iff (row other : AgentScores) :
    (sortKeyset .id).after ((sortKeyset .id).key row) other = true ↔
      row.id < other.id := by
  simp [sortKeyset, SORTS]

theorem sortKeyset_lawful (sort : SortName) : (sortKeyset sort).Lawful := by
  cases sort with
  | score => exact .of_place scorePlace score_le_iff score_after_iff
  | newest => exact .of_place newestPlace newest_le_iff newest_after_iff
  | id => exact .of_place AgentScores.id id_le_iff id_after_iff

theorem DiscoveryDb.eq_of_id (db : DiscoveryDb) {first second : AgentScores}
    (isFirst : first ∈ db.rows) (isSecond : second ∈ db.rows)
    (same : first.id = second.id) : first = second :=
  List.inj_on_of_nodup_map db.unique isFirst isSecond same

/-- The id is the last column of every sort, so no two agents share their
place. -/
theorem sortKeyset_separates (db : DiscoveryDb) (sort : SortName) :
    (sortKeyset sort).Separates db.rows := by
  have distinct : db.rows.Nodup := db.unique.of_map AgentScores.id
  cases sort with
  | score =>
      refine .of_place scorePlace score_le_iff distinct ?_
      intro first isFirst second isSecond same
      exact db.eq_of_id isFirst isSecond 
        (congrArg Prod.snd (toLex.injective same))
  | newest =>
      refine .of_place newestPlace newest_le_iff distinct ?_
      intro first isFirst second isSecond same
      exact db.eq_of_id isFirst isSecond 
        (OrderDual.toDual_inj.mp (congrArg Prod.snd (toLex.injective same)))
  | id =>
      refine .of_place AgentScores.id id_le_iff distinct ?_
      intro first isFirst second isSecond same
      exact db.eq_of_id isFirst isSecond same

/-! ## Pages -/

/-- The agents that the conditions keep. -/
def matchingAgents (platform : Platform) (db : DiscoveryDb)
    (conditions : List Condition) : List AgentScores :=
  db.rows.filter fun row => conditions.all (Condition.holds platform db row)

/-- A page is one of the sort's keyset over the matching agents. -/
theorem discoveryPage_eq (platform : Platform) (db : DiscoveryDb)
    (conditions : List Condition) (sort : SortName) :
    discoveryPage platform db conditions sort =
      (sortKeyset sort).page (matchingAgents platform db conditions) := by
  funext start limit
  have kept : (db.rows.filter fun row =>
      (conditions ++ (start.map (Condition.after sort)).toList).all
        (Condition.holds platform db row)) =
      (sortKeyset sort).remaining (matchingAgents platform db conditions)
        start := by
    cases start with
    | none =>
        simp only [Option.map_none, Option.toList_none, List.append_nil]
        rfl
    | some key =>
        simp only [Option.map_some, Option.toList_some, List.all_append,
          List.all_cons, List.all_nil, Bool.and_true, Keyset.remaining,
          matchingAgents, List.filter_filter]
        congr 1
        funext row
        exact Bool.and_comm _ _
  unfold discoveryPage selectAgents Keyset.page
  rw [kept]
  rfl

/-- The answer of the handler has the page of its request. -/
theorem handleDiscovery_page {platform : Platform} {network : String}
    {db : DiscoveryDb} {params : Params} {request : DiscoveryRequest}
    (accepted : readRequest platform network params = .ok request)
    {start : Option Key}
    (starts : startKey platform request (params.get "cursor") = .ok start)
    {body : DiscoveryBody}
    (answered : handleDiscovery platform network db params = .success body) :
    body.items = (discoveryPage platform db request.conditions request.sort
        start request.limit).items ∧
      body.hasMore = (discoveryPage platform db request.conditions
        request.sort start request.limit).hasMore ∧
      body.nextCursor.isSome = (discoveryPage platform db request.conditions
        request.sort start request.limit).next.isSome := by
  unfold handleDiscovery at answered
  simp only [accepted, starts] at answered
  split at answered
  · cases answered
  · cases isNext : (discoveryPage platform db request.conditions request.sort
        start request.limit).next with
    | none =>
        simp only [isNext, Outcome.success.injEq] at answered
        subst answered
        exact ⟨rfl, rfl, rfl⟩
    | some key =>
        simp only [isNext] at answered
        split at answered
        · cases answered
        · rw [Outcome.success.injEq] at answered
          subst answered
          exact ⟨rfl, rfl, rfl⟩

/-- Turning the two rows around turns the order clause around. -/
theorem order_swap (sort : SortName) (first second : AgentScores) :
    ((SORTS sort).order first second).swap = (SORTS sort).order second first := by
  cases sort with
  | score =>
      simp only [SORTS, ascending, descending, Ordering.swap_then,
        ← Std.OrientedOrd.eq_swap]
  | newest =>
      simp only [SORTS, descending, Ordering.swap_then,
        ← Std.OrientedOrd.eq_swap]
  | id => exact Std.OrientedOrd.eq_swap.symm

theorem order_lt_of_not_isLE {sort : SortName} {first second : AgentScores}
    (strict : (sortKeyset sort).le second first = false) :
    (SORTS sort).order first second = .lt := by
  have isGreater : (SORTS sort).order second first = .gt := by
    cases isOrder : (SORTS sort).order second first with
    | gt => rfl
    | _ =>
        simp only [sortKeyset, isOrder] at strict
        cases strict
  rw [← order_swap, isGreater]
  rfl

/-- Whatever the limits of its pages, a walk gives the matching agents in the
order of the sort, each once.  The answers to requests that differ in cursor
and limit only are its pages. -/
theorem discovery_walk_visits {platform : Platform} {network : String}
    {db : DiscoveryDb} {params : Params} {request : DiscoveryRequest}
    (accepted : readRequest platform network params = .ok request)
    {limits : Nat → Nat}
    (allowed : ∀ count, 1 ≤ limits count ∧ limits count ≤ 100) :
    Keyset.Visits
      (discoveryPage platform db request.conditions request.sort)
      (fun first second => (SORTS request.sort).order first second = .lt)
      (· ∈ matchingAgents platform db request.conditions) limits ∧
    ∀ other later start body, params.Agree other →
      readRequest platform network other = .ok later →
      startKey platform later (other.get "cursor") = .ok start →
      handleDiscovery platform network db other = .success body →
        body.items = (discoveryPage platform db request.conditions
            request.sort start later.limit).items ∧
          body.hasMore = (discoveryPage platform db request.conditions
            request.sort start later.limit).hasMore ∧
          body.nextCursor.isSome = (discoveryPage platform db
            request.conditions request.sort start later.limit).next.isSome := by
  have separates : (sortKeyset request.sort).Separates
      (matchingAgents platform db request.conditions) :=
    (sortKeyset_separates db request.sort).filter _
  have visits := (sortKeyset_lawful request.sort).visits separates
    (fun count => (allowed count).1)
  constructor
  · rw [discoveryPage_eq]
    refine ⟨visits.ends, fun count ended => ?_, visits.next⟩
    obtain ⟨sorted, once, exactly⟩ := visits.exactly count ended
    exact ⟨sorted.imp order_lt_of_not_isLE, once, exactly⟩
  · intro other later start body agree again starts answered
    obtain ⟨sort, conditions⟩ := (readRequest_ok_iff.mp accepted).agree
      (readRequest_ok_iff.mp again) agree
    rw [← sort, ← conditions]
    exact handleDiscovery_page again starts answered

/-- A platform that knows the numbers without a fraction. -/
def plainPlatform : Platform :=
  { normalize := id
    isWordChar := Char.isAlphanum
    toLowerCase := String.toLower
    numberText := fun value => toString value.num
    numberValue := fun text => ((integerText text.toList).getD 0 : Int)
    parse := fun _ => none
    jsonEach := fun _ => [] }

def sampleScores (id : Nat) (createdAt : String) (totalScore : Option ℚ) :
    AgentScores :=
  { id, totalScore, agent := Tables.newAgent "G" "u" true createdAt 1 "tx" "t" }

def freshContract : ContractStatus :=
  { lastLedger := 500, updatedAt := none, stale := false }

theorem tied_real : ∀ row ∈ [sampleScores 0 "t" none,
    sampleScores 1 "t" (some 50), sampleScores 2 "t" none],
      ∀ score, row.totalScore = some score → IsDouble score := by
  intro row member score isScore
  simp only [List.mem_cons, List.not_mem_nil, or_false] at member
  rcases member with rfl | rfl | rfl
  · cases isScore
  · cases isScore
    decide +kernel
  · cases isScore

/-- Three agents, two of them with the same score. -/
def tiedDb : DiscoveryDb :=
  { rows := [sampleScores 0 "t" none, sampleScores 1 "t" (some 50),
      sampleScores 2 "t" none]
    agentsFts := fun _ _ => false
    identity := freshContract
    reputation := freshContract
    validation := freshContract
    unique := by decide
    registered := by decide
    real := tied_real }

theorem discovery_walk_visits_tied : ∃ request,
    readRequest plainPlatform "mainnet"
      [("network", "mainnet"), ("limit", "1")] = .ok request ∧
    Keyset.Visits
      (discoveryPage plainPlatform tiedDb request.conditions request.sort)
      (fun first second => (SORTS request.sort).order first second = .lt)
      (· ∈ matchingAgents plainPlatform tiedDb request.conditions)
      (fun _ => 1) := by
  have accepted : readRequest plainPlatform "mainnet"
      [("network", "mainnet"), ("limit", "1")] =
        .ok { sort := .score, limit := 1, conditions := []
              query := cursorQuery
                [("network", "mainnet"), ("limit", "1")] } := rfl
  exact ⟨_, accepted,
    (discovery_walk_visits accepted fun _ => by decide).1⟩

end Stellar8004.Web
