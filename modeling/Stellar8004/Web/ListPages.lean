import Stellar8004.Library.NumberedPages
import Stellar8004.Web.Cursor
import Stellar8004.Web.DiscoveryPages

/-!
# Lists by page number

The list endpoints of `apps/web/src/lib/server/api/handlers.ts`: agents,
the feedback of an agent and the agents of an account.  The items of a page
are the rows it was built from, feedback without its responses.
-/

namespace Stellar8004.Web

open Stellar8004.Indexer

/-! ## Numbers in parameters -/

def leadingDigits (text : List Char) : Option Nat :=
  let digits := text.takeWhile Char.isDigit
  if digits = [] then none else some (digitsValue digits)

/-- `parseInt(text, 10)`; nothing stands for `NaN`.  A double holds it up to
rounding, which no bound below and no id can see. -/
def parseInt (text : String) : Option Int :=
  match text.toList.dropWhile isWhiteSpace with
  | '-' :: rest => (leadingDigits rest).map fun value : Nat => -(value : Int)
  | '+' :: rest => (leadingDigits rest).map fun value : Nat => (value : Int)
  | rest => (leadingDigits rest).map fun value : Nat => (value : Int)

inductive ParsedFloat where
  | nan
  | infinite (negative : Bool)
  | finite (value : ℚ)

/-- What is rounded to 53 bits as a double: infinite from `2 ^ 1024` on. -/
def overflowing (rounded : ℚ) : ParsedFloat :=
  if 2 ^ 1024 ≤ |rounded| then .infinite (rounded < 0) else .finite rounded

/-- `parseFloat(text)`: the longest beginning that is a decimal literal. -/
def parseFloat (text : String) : ParsedFloat :=
  let text := text.toList.dropWhile isWhiteSpace
  match text.inits.reverse.findSome? signedDecimal with
  | some value => overflowing (roundDouble value)
  | none =>
      if "-Infinity".toList <+: text then .infinite true
      else if "Infinity".toList <+: text ∨ "+Infinity".toList <+: text then
        .infinite false
      else .nan

/-! ## `response.ts` -/

structure ListPage (α : Type) extends NumberedPage α where
  page : Nat
  limit : Nat
  total : Nat

/-- A page with its `paginate(total, page, limit)`. -/
def paginate {α : Type} (items : List α) (total page limit : Nat) :
    ListPage α :=
  { items, page, limit, total, hasMore := page * limit < total }

def parseIntParam (value : Option String) (defaultVal low high : Nat) : Nat :=
  match value with
  | none => defaultVal
  | some text =>
      if text = "" then defaultVal
      else
        match parseInt text with
        | none => defaultVal
        | some n => (max (low : Int) (min (high : Int) n)).toNat

/-! ## Tables -/

/-- A row of `feedback` with its `id`. -/
structure FeedbackItem where
  id : Nat
  key : FeedbackKey
  row : FeedbackRow

structure ListDb extends DiscoveryDb where
  feedback : List FeedbackItem
  feedbackUnique : (feedback.map FeedbackItem.id).Nodup

/-- A condition of the WHERE clause of `/agents`: one shared with the
discovery, or a lowest `total_score`, nothing being infinity. -/
inductive ListCondition where
  | shared (condition : Condition)
  | totalScore (bound : Option ℚ)

def ListCondition.holds (platform : Platform) (db : DiscoveryDb)
    (row : AgentScores) : ListCondition → Bool
  | shared condition => condition.holds platform db row
  | totalScore none => false
  | totalScore (some bound) =>
      match row.totalScore with
      | none => false
      | some score => bound ≤ score

/-! ## Orders -/

inductive Direction where
  | ascending
  | descending

/-- `ORDER BY column direction, id direction`. -/
def columnOrder {α β : Type} [Ord β] (column : α → β) (id : α → Nat)
    (direction : Direction) (first second : α) : Ordering :=
  match direction with
  | .ascending =>
      (ascending column first second).then (ascending id first second)
  | .descending =>
      (descending column first second).then (descending id first second)

def orderBy (params : Params) : AgentScores → AgentScores → Ordering :=
  let direction :=
    if params.get "sortOrder" = some "asc" then Direction.ascending
    else Direction.descending
  if params.get "sortBy" = some "id" then
    columnOrder AgentScores.id AgentScores.id direction
  else columnOrder (·.agent.createdAt) AgentScores.id direction

/-- Newest first. -/
def feedbackOrder : FeedbackItem → FeedbackItem → Ordering :=
  columnOrder (·.row.createdAt) FeedbackItem.id .descending

/-- The rows as a SELECT with an ORDER BY clause gives them. -/
def ordered {α : Type} (order : α → α → Ordering) (rows : List α) : List α :=
  rows.mergeSort fun first second => (order first second).isLE

/-! ## `handlers.ts` -/

structure PageParams where
  page : Nat
  limit : Nat
  offset : Nat

def pageParams (params : Params) : PageParams :=
  let page := parseIntParam (params.get "page") 1 1 10000
  let limit := parseIntParam (params.get "limit") 20 1 100
  { page, limit, offset := (page - 1) * limit }

/-- The two statements of a list: the count, and the page with LIMIT and
OFFSET. -/
def listPage {α : Type} (order : α → α → Ordering) (rows : List α)
    (params : Params) : ListPage α :=
  let { page, limit, offset } := pageParams params
  paginate (((ordered order rows).drop offset).take limit) rows.length page
    limit

def flagCondition (params : Params) (name : String) (condition : Condition) :
    List ListCondition :=
  if params.get name = some "true" then [.shared condition] else []

def scoreCondition (params : Params) : List ListCondition :=
  match parseFloat ((params.get "minScore").getD "") with
  | .finite value => if 0 < value then [.totalScore (some value)] else []
  | .infinite false => [.totalScore none]
  | .infinite true => []
  | .nan => []

/-- The conditions of `/agents`; nothing where the search has only
stopwords. -/
def listConditions (platform : Platform) (params : Params) :
    Option (List ListCondition) := do
  let search := (params.get "search").getD ""
  let trust := (params.get "trust").getD ""
  let matching ←
    if search = "" then some []
    else (Web.ftsMatch platform search).map fun query =>
      [ListCondition.shared (.ftsMatch query)]
  let overlap :=
    if trust = "" then []
    else [ListCondition.shared (.trustOverlap (trustValues trust))]
  return matching ++ overlap ++ scoreCondition params ++
    flagCondition params "hasServices" (.hasServices true) ++
    flagCondition params "x402" (.x402 true) ++
    flagCondition params "mpp" (.mpp true)

/-- The agents a list shows. -/
def listedAgents (platform : Platform) (db : DiscoveryDb) (params : Params) :
    List AgentScores :=
  match listConditions platform params with
  | none => []
  | some conditions =>
      db.rows.filter fun row =>
        conditions.all (ListCondition.holds platform db row)

def handleAgentsList (platform : Platform) (db : ListDb) (params : Params) :
    ListPage AgentScores :=
  match listConditions platform params with
  | none =>
      let { page, limit, .. } := pageParams params
      paginate [] 0 page limit
  | some conditions =>
      let rows := db.rows.filter fun row =>
        conditions.all (ListCondition.holds platform db.toDiscoveryDb row)
      listPage (orderBy params) rows params

/-- The feedback a list shows. -/
def listedFeedback (db : ListDb) (agentId : Int) (params : Params) :
    List FeedbackItem :=
  let tag := (params.get "tag").getD ""
  db.feedback.filter fun item =>
    (item.key.agentId : Int) = agentId ∧
      (tag = "" ∨ item.row.tag1 = some tag)

def handleAgentFeedback (db : ListDb) (id : String) (params : Params) :
    Except ApiError (ListPage FeedbackItem) :=
  match parseInt id with
  | none =>
      .error { code := "INVALID_ID", message := "Agent ID must be a number"
               status := 400 }
  | some agentId =>
      .ok (listPage feedbackOrder (listedFeedback db agentId params) params)

def ownedAgents (db : DiscoveryDb) (address : String) : List AgentScores :=
  db.rows.filter fun row => row.agent.owner = address

/-- The SDK's check of an address is given. -/
def handleAccounts (isValidStellarAddress : String → Bool) (db : ListDb)
    (address : String) (params : Params) :
    Except ApiError (ListPage AgentScores) :=
  if isValidStellarAddress address then
    .ok (listPage (orderBy params) (ownedAgents db.toDiscoveryDb address)
      params)
  else
    .error { code := "INVALID_ADDRESS", message := "Invalid Stellar address"
             status := 400 }

/-! ## Numbers of pages -/

/-- The query of a client for a page. -/
def withPage (params : Params) (page : Nat) : Params :=
  ("page", toString page) :: params

theorem parseInt_toString (value : Nat) :
    parseInt (toString value) = some (value : Int) := by
  have isText : (toString value).toList = Nat.toDigits 10 value :=
    Nat.toList_repr
  have digits : ∀ char ∈ Nat.toDigits 10 value, char.isDigit = true :=
    fun char member => Nat.isDigit_of_mem_toDigits (by omega) (by omega) member
  have same : digitsValue (Nat.toDigits 10 value) = value :=
    Nat.ofDigitChars_ten_toDigits
  unfold parseInt
  rw [isText]
  cases isDigits : Nat.toDigits 10 value with
  | nil => exact absurd isDigits Nat.toDigits_ne_nil
  | cons first rest =>
      have isDigit : first.isDigit = true :=
        digits first (isDigits ▸ List.mem_cons_self)
      have bounds : 48 ≤ first.toNat ∧ first.toNat ≤ 57 :=
        Char.isDigit_iff_toNat.mp isDigit
      have notSpace : isWhiteSpace first = false := by
        simp only [isWhiteSpace, Bool.or_eq_false_iff, Bool.and_eq_false_iff,
          decide_eq_false_iff_not]
        omega
      have kept : (first :: rest).takeWhile Char.isDigit = first :: rest := by
        rw [List.takeWhile_eq_self_iff, ← isDigits]
        exact digits
      obtain ⟨-, notMinus, notPlus⟩ := digit_not_space isDigit
      rw [List.dropWhile_cons_of_neg (by rw [notSpace]; exact Bool.false_ne_true)]
      split
      · rename_i other isList
        exact absurd (List.cons.inj isList).1 notMinus
      · rename_i other isList
        exact absurd (List.cons.inj isList).1 notPlus
      · rw [leadingDigits, kept, if_neg (List.cons_ne_nil _ _), ← isDigits, same]
        rfl

theorem page_withPage (params : Params) {page : Nat} (first : 1 ≤ page) :
    (pageParams (withPage params page)).page = min 10000 page := by
  have isPage : (withPage params page).get "page" = some (toString page) := rfl
  have some : toString page ≠ "" := by
    intro none
    have isNil := congrArg String.toList none
    exact Nat.toDigits_ne_nil (Nat.toList_repr.symm.trans isNil)
  unfold pageParams parseIntParam
  rw [isPage]
  simp only [if_neg some, parseInt_toString]
  omega

theorem get_withPage (params : Params) (page : Nat) {name : String}
    (other : name ≠ "page") : (withPage params page).get name =
      params.get name := by
  unfold Params.get withPage
  rw [List.find?_cons_of_neg]
  simpa using Ne.symm other

theorem limit_withPage (params : Params) (page : Nat) :
    (pageParams (withPage params page)).limit = (pageParams params).limit := by
  unfold pageParams
  rw [get_withPage params page (by decide : "limit" ≠ "page")]

theorem offset_eq (params : Params) : (pageParams params).offset =
    ((pageParams params).page - 1) * (pageParams params).limit := rfl

/-! ## Orders by a column and the id -/

section

variable {α β : Type} [LinearOrder β] {column : α → β} {id : α → Nat}
  {direction : Direction}

/-- Where a row stands. -/
def place (column : α → β) (id : α → Nat) (row : α) : β ×ₗ Nat :=
  toLex (column row, id row)

theorem columnOrder_isLE (first second : α) :
    (columnOrder column id direction first second).isLE = true ↔
      match direction with
      | .ascending => place column id first ≤ place column id second
      | .descending => place column id second ≤ place column id first := by
  cases direction with
  | ascending => exact then_isLE_iff _ _ _ _
  | descending => exact then_isLE_iff _ _ _ _

/-- Rows of different ids are never equal in the order. -/
theorem columnOrder_lt {first second : α}
    (before : (columnOrder column id direction first second).isLE = true)
    (different : id first ≠ id second) :
    columnOrder column id direction first second = .lt := by
  cases isOrder : columnOrder column id direction first second with
  | lt => rfl
  | gt =>
      rw [isOrder] at before
      cases before
  | eq =>
      cases direction with
      | ascending =>
          have same := (Ordering.then_eq_eq.mp isOrder).2
          exact absurd (compare_eq_iff_eq.mp same) different
      | descending =>
          have same := (Ordering.then_eq_eq.mp isOrder).2
          exact absurd (compare_eq_iff_eq.mp same).symm different

theorem columnOrder_trans (first second third : α)
    (left : (columnOrder column id direction first second).isLE = true)
    (right : (columnOrder column id direction second third).isLE = true) :
    (columnOrder column id direction first third).isLE = true := by
  rw [columnOrder_isLE] at left right ⊢
  cases direction with
  | ascending => exact le_trans left right
  | descending => exact le_trans right left

theorem columnOrder_total (first second : α) :
    ((columnOrder column id direction first second).isLE ||
      (columnOrder column id direction second first).isLE) = true := by
  rw [Bool.or_eq_true, columnOrder_isLE, columnOrder_isLE]
  cases direction with
  | ascending => exact le_total _ _
  | descending => exact le_total _ _

/-- Each row once, and every row before the ones behind it. -/
def InOrder (order : α → α → Ordering) (rows listed : List α) : Prop :=
  listed.Perm rows ∧
    listed.Pairwise fun first second => order first second = .lt

theorem ordered_inOrder {rows : List α} (unique : (rows.map id).Nodup) :
    InOrder (columnOrder column id direction) rows
      (ordered (columnOrder column id direction) rows) := by
  have perm : (ordered (columnOrder column id direction) rows).Perm rows :=
    List.mergeSort_perm rows _
  have sorted : (ordered (columnOrder column id direction) rows).Pairwise
      fun first second =>
        (columnOrder column id direction first second).isLE = true :=
    List.pairwise_mergeSort columnOrder_trans columnOrder_total rows
  have distinct : (ordered (columnOrder column id direction) rows).Pairwise
      fun first second => id first ≠ id second :=
    List.pairwise_map.mp ((perm.map id).nodup_iff.mpr unique)
  exact ⟨perm, (sorted.and distinct).imp fun both =>
    columnOrder_lt both.1 both.2⟩

end

theorem orderBy_inOrder (params : Params) {rows : List AgentScores}
    (unique : (rows.map AgentScores.id).Nodup) :
    InOrder (orderBy params) rows (ordered (orderBy params) rows) := by
  unfold orderBy
  split
  · split
    · exact ordered_inOrder unique
    · exact ordered_inOrder unique
  · split
    · exact ordered_inOrder unique
    · exact ordered_inOrder unique

/-! ## Walks -/

/-- The pages of a list are slices of it, up to the last page that can be
asked for. -/
theorem listPage_serves {α : Type} (order : α → α → Ordering) (rows : List α)
    (params : Params) :
    ServesPages (ordered order rows) (pageParams params).limit 10000
      fun page => (listPage order rows (withPage params page)).toNumberedPage := by
  have isPage : ∀ page, page < 10000 →
      (pageParams (withPage params (page + 1))).page = page + 1 := by
    intro page inside
    rw [page_withPage params (by omega)]
    omega
  constructor
  · intro page inside
    change ((ordered order rows).drop
      (pageParams (withPage params (page + 1))).offset).take
        (pageParams (withPage params (page + 1))).limit = _
    rw [offset_eq, isPage page inside, limit_withPage, Nat.add_sub_cancel]
  · intro page inside
    have length : (ordered order rows).length = rows.length :=
      (List.mergeSort_perm rows _).length_eq
    change decide ((pageParams (withPage params (page + 1))).page *
      (pageParams (withPage params (page + 1))).limit < rows.length) = true ↔ _
    rw [isPage page inside, limit_withPage, length, decide_eq_true_eq]

/-- A walk from the first page ends and has received each row once and in
order. -/
def WalkComplete {α : Type} (order : α → α → Ordering) (rows : List α)
    (fetch : Nat → NumberedPage α) : Prop :=
  ∃ requests received, numberedWalk fetch requests 1 = some received ∧
    InOrder order rows received

/-- The pages that can be asked for are the beginning of the matching rows in
order; where these are no more, a walk is complete. -/
structure Walkable {α : Type} (order : α → α → Ordering) (rows : List α)
    (limit : Nat) (fetch : Nat → NumberedPage α) : Prop where
  beginning : ∃ listed, InOrder order rows listed ∧
    ∀ pages ≤ 10000,
      (List.range pages).flatMap (fun page => (fetch (page + 1)).items) =
        listed.take (pages * limit)
  complete : rows.length ≤ 10000 * limit → WalkComplete order rows fetch

theorem listPage_walkable {α : Type} {order : α → α → Ordering}
    {rows : List α} {params : Params}
    (inOrder : InOrder order rows (ordered order rows)) :
    Walkable order rows (pageParams params).limit fun page =>
      (listPage order rows (withPage params page)).toNumberedPage := by
  have serves := listPage_serves order rows params
  constructor
  · exact ⟨_, inOrder, serves.beginning⟩
  · intro few
    rw [← inOrder.1.length_eq] at few
    obtain ⟨requests, walked⟩ := serves.walk (by omega) few
    exact ⟨requests, _, walked, inOrder⟩

/-- The filters of a list do not depend on the page. -/
theorem listConditions_withPage (platform : Platform) (params : Params)
    (page : Nat) : listConditions platform (withPage params page) =
      listConditions platform params := by
  unfold listConditions scoreCondition flagCondition
  rw [get_withPage params page (by decide : "search" ≠ "page"),
    get_withPage params page (by decide : "trust" ≠ "page"),
    get_withPage params page (by decide : "minScore" ≠ "page"),
    get_withPage params page (by decide : "hasServices" ≠ "page"),
    get_withPage params page (by decide : "x402" ≠ "page"),
    get_withPage params page (by decide : "mpp" ≠ "page")]

theorem orderBy_withPage (params : Params) (page : Nat) :
    orderBy (withPage params page) = orderBy params := by
  unfold orderBy
  rw [get_withPage params page (by decide : "sortOrder" ≠ "page"),
    get_withPage params page (by decide : "sortBy" ≠ "page")]

theorem listedFeedback_withPage (db : ListDb) (agentId : Int)
    (params : Params) (page : Nat) :
    listedFeedback db agentId (withPage params page) =
      listedFeedback db agentId params := by
  unfold listedFeedback
  rw [get_withPage params page (by decide : "tag" ≠ "page")]

/-- A search for stopwords is a list without rows. -/
theorem handleAgentsList_eq (platform : Platform) (db : ListDb)
    (params : Params) : handleAgentsList platform db params =
      listPage (orderBy params)
        (listedAgents platform db.toDiscoveryDb params) params := by
  unfold handleAgentsList listedAgents
  cases listConditions platform params with
  | none =>
      have none : ordered (orderBy params) [] = [] :=
        (List.mergeSort_perm [] _).eq_nil
      simp only [listPage, none, List.drop_nil, List.take_nil, List.length_nil]
  | some conditions => rfl

theorem listedAgents_unique (platform : Platform) (db : DiscoveryDb)
    (params : Params) :
    ((listedAgents platform db params).map AgentScores.id).Nodup := by
  unfold listedAgents
  split
  · exact List.nodup_nil
  · exact db.unique.sublist (List.filter_sublist.map _)

theorem agents_walkable (platform : Platform) (db : ListDb)
    (params : Params) :
    Walkable (orderBy params) (listedAgents platform db.toDiscoveryDb params)
      (pageParams params).limit fun page =>
        (handleAgentsList platform db (withPage params page)).toNumberedPage := by
  have answers : ∀ page, handleAgentsList platform db (withPage params page) =
      listPage (orderBy params) (listedAgents platform db.toDiscoveryDb params)
        (withPage params page) := by
    intro page
    rw [handleAgentsList_eq, orderBy_withPage, listedAgents, listedAgents,
      listConditions_withPage]
  simp only [answers]
  exact listPage_walkable
    (orderBy_inOrder params (listedAgents_unique platform _ params))

theorem feedback_walkable (db : ListDb) (params : Params) {id : String}
    {agentId : Int} (isId : parseInt id = some agentId) :
    ∃ fetch : Nat → ListPage FeedbackItem,
      (∀ page, handleAgentFeedback db id (withPage params page) =
        .ok (fetch page)) ∧
      Walkable feedbackOrder (listedFeedback db agentId params)
        (pageParams params).limit fun page => (fetch page).toNumberedPage := by
  have unique : ((listedFeedback db agentId params).map
      FeedbackItem.id).Nodup :=
    db.feedbackUnique.sublist (List.filter_sublist.map _)
  refine ⟨fun page => listPage feedbackOrder (listedFeedback db agentId params)
    (withPage params page), ?_, listPage_walkable (ordered_inOrder unique)⟩
  intro page
  simp only [handleAgentFeedback, isId, listedFeedback_withPage]

theorem accounts_walkable (isValidStellarAddress : String → Bool)
    (db : ListDb) (params : Params) {address : String}
    (valid : isValidStellarAddress address = true) :
    ∃ fetch : Nat → ListPage AgentScores,
      (∀ page, handleAccounts isValidStellarAddress db address
        (withPage params page) = .ok (fetch page)) ∧
      Walkable (orderBy params) (ownedAgents db.toDiscoveryDb address)
        (pageParams params).limit fun page => (fetch page).toNumberedPage := by
  have unique : ((ownedAgents db.toDiscoveryDb address).map
      AgentScores.id).Nodup :=
    db.unique.sublist (List.filter_sublist.map _)
  refine ⟨fun page => listPage (orderBy params)
    (ownedAgents db.toDiscoveryDb address) (withPage params page), ?_,
    listPage_walkable (orderBy_inOrder params unique)⟩
  intro page
  simp only [handleAccounts, valid, if_true, orderBy_withPage]

theorem list_walks (platform : Platform)
    (isValidStellarAddress : String → Bool) (db : ListDb) (params : Params) :
    Walkable (orderBy params) (listedAgents platform db.toDiscoveryDb params)
        (pageParams params).limit
        (fun page =>
          (handleAgentsList platform db (withPage params page)).toNumberedPage) ∧
      (∀ id agentId, parseInt id = some agentId →
        ∃ fetch : Nat → ListPage FeedbackItem,
          (∀ page, handleAgentFeedback db id (withPage params page) =
            .ok (fetch page)) ∧
          Walkable feedbackOrder (listedFeedback db agentId params)
            (pageParams params).limit fun page => (fetch page).toNumberedPage) ∧
      ∀ address, isValidStellarAddress address = true →
        ∃ fetch : Nat → ListPage AgentScores,
          (∀ page, handleAccounts isValidStellarAddress db address
            (withPage params page) = .ok (fetch page)) ∧
          Walkable (orderBy params) (ownedAgents db.toDiscoveryDb address)
            (pageParams params).limit fun page =>
              (fetch page).toNumberedPage := by
  refine ⟨agents_walkable platform db params, ?_, ?_⟩
  · intro id agentId isId
    exact feedback_walkable db params isId
  · intro address valid
    exact accounts_walkable isValidStellarAddress db params valid

/-! ## More rows than pages -/

/-- So many agents of one moment. -/
def manyAgents (count : Nat) (few : count ≤ 2 ^ 32) : ListDb :=
  { rows := (List.range count).map fun id => sampleScores id "t" none
    agentsFts := fun _ _ => false
    identity := freshContract
    reputation := freshContract
    validation := freshContract
    unique := by
      rw [List.map_map]
      exact List.Nodup.map (fun _ _ same => same) List.nodup_range
    registered := by
      intro row member
      obtain ⟨id, isId, rfl⟩ := List.mem_map.mp member
      exact Nat.lt_of_lt_of_le (List.mem_range.mp isId) few
    real := by
      intro row member score isScore
      obtain ⟨id, -, rfl⟩ := List.mem_map.mp member
      cases isScore
    feedback := []
    feedbackUnique := List.nodup_nil }

/-- No parameter but the limit filters nothing. -/
theorem length_manyAgents (count : Nat) (few : count ≤ 2 ^ 32) :
    (listedAgents plainPlatform (manyAgents count few).toDiscoveryDb
      [("limit", "1")]).length = count := by
  have none : listConditions plainPlatform [("limit", "1")] = some [] := rfl
  rw [listedAgents, none]
  change (((List.range count).map fun id => sampleScores id "t" .none).filter
    fun _ => true).length = count
  rw [List.filter_true, List.length_map, List.length_range]

theorem hasMore_listPage {α : Type} (order : α → α → Ordering)
    (rows : List α) (params : Params) :
    (listPage order rows params).hasMore =
      decide ((pageParams params).page * (pageParams params).limit <
        rows.length) := rfl

/-- The client goes on asking and is given the last page again. -/
theorem list_walk_unfinished (count : Nat) (few : count ≤ 2 ^ 32)
    (many : 10000 < count) (requests : Nat) :
    numberedWalk (fun page =>
      (handleAgentsList plainPlatform (manyAgents count few)
        (withPage [("limit", "1")] page)).toNumberedPage) requests 1 = none := by
  apply numberedWalk_eq_none
  intro page
  have isPage := page_withPage [("limit", "1")] (by omega : 1 ≤ page + 1)
  have isLimit : (pageParams (withPage [("limit", "1")] (page + 1))).limit =
      1 := by
    rw [limit_withPage]
    decide
  have isTotal := length_manyAgents count few
  rw [listedAgents, ← listConditions_withPage _ _ (page + 1),
    ← listedAgents] at isTotal
  rw [handleAgentsList_eq, hasMore_listPage, isPage, isLimit, isTotal,
    decide_eq_true_eq]
  omega

theorem list_walk_endless :
    ¬ ∀ (platform : Platform) (db : ListDb) (params : Params),
      WalkComplete (orderBy params)
        (listedAgents platform db.toDiscoveryDb params) fun page =>
          (handleAgentsList platform db
            (withPage params page)).toNumberedPage := by
  intro complete
  have few : 10001 ≤ 2 ^ 32 := by decide
  obtain ⟨requests, received, walked, -⟩ :=
    complete plainPlatform (manyAgents 10001 few) [("limit", "1")]
  have unfinished := list_walk_unfinished 10001 few (by decide) requests
  exact Option.some_ne_none _ (walked.symm.trans unfinished)

/-- An entry of the first client about the second agent. -/
def taggedFeedback (id : Nat) (tag1 : Option String) : FeedbackItem :=
  { id
    key := { agentId := 1, clientAddress := "G", feedbackIndex := id }
    row := { value := "5", valueDecimals := 0, tag1, tag2 := none
             endpoint := none, feedbackUri := none, feedbackHash := none
             isRevoked := false, createdAt := "t", createdLedger := 5
             txHash := "", revokedLedger := none } }

/-- Three agents, the second with three entries of which two are tagged. -/
def taggedDb : ListDb :=
  { manyAgents 3 (by decide) with
    feedback := [taggedFeedback 1 (some "t"), taggedFeedback 2 none,
      taggedFeedback 3 (some "t")]
    feedbackUnique := by decide }

/-- Some feedback of an agent and an agent of an account. -/
theorem list_walks_many : parseInt "1" = some 1 ∧
    (∃ fetch : Nat → ListPage FeedbackItem,
      (∀ page, handleAgentFeedback taggedDb "1"
        (withPage [("tag", "t")] page) = .ok (fetch page)) ∧
      (listedFeedback taggedDb 1 [("tag", "t")]).length = 2 ∧
      Walkable feedbackOrder (listedFeedback taggedDb 1 [("tag", "t")])
        (pageParams [("tag", "t")]).limit fun page =>
          (fetch page).toNumberedPage) ∧
    ∃ fetch : Nat → ListPage AgentScores,
      (∀ page, handleAccounts (fun _ => true) taggedDb "G"
        (withPage [("tag", "t")] page) = .ok (fetch page)) ∧
      Walkable (orderBy [("tag", "t")])
        (ownedAgents taggedDb.toDiscoveryDb "G")
        (pageParams [("tag", "t")]).limit fun page =>
          (fetch page).toNumberedPage := by
  have isId : parseInt "1" = some 1 := by decide
  obtain ⟨-, feedback, accounts⟩ :=
    list_walks plainPlatform (fun _ => true) taggedDb [("tag", "t")]
  obtain ⟨fetch, answered, walked⟩ := feedback "1" 1 isId
  exact ⟨isId, ⟨fetch, answered, by decide, walked⟩, accounts "G" rfl⟩

end Stellar8004.Web
