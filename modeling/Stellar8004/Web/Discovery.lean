import Stellar8004.Library.Failures
import Stellar8004.Library.Keyset
import Stellar8004.Web.Cursor
import Stellar8004.Web.Search

/-!
# Discovery

`handleDiscovery` of `apps/web/src/lib/server/api/discovery.ts` and what
`serve.ts` makes of it.  The items of a page are the rows it was built from;
how `formatAgent` presents them is left out.
-/

namespace Stellar8004.Web

open Stellar8004.Indexer

/-! ## The database -/

/-- A row of `AGENTS`: an agent and its `total_score`. -/
structure AgentScores where
  id : Nat
  agent : AgentRow
  totalScore : Option ℚ
  deriving DecidableEq

/-- `SCORE`. -/
def AgentScores.score (row : AgentScores) : ℚ :=
  min (max (row.totalScore.getD 0) 0) 100

/-- What `indexerStatus` reports of a contract. -/
structure ContractStatus where
  lastLedger : Nat
  updatedAt : Option String
  stale : Bool

/-- What a request reads.  The id is the primary key and one of the `u32` of
the registry; a score is a REAL. -/
structure DiscoveryDb where
  rows : List AgentScores
  /-- The rows of `agents_fts` a query matches. -/
  agentsFts : String → Nat → Bool
  identity : ContractStatus
  reputation : ContractStatus
  validation : ContractStatus
  unique : (rows.map AgentScores.id).Nodup
  registered : ∀ row ∈ rows, row.id < 2 ^ 32
  real : ∀ row ∈ rows, ∀ score, row.totalScore = some score → IsDouble score

/-! ## Sorts -/

/-- `<` of SQLite, where a number is less than a text. -/
def KeyValue.less : KeyValue → KeyValue → Bool
  | .number left, .number right => left < right
  | .number _, .text _ => true
  | .text _, .number _ => false
  | .text left, .text right => left < right

def ascending {α β : Type} [Ord β] (column : α → β) (first second : α) :
    Ordering :=
  compare (column first) (column second)

def descending {α β : Type} [Ord β] (column : α → β) (first second : α) :
    Ordering :=
  compare (column second) (column first)

/-- An entry of `SORTS`: the ORDER BY clause, the condition for a later page
and the key of a row. -/
structure SortRules where
  order : AgentScores → AgentScores → Ordering
  after : Key → AgentScores → Bool
  key : AgentScores → Key

def SORTS : SortName → SortRules
  | .score =>
      { order := fun first second =>
          (descending AgentScores.score first second).then
            (ascending AgentScores.id first second)
        after := fun key row =>
          (KeyValue.number row.score).less key.value ||
            (.number row.score = key.value && key.id < row.id)
        key := fun row => { value := .number row.score, id := row.id } }
  | .newest =>
      { order := fun first second =>
          (descending (·.agent.createdAt) first second).then
            (descending AgentScores.id first second)
        after := fun key row =>
          (KeyValue.text row.agent.createdAt).less key.value ||
            (.text row.agent.createdAt = key.value && row.id < key.id)
        key := fun row => { value := .text row.agent.createdAt, id := row.id } }
  | .id =>
      { order := ascending AgentScores.id
        after := fun key row => key.id < row.id
        key := fun row => { value := .number row.id, id := row.id } }

/-! ## Conditions -/

/-- A condition of the WHERE clause with its bound values. -/
inductive Condition where
  | nothing
  | ftsMatch (query : String)
  | x402 (value : Bool)
  | mpp (value : Bool)
  | hasServices (value : Bool)
  | trustOverlap (values : List String)
  | minScore (bound : ℚ)
  | after (sort : SortName) (key : Key)

def Condition.holds (platform : Platform) (db : DiscoveryDb)
    (row : AgentScores) : Condition → Bool
  | nothing => false
  | ftsMatch query => db.agentsFts query row.id
  | x402 value => row.agent.x402Enabled = value
  | mpp value => row.agent.mppEnabled = value
  | hasServices value =>
      let count := (platform.jsonEach row.agent.services).length
      if value then 0 < count else count = 0
  | trustOverlap values =>
      (platform.jsonEach row.agent.supportedTrust).any fun item =>
        match item with
        | .text value => values.contains value
        | _ => false
  | minScore bound => bound ≤ row.score
  | after sort key => (SORTS sort).after key row

/-! ## Parameters -/

abbrev Params := List (String × String)

/-- `params.get(name)`. -/
def Params.get (params : Params) (name : String) : Option String :=
  (params.find? fun param => param.1 = name).map Prod.snd

def PARAMS : List String :=
  ["network", "text", "x402", "mpp", "hasServices", "trust", "minScore",
    "sort", "limit", "cursor"]

structure ApiError where
  code : String
  message : String
  status : Nat
  deriving DecidableEq

def bad (message : String) : ApiError :=
  { code := "INVALID_PARAM", message, status := 400 }

/-- One name of the loop over the names. -/
def checkName (params : Params) (name : String) : Except ApiError Unit :=
  if name ∉ PARAMS then .error (bad s!"Unknown parameter \"{name}\"")
  else if 1 < (params.filter fun param => param.1 = name).length then
    .error (bad s!"Parameter \"{name}\" is repeated")
  else .ok ()

def checkNetwork (network : String) (value : Option String) :
    Except ApiError Unit :=
  match value with
  | none => .error (bad "Parameter \"network\" is required")
  | some value =>
      if value = "" then .error (bad "Parameter \"network\" is required")
      else if value ≠ network then
        .error (bad s!"This explorer indexes {network}, not \"{value}\"")
      else .ok ()

def SortName.text : SortName → String
  | score => "score"
  | newest => "newest"
  | id => "id"

def readSort (value : Option String) : Except ApiError SortName :=
  match [SortName.score, .newest, .id].find? fun sort =>
      sort.text = value.getD "score" with
  | some sort => .ok sort
  | none => .error (bad "Parameter \"sort\" must be score, newest or id")

/-- Where the text is digits, its value up to 100 is that of `Number`. -/
def readLimit (value : Option String) : Except ApiError Nat :=
  match wholeDigits (value.getD "20").toList with
  | some limit =>
      if limit < 1 ∨ 100 < limit then .error outside else .ok limit
  | none => .error outside
where
  outside : ApiError :=
    bad "Parameter \"limit\" must be an integer from 1 to 100"

def textConditions (platform : Platform) (value : Option String) :
    Except ApiError (List Condition) :=
  match value with
  | none => .ok []
  | some text =>
      if isBlank text then
        .error (bad "Parameter \"text\" must not be empty")
      else
        match Web.ftsMatch platform text with
        | none => .ok [.nothing]
        | some query => .ok [.ftsMatch query]

/-- One flag of the loop over the flags. -/
def flagConditions (name : String) (condition : Bool → Condition)
    (value : Option String) : Except ApiError (List Condition) :=
  match value with
  | none => .ok []
  | some text =>
      if text = "true" then .ok [condition true]
      else if text = "false" then .ok [condition false]
      else .error (bad s!"Parameter \"{name}\" must be true or false")

/-- The values of `trustValues`. -/
def trustValues (trust : String) : List String :=
  (splitAt ',' trust).map fun value => String.ofList (trim value.toList)

def trustConditions (value : Option String) :
    Except ApiError (List Condition) :=
  match value with
  | none => .ok []
  | some trust =>
      if isBlank trust then
        .error (bad "Parameter \"trust\" must not be empty")
      else .ok [.trustOverlap (trustValues trust)]

def minScoreConditions (value : Option String) :
    Except ApiError (List Condition) :=
  match value with
  | none => .ok []
  | some text =>
      match number text with
      | none => .error outside
      | some minScore =>
          if isBlank text ∨ ¬(0 ≤ minScore ∧ minScore ≤ 100) then
            .error outside
          else .ok [.minScore minScore]
where
  outside : ApiError :=
    bad "Parameter \"minScore\" must be a number from 0 to 100"

/-- The text a cursor belongs to.  On the names of the parameters
`localeCompare` orders by their characters. -/
def cursorQuery (params : Params) : String :=
  let bound := params.filter fun param =>
    param.1 ≠ "cursor" ∧ param.1 ≠ "limit"
  let sorted := bound.mergeSort fun first second => ¬second.1 < first.1
  String.intercalate "&" (sorted.map fun param => param.1 ++ "=" ++ param.2)

/-- What is known of a request before its cursor is read. -/
structure DiscoveryRequest where
  sort : SortName
  limit : Nat
  conditions : List Condition
  query : String

def readRequest (platform : Platform) (network : String) (params : Params) :
    Except ApiError DiscoveryRequest := do
  (params.map Prod.fst).eraseDups.forM (checkName params)
  checkNetwork network (params.get "network")
  let sort ← readSort (params.get "sort")
  let limit ← readLimit (params.get "limit")
  let text ← textConditions platform (params.get "text")
  let x402 ← flagConditions "x402" .x402 (params.get "x402")
  let mpp ← flagConditions "mpp" .mpp (params.get "mpp")
  let services ← flagConditions "hasServices" .hasServices
    (params.get "hasServices")
  let trust ← trustConditions (params.get "trust")
  let minScore ← minScoreConditions (params.get "minScore")
  return { sort, limit, query := cursorQuery params
           conditions := text ++ x402 ++ mpp ++ services ++ trust ++ minScore }

/-- The checks a request has passed, and what they gave. -/
structure Accepted (platform : Platform) (network : String) (params : Params)
    (request : DiscoveryRequest) : Prop where
  names : ∀ name ∈ params.map Prod.fst, checkName params name = .ok ()
  network : checkNetwork network (params.get "network") = .ok ()
  sort : readSort (params.get "sort") = .ok request.sort
  limit : readLimit (params.get "limit") = .ok request.limit
  conditions : ∃ text x402 mpp services trust minScore,
    textConditions platform (params.get "text") = .ok text ∧
    flagConditions "x402" .x402 (params.get "x402") = .ok x402 ∧
    flagConditions "mpp" .mpp (params.get "mpp") = .ok mpp ∧
    flagConditions "hasServices" .hasServices (params.get "hasServices") =
      .ok services ∧
    trustConditions (params.get "trust") = .ok trust ∧
    minScoreConditions (params.get "minScore") = .ok minScore ∧
    request.conditions = text ++ x402 ++ mpp ++ services ++ trust ++ minScore
  query : request.query = cursorQuery params

theorem readRequest_ok_iff {platform : Platform} {network : String}
    {params : Params} {request : DiscoveryRequest} :
    readRequest platform network params = .ok request ↔
      Accepted platform network params request := by
  have names : (params.map Prod.fst).eraseDups.forM (checkName params) =
      .ok () ↔ ∀ name ∈ params.map Prod.fst, checkName params name = .ok () := by
    rw [forM_ok_iff]
    simp only [List.mem_eraseDups]
  unfold readRequest
  simp only [bind_ok_iff, names]
  constructor
  · rintro ⟨⟨⟩, names, ⟨⟩, network, sort, isSort, limit, isLimit, text, isText,
      x402, isX402, mpp, isMpp, services, isServices, trust, isTrust, minScore,
      isMinScore, isRequest⟩
    cases isRequest
    exact ⟨names, network, isSort, isLimit, ⟨text, x402, mpp, services, trust,
      minScore, isText, isX402, isMpp, isServices, isTrust, isMinScore, rfl⟩,
      rfl⟩
  · rintro ⟨names, network, sort, limit, ⟨text, x402, mpp, services, trust,
      minScore, isText, isX402, isMpp, isServices, isTrust, isMinScore,
      conditions⟩, query⟩
    refine ⟨(), names, (), network, request.sort, sort, request.limit, limit,
      text, isText, x402, isX402, mpp, isMpp, services, isServices, trust,
      isTrust, minScore, isMinScore, ?_⟩
    rw [← conditions, ← query]
    rfl

/-- Every parameter other than the cursor and the page size is the same. -/
def Params.Agree (params other : Params) : Prop :=
  ∀ name, name ≠ "cursor" → name ≠ "limit" → params.get name = other.get name

/-- Then the same rows are asked for, in the same order. -/
theorem Accepted.agree {platform : Platform} {network : String}
    {params other : Params} {request later : DiscoveryRequest}
    (accepted : Accepted platform network params request)
    (again : Accepted platform network other later)
    (agree : params.Agree other) :
    later.sort = request.sort ∧ later.conditions = request.conditions := by
  have sort := again.sort
  rw [← agree "sort" (by decide) (by decide), accepted.sort] at sort
  obtain ⟨text, x402, mpp, services, trust, minScore, isText, isX402, isMpp,
    isServices, isTrust, isMinScore, conditions⟩ := accepted.conditions
  obtain ⟨text', x402', mpp', services', trust', minScore', isText', isX402',
    isMpp', isServices', isTrust', isMinScore', conditions'⟩ :=
    again.conditions
  rw [← agree "text" (by decide) (by decide), isText] at isText'
  rw [← agree "x402" (by decide) (by decide), isX402] at isX402'
  rw [← agree "mpp" (by decide) (by decide), isMpp] at isMpp'
  rw [← agree "hasServices" (by decide) (by decide), isServices] at isServices'
  rw [← agree "trust" (by decide) (by decide), isTrust] at isTrust'
  rw [← agree "minScore" (by decide) (by decide), isMinScore] at isMinScore'
  cases isText'
  cases isX402'
  cases isMpp'
  cases isServices'
  cases isTrust'
  cases isMinScore'
  exact ⟨(Except.ok.inj sort).symm, conditions'.trans conditions.symm⟩

/-! ## Pages -/

/-- `SELECT … WHERE … ORDER BY … LIMIT …`. -/
def selectAgents (platform : Platform) (db : DiscoveryDb)
    (conditions : List Condition) (sort : SortName) (limit : Nat) :
    List AgentScores :=
  let kept := db.rows.filter fun row =>
    conditions.all (Condition.holds platform db row)
  (kept.mergeSort fun first second =>
    ((SORTS sort).order first second).isLE).take limit

/-- The rows of a page, and the key its cursor is made of. -/
def discoveryPage (platform : Platform) (db : DiscoveryDb)
    (conditions : List Condition) (sort : SortName) (start : Option Key)
    (limit : Nat) : KeysetPage AgentScores Key :=
  let results := selectAgents platform db
    (conditions ++ (start.map (Condition.after sort)).toList) sort (limit + 1)
  let rows := results.take limit
  let hasMore := decide (limit < results.length)
  { items := rows
    hasMore
    next := if hasMore then rows.getLast?.map (SORTS sort).key else none }

structure DiscoveryBody where
  items : List AgentScores
  limit : Nat
  hasMore : Bool
  nextCursor : Option String
  asOfLedger : Nat
  indexedAt : Option String
  deriving DecidableEq

/-- How a handler ends. -/
inductive Outcome where
  | success (body : DiscoveryBody)
  | failure (error : ApiError)
  | thrown
  deriving DecidableEq

/-- The key a request starts after. -/
def startKey (platform : Platform) (request : DiscoveryRequest)
    (cursor : Option String) : Except ApiError (Option Key) :=
  match cursor with
  | none => .ok none
  | some cursor =>
      match decodeCursor platform cursor request.query request.sort with
      | none => .error
          { code := "INVALID_CURSOR"
            message := "Cursor is malformed or from another query"
            status := 400 }
      | some key => .ok (some key)

def discoveryBody (db : DiscoveryDb) (limit : Nat)
    (page : KeysetPage AgentScores Key) (nextCursor : Option String) :
    DiscoveryBody :=
  let contracts := [db.identity, db.reputation, db.validation]
  { items := page.items
    limit
    hasMore := page.hasMore
    nextCursor
    asOfLedger := min db.identity.lastLedger
      (min db.reputation.lastLedger db.validation.lastLedger)
    indexedAt := (contracts.filterMap fun contract =>
      contract.updatedAt.filter (· ≠ "")).min? }

def handleDiscovery (platform : Platform) (network : String) (db : DiscoveryDb)
    (params : Params) : Outcome :=
  match readRequest platform network params with
  | .error error => .failure error
  | .ok request =>
      match startKey platform request (params.get "cursor") with
      | .error error => .failure error
      | .ok start =>
          if db.identity.stale || db.reputation.stale ||
              db.validation.stale then
            .failure
              { code := "INDEX_STALE"
                message := "The index is behind the chain; try again shortly"
                status := 503 }
          else
            let page := discoveryPage platform db request.conditions
              request.sort start request.limit
            match page.next with
            | none => .success (discoveryBody db request.limit page none)
            | some key =>
                match encodeCursor platform request.query key with
                | none => .thrown
                | some cursor =>
                    .success (discoveryBody db request.limit page (some cursor))

/-! ## Answers -/

inductive ApiAnswer where
  | preflight
  | success (body : DiscoveryBody)
  | error (error : ApiError)
  deriving DecidableEq

/-- A handler that throws becomes a generic answer. -/
def serveApi (method : String) (withinRateLimit : Bool) (handle : Outcome) :
    ApiAnswer :=
  if method = "OPTIONS" then .preflight
  else if method ≠ "GET" then
    .error { code := "METHOD_NOT_ALLOWED"
             message := "Only GET requests are supported", status := 405 }
  else if withinRateLimit then
    match handle with
    | .success body => .success body
    | .failure error => .error error
    | .thrown =>
        .error { code := "INTERNAL_ERROR"
                 message := "An unexpected error occurred", status := 500 }
  else
    .error { code := "RATE_LIMITED"
             message := "Too many requests. Try again later.", status := 429 }

end Stellar8004.Web
