import Stellar8004.Web.CursorTravel

/-!
# A walk of the registry

A client of `GET /api/v2/discovery` passes the `nextCursor` of each page back
as `cursor` until it is null.  It is given every matching agent in order and
once, unless a value of its query cannot be put into a cursor and one page
does not hold all.
-/

namespace Stellar8004.Web

open Stellar8004.Indexer

/-! ## The client -/

/-- What the explorer answers to a GET of `/api/v2/discovery` with a query. -/
def discover (platform : Platform) (network : String) (db : DiscoveryDb)
    (query : String) : ApiAnswer :=
  serveApi "GET" true
    (handleDiscovery platform network db (searchParams query))

/-- The query of a later page. -/
def withCursor (query : String) : Option String → String
  | none => query
  | some cursor => query ++ "&cursor=" ++ cursor

/-- The agents of all pages.  Nothing where an answer is not a page, or where
`rounds` requests were not enough. -/
def walkDiscovery (platform : Platform) (network : String) (db : DiscoveryDb)
    (query : String) : (rounds : Nat) → Option String →
    Option (List AgentScores)
  | 0, _ => none
  | rounds + 1, cursor =>
      match discover platform network db (withCursor query cursor) with
      | .success body =>
          match body.nextCursor with
          | none => some body.items
          | some next =>
              (walkDiscovery platform network db query rounds (some next)).map
                (body.items ++ ·)
      | _ => none

/-! ## The requests of a walk -/

section

variable {platform : Platform} {network : String} {params : Params}
  {request : DiscoveryRequest}

theorem Params.get_append_other (params : Params) {name : String}
    (other : name ≠ "cursor") (cursor : String) :
    Params.get (params ++ [("cursor", cursor)]) name = params.get name := by
  have quiet : [("cursor", cursor)].find? (fun param => param.1 = name) =
      none := by
    apply List.find?_eq_none.mpr
    intro param member
    rw [List.mem_singleton.mp member]
    simpa using Ne.symm other
  unfold Params.get
  rw [List.find?_append, quiet, Option.or_none]

theorem Params.absent (first : params.get "cursor" = none) :
    ∀ param ∈ params, param.1 ≠ "cursor" := by
  intro param member isCursor
  have none := Option.map_eq_none_iff.mp first
  have missed := List.find?_eq_none.mp none param member
  rw [isCursor] at missed
  exact missed (decide_eq_true rfl)

theorem Params.get_append_cursor (first : params.get "cursor" = none)
    (cursor : String) :
    Params.get (params ++ [("cursor", cursor)]) "cursor" = some cursor := by
  unfold Params.get
  rw [List.find?_append, Option.map_eq_none_iff.mp first]
  rfl

/-- A cursor neither belongs to the query it is bound to nor changes what is
asked for. -/
theorem Accepted.withCursor
    (accepted : Accepted platform network params request)
    (first : params.get "cursor" = none) (cursor : String) :
    Accepted platform network (params ++ [("cursor", cursor)]) request := by
  have other : ∀ name, name ≠ "cursor" →
      Params.get (params ++ [("cursor", cursor)]) name = params.get name :=
    fun name different => params.get_append_other different cursor
  obtain ⟨text, x402, mpp, services, trust, minScore, isText, isX402, isMpp,
    isServices, isTrust, isMinScore, conditions⟩ := accepted.conditions
  constructor
  · intro name member
    rw [List.map_append, List.mem_append] at member
    by_cases isCursor : name = "cursor"
    · subst isCursor
      have none : params.filter (fun param => param.1 = "cursor") = [] := by
        apply List.filter_eq_nil_iff.mpr
        intro param inside
        simpa using Params.absent first param inside
      unfold checkName
      rw [if_neg (by simp [PARAMS]), List.filter_append, none]
      rfl
    · have inside : name ∈ params.map Prod.fst := by
        rcases member with old | new
        · exact old
        · exact absurd (by simpa using new) isCursor
      have checked := accepted.names name inside
      have same : (params ++ [("cursor", cursor)]).filter
          (fun param => param.1 = name) =
            params.filter fun param => param.1 = name := by
        rw [List.filter_append]
        simp [Ne.symm isCursor]
      unfold checkName at checked ⊢
      rwa [same]
  · rw [other "network" (by decide)]
    exact accepted.network
  · rw [other "sort" (by decide)]
    exact accepted.sort
  · rw [other "limit" (by decide)]
    exact accepted.limit
  · refine ⟨text, x402, mpp, services, trust, minScore, ?_, ?_, ?_, ?_, ?_, ?_,
      conditions⟩
    · rwa [other "text" (by decide)]
    · rwa [other "x402" (by decide)]
    · rwa [other "mpp" (by decide)]
    · rwa [other "hasServices" (by decide)]
    · rwa [other "trust" (by decide)]
    · rwa [other "minScore" (by decide)]
  · rw [accepted.query]
    unfold cursorQuery
    rw [List.filter_append]
    simp

theorem readLimit_positive {value : Option String} {limit : Nat}
    (isLimit : readLimit value = .ok limit) : 1 ≤ limit := by
  unfold readLimit at isLimit
  split at isLimit
  · split at isLimit
    · cases isLimit
    · rename_i inside
      cases isLimit
      omega
  · cases isLimit

end

/-! ## The pages of a walk -/

section

variable {platform : Platform} {network : String} {db : DiscoveryDb}
  {query : String} {request : DiscoveryRequest}

/-- The index is not behind the chain. -/
def DiscoveryDb.Fresh (db : DiscoveryDb) : Prop :=
  (db.identity.stale || db.reputation.stale || db.validation.stale) = false

/-- The cursor a walk goes on with: none, or one issued for the last row it
was given. -/
def GoesOn (platform : Platform) (request : DiscoveryRequest)
    (before : List AgentScores) (cursor : Option String) : Prop :=
  match cursor with
  | none => before = []
  | some cursor => ∃ row, before.getLast? = some row ∧
      encodeCursor platform request.query ((SORTS request.sort).key row) =
        some cursor

theorem GoesOn.startKey (standard : platform.Standard)
    {before : List AgentScores} (known : ∀ row ∈ before, row ∈ db.rows)
    {cursor : Option String}
    (goesOn : GoesOn platform request before cursor) :
    startKey platform request cursor =
      .ok (before.getLast?.map (SORTS request.sort).key) := by
  cases cursor with
  | none =>
      have isEmpty : before = [] := goesOn
      subst isEmpty
      rfl
  | some cursor =>
      obtain ⟨row, isLast, issued⟩ := goesOn
      have exact := db.key_exact (known row (List.mem_of_getLast? isLast))
        request.sort
      have decoded := (decodeCursor_issued_iff standard exact issued
        request.query request.sort).mpr ⟨rfl, key_fits request.sort row, rfl⟩
      unfold Web.startKey
      simp only [decoded, isLast, Option.map_some]

/-- How the handler ends on a page. -/
def pageOutcome (platform : Platform) (db : DiscoveryDb)
    (request : DiscoveryRequest) (page : KeysetPage AgentScores Key) :
    Outcome :=
  match page.next with
  | none => .success (discoveryBody db request.limit page none)
  | some key =>
      match encodeCursor platform request.query key with
      | none => .thrown
      | some cursor =>
          .success (discoveryBody db request.limit page (some cursor))

section

variable (standard : platform.Standard)
  (accepted : Accepted platform network (searchParams query) request)
  (first : Params.get (searchParams query) "cursor" = none)
  (fresh : db.Fresh)

include standard accepted first fresh

/-- What a request of a walk is answered: the next rows of the sorted agents,
with a cursor while more are left. -/
theorem discover_eq {before rest : List AgentScores}
    (split : (matchingAgents platform db request.conditions).mergeSort
      (sortKeyset request.sort).le = before ++ rest)
    {cursor : Option String}
    (goesOn : GoesOn platform request before cursor) :
    discover platform network db (withCursor query cursor) =
      serveApi "GET" true (pageOutcome platform db request
        { items := rest.take request.limit
          hasMore := decide (request.limit < rest.length)
          next := if request.limit < rest.length then
            (rest.take request.limit).getLast?.map (SORTS request.sort).key
            else none }) := by
  have known : ∀ row ∈ before, row ∈ db.rows := by
    intro row member
    have listed : row ∈ before ++ rest := List.mem_append_left _ member
    rw [← split] at listed
    exact List.mem_of_mem_filter
      ((List.mergeSort_perm _ _).mem_iff.mp listed)
  have starts := goesOn.startKey standard known
  have asked : ∃ params : Params,
      searchParams (withCursor query cursor) = params ∧
      Accepted platform network params request ∧
      Params.get params "cursor" = cursor := by
    cases cursor with
    | none => exact ⟨_, rfl, accepted, first⟩
    | some cursor =>
        obtain ⟨row, _, issued⟩ := goesOn
        exact ⟨_, cursor_travels issued query,
          accepted.withCursor first cursor,
          Params.get_append_cursor first cursor⟩
  obtain ⟨params, isParams, again, isCursor⟩ := asked
  have isPage := (sortKeyset_lawful request.sort).page_eq
    ((sortKeyset_separates db request.sort).filter _) split request.limit
  have isFresh : (db.identity.stale || db.reputation.stale ||
      db.validation.stale) = false := fresh
  unfold discover handleDiscovery
  rw [isParams]
  simp only [readRequest_ok_iff.mpr again, isCursor, starts, isFresh,
    Bool.false_eq_true, if_false, discoveryPage_eq]
  change serveApi "GET" true (pageOutcome platform db request
    ((sortKeyset request.sort).page _ (before.getLast?.map
      (sortKeyset request.sort).key) request.limit)) = _
  rw [show (sortKeyset request.sort).page
    (matchingAgents platform db request.conditions) _ request.limit = _ from
      isPage]
  rfl

theorem discover_last {before rest : List AgentScores}
    (split : (matchingAgents platform db request.conditions).mergeSort
      (sortKeyset request.sort).le = before ++ rest)
    {cursor : Option String}
    (goesOn : GoesOn platform request before cursor)
    (last : rest.length ≤ request.limit) :
    ∃ body, discover platform network db (withCursor query cursor) =
      .success body ∧ body.items = rest ∧ body.nextCursor = none := by
  rw [discover_eq standard accepted first fresh split goesOn]
  rw [if_neg (Nat.not_lt.mpr last), List.take_of_length_le last]
  exact ⟨_, rfl, rfl, rfl⟩

theorem discover_more {before rest : List AgentScores}
    (split : (matchingAgents platform db request.conditions).mergeSort
      (sortKeyset request.sort).le = before ++ rest)
    {cursor : Option String}
    (goesOn : GoesOn platform request before cursor)
    (more : request.limit < rest.length) :
    ∃ row ∈ db.rows, (before ++ rest.take request.limit).getLast? = some row ∧
      match encodeCursor platform request.query
        ((SORTS request.sort).key row) with
      | none => discover platform network db (withCursor query cursor) =
          .error { code := "INTERNAL_ERROR"
                   message := "An unexpected error occurred", status := 500 }
      | some next => ∃ body,
          discover platform network db (withCursor query cursor) =
            .success body ∧ body.items = rest.take request.limit ∧
            body.nextCursor = some next := by
  have positive := readLimit_positive accepted.limit
  have some : rest.take request.limit ≠ [] :=
    Keyset.take_ne_nil positive more
  obtain ⟨row, isLast⟩ := Option.isSome_iff_exists.mp
    (List.getLast?_isSome.mpr some)
  have isRow : row ∈ db.rows := by
    have listed : row ∈ before ++ rest := List.mem_append_right _
      (List.mem_of_mem_take (List.mem_of_getLast? isLast))
    rw [← split] at listed
    exact List.mem_of_mem_filter
      ((List.mergeSort_perm _ _).mem_iff.mp listed)
  refine ⟨row, isRow, ?_, ?_⟩
  · rw [List.getLast?_append_of_ne_nil _ some]
    exact isLast
  · rw [discover_eq standard accepted first fresh split goesOn, if_pos more,
      isLast]
    unfold pageOutcome
    simp only [Option.map_some]
    cases encodeCursor platform request.query
        ((SORTS request.sort).key row) with
    | none => rfl
    | some next => exact ⟨_, rfl, rfl, rfl⟩

/-- The rest of a walk is the rest of the sorted agents. -/
theorem walkDiscovery_rest {before rest : List AgentScores}
    (split : (matchingAgents platform db request.conditions).mergeSort
      (sortKeyset request.sort).le = before ++ rest)
    {cursor : Option String}
    (goesOn : GoesOn platform request before cursor)
    (issuable : request.limit < rest.length → ∀ row ∈ db.rows,
      (encodeCursor platform request.query
        ((SORTS request.sort).key row)).isSome)
    {rounds : Nat} (enough : rest.length < rounds) :
    walkDiscovery platform network db query rounds cursor = some rest := by
  induction rounds generalizing before rest cursor with
  | zero => exact absurd enough (Nat.not_lt_zero _)
  | succ rounds induction =>
      unfold walkDiscovery
      rcases Nat.lt_or_ge request.limit rest.length with more | last
      · obtain ⟨row, isRow, isLast, answered⟩ := discover_more standard
          accepted first fresh split goesOn more
        obtain ⟨next, issued⟩ := Option.isSome_iff_exists.mp
          (issuable more row isRow)
        rw [issued] at answered
        obtain ⟨body, isBody, items, isNext⟩ := answered
        have positive := readLimit_positive accepted.limit
        have onward : (matchingAgents platform db
            request.conditions).mergeSort (sortKeyset request.sort).le =
              (before ++ rest.take request.limit) ++
                rest.drop request.limit := by
          rw [List.append_assoc, List.take_append_drop]
          exact split
        have fewer : (rest.drop request.limit).length < rounds := by
          rw [List.length_drop]
          omega
        have goesOnward : GoesOn platform request
            (before ++ rest.take request.limit) (some next) :=
          ⟨row, isLast, issued⟩
        have later := induction onward goesOnward (fun _ => issuable more)
          fewer
        simp only [isBody, isNext, later, items, Option.map_some,
          List.take_append_drop]
      · obtain ⟨body, isBody, items, isNext⟩ := discover_last standard
          accepted first fresh split goesOn last
        simp only [isBody, isNext, items]

end

/-- Every value of the query can be put into a cursor. -/
def Portable (query : String) : Prop :=
  ∀ param ∈ searchParams query, param.1 ≠ "limit" → Latin param.2

/-- The query a cursor is bound to can be written where its values can. -/
theorem Accepted.latin_iff_portable
    (accepted : Accepted platform network (searchParams query) request)
    (first : Params.get (searchParams query) "cursor" = none) :
    Latin request.query ↔ Portable query := by
  rw [accepted.latin_query_iff]
  constructor
  · exact fun all param member other =>
      all param member (Params.absent first param member) other
  · exact fun all param member _ other => all param member other

/-- The agents of a walk, as one list. -/
def walkedAgents (platform : Platform) (db : DiscoveryDb)
    (request : DiscoveryRequest) : List AgentScores :=
  (matchingAgents platform db request.conditions).mergeSort
    (sortKeyset request.sort).le

theorem length_walkedAgents (db : DiscoveryDb) :
    (walkedAgents platform db request).length =
      (matchingAgents platform db request.conditions).length :=
  List.length_mergeSort _

theorem walkedAgents_sorted (db : DiscoveryDb) :
    (walkedAgents platform db request).Pairwise fun first second =>
      (SORTS request.sort).order first second = .lt := by
  apply ((sortKeyset_lawful request.sort).strictly_sorted
    ((sortKeyset_separates db request.sort).filter _)).imp
  exact order_lt_of_not_isLE

theorem mem_walkedAgents_iff (db : DiscoveryDb) (row : AgentScores) :
    row ∈ walkedAgents platform db request ↔
      row ∈ matchingAgents platform db request.conditions :=
  (List.mergeSort_perm _ _).mem_iff

theorem encodes_iff_portable (standard : platform.Standard)
    (accepted : Accepted platform network (searchParams query) request)
    (first : Params.get (searchParams query) "cursor" = none)
    (timed : ∀ row ∈ db.rows, Latin row.agent.createdAt)
    {row : AgentScores} (member : row ∈ db.rows) :
    (encodeCursor platform request.query
      ((SORTS request.sort).key row)).isSome ↔ Portable query := by
  rw [encodeCursor_isSome_iff, latin_cursorJson standard
    (db.key_exact member request.sort), key_latin_iff,
    ← accepted.latin_iff_portable first]
  exact and_iff_left fun _ => timed row member

/-- Where cursors can be written or one page is enough, a walk of so many
requests is given all the agents. -/
theorem walkDiscovery_eq (standard : platform.Standard)
    (accepted : Accepted platform network (searchParams query) request)
    (first : Params.get (searchParams query) "cursor" = none)
    (fresh : db.Fresh) (timed : ∀ row ∈ db.rows, Latin row.agent.createdAt)
    (either : Portable query ∨ (matchingAgents platform db
      request.conditions).length ≤ request.limit)
    {rounds : Nat} (enough : (matchingAgents platform db
      request.conditions).length < rounds) :
    walkDiscovery platform network db query rounds none =
      some (walkedAgents platform db request) := by
  have whole : walkedAgents platform db request =
      [] ++ walkedAgents platform db request := rfl
  have opens : GoesOn platform request [] none := rfl
  refine walkDiscovery_rest standard accepted first fresh whole opens ?_
    (by rwa [length_walkedAgents])
  intro more row member
  rw [length_walkedAgents] at more
  rcases either with isPortable | few
  · exact (encodes_iff_portable standard accepted first timed member).mpr
      isPortable
  · exact absurd few (Nat.not_le.mpr more)

/-- Elsewhere the first page has no cursor to go on with. -/
theorem walkDiscovery_eq_none (standard : platform.Standard)
    (accepted : Accepted platform network (searchParams query) request)
    (first : Params.get (searchParams query) "cursor" = none)
    (fresh : db.Fresh) (timed : ∀ row ∈ db.rows, Latin row.agent.createdAt)
    (wide : ¬ Portable query) (more : request.limit <
      (matchingAgents platform db request.conditions).length)
    (rounds : Nat) :
    walkDiscovery platform network db query rounds none = none := by
  have whole : walkedAgents platform db request =
      [] ++ walkedAgents platform db request := rfl
  have opens : GoesOn platform request [] none := rfl
  rw [← length_walkedAgents] at more
  cases rounds with
  | zero => rfl
  | succ rounds =>
      obtain ⟨row, isRow, _, answered⟩ := discover_more standard accepted
        first fresh whole opens more
      have refused : encodeCursor platform request.query
          ((SORTS request.sort).key row) = none := by
        rw [← Option.not_isSome_iff_eq_none,
          encodes_iff_portable standard accepted first timed isRow]
        exact wide
      rw [refused] at answered
      unfold walkDiscovery
      rw [show discover platform network db (withCursor query none) = _
        from answered]

/-- A walk that starts without a cursor is given the matching agents in the
order of its sort, each once, in no more requests than there are agents and
one.  It fails, whatever the client does, exactly when one page does not hold
them and a value of the query is not of one byte a character. -/
theorem discovery_walk_complete (standard : platform.Standard)
    (accepted : readRequest platform network (searchParams query) =
      .ok request)
    (first : Params.get (searchParams query) "cursor" = none)
    (fresh : db.Fresh) (timed : ∀ row ∈ db.rows, Latin row.agent.createdAt) :
    (Portable query ∨ (matchingAgents platform db
        request.conditions).length ≤ request.limit →
      ∃ agents,
        (∀ rounds, (matchingAgents platform db
          request.conditions).length < rounds →
          walkDiscovery platform network db query rounds none =
            some agents) ∧
        agents.Pairwise (fun first second =>
          (SORTS request.sort).order first second = .lt) ∧
        ∀ row, row ∈ agents ↔
          row ∈ matchingAgents platform db request.conditions) ∧
    (¬ Portable query → request.limit < (matchingAgents platform db
        request.conditions).length →
      ∀ rounds, walkDiscovery platform network db query rounds none =
        none) := by
  have checked := readRequest_ok_iff.mp accepted
  constructor
  · intro either
    refine ⟨walkedAgents platform db request, ?_, walkedAgents_sorted db,
      mem_walkedAgents_iff db⟩
    intro rounds enough
    exact walkDiscovery_eq standard checked first fresh timed either enough
  · intro wide more rounds
    exact walkDiscovery_eq_none standard checked first fresh timed wide more
      rounds

end

/-- Three agents, read one at a time. -/
theorem discovery_walk_complete_tied : ∃ request agents,
    readRequest readerPlatform "mainnet"
      (searchParams "network=mainnet&limit=1") = .ok request ∧
    walkDiscovery readerPlatform "mainnet" tiedDb "network=mainnet&limit=1" 4
      none = some agents ∧
    ∀ row, row ∈ agents ↔ row ∈ tiedDb.rows := by
  have isParams : searchParams "network=mainnet&limit=1" =
      [("network", "mainnet"), ("limit", "1")] := by decide +kernel
  have accepted : readRequest readerPlatform "mainnet"
      (searchParams "network=mainnet&limit=1") =
        .ok { sort := .score, limit := 1, conditions := []
              query := cursorQuery
                [("network", "mainnet"), ("limit", "1")] } := by
    rw [isParams]
    rfl
  have portable : Portable "network=mainnet&limit=1" := by
    unfold Portable
    rw [isParams]
    decide
  have walk := discovery_walk_complete readerPlatform_standard accepted
    (by
      rw [isParams]
      rfl) (show tiedDb.Fresh from rfl) (by decide)
  obtain ⟨agents, walked, _, exactly⟩ := walk.1 (.inl portable)
  exact ⟨_, agents, accepted, walked 4 (by decide), exactly⟩

end Stellar8004.Web
