import Stellar8004.Web.CursorReader
import Stellar8004.Web.DiscoveryPages

/-!
# Issued cursors

When a page can hand out its cursor, and that a cursor comes back from the
address of the next request as the key it was made of.
-/

namespace Stellar8004.Web

open Stellar8004.Indexer

/-! ## Keys of rows -/

theorem AgentScores.score_cases (row : AgentScores) :
    row.score = 0 ∨ row.score = 100 ∨ row.totalScore = some row.score := by
  unfold AgentScores.score
  cases isScore : row.totalScore with
  | none =>
      left
      rw [Option.getD_none, max_self]
      exact min_eq_left (by norm_num)
  | some score =>
      rw [Option.getD_some]
      rcases le_total (max score 0) 100 with low | high
      · rw [min_eq_left low]
        rcases le_total score 0 with negative | positive
        · rw [max_eq_right negative]
          exact .inl rfl
        · rw [max_eq_left positive]
          exact .inr (.inr rfl)
      · rw [min_eq_right high]
        exact .inr (.inl rfl)

theorem DiscoveryDb.isDouble_score (db : DiscoveryDb) {row : AgentScores}
    (member : row ∈ db.rows) : IsDouble row.score := by
  rcases row.score_cases with zero | full | kept
  · have isNat : IsDouble ((0 : Nat) : ℚ) := isDouble_natCast (by norm_num)
    rw [zero]
    exact_mod_cast isNat
  · have isNat : IsDouble ((100 : Nat) : ℚ) := isDouble_natCast (by norm_num)
    rw [full]
    exact_mod_cast isNat
  · exact db.real row member row.score kept

/-- The key of a row can be written and read as numbers. -/
theorem DiscoveryDb.key_exact (db : DiscoveryDb) {row : AgentScores}
    (member : row ∈ db.rows) (sort : SortName) :
    ((SORTS sort).key row).Exact := by
  have small := db.registered row member
  have safe : isSafeInteger (row.id : Int) = true := by
    unfold isSafeInteger
    rw [decide_eq_true_eq]
    omega
  cases sort with
  | score =>
      refine ⟨fun value isValue => ?_, safe⟩
      rw [← KeyValue.number.inj isValue]
      exact db.isDouble_score member
  | newest =>
      refine ⟨fun value isValue => ?_, safe⟩
      cases isValue
  | id =>
      refine ⟨fun value isValue => ?_, safe⟩
      rw [← KeyValue.number.inj isValue]
      exact isDouble_natCast (small.trans (by norm_num))

theorem key_fits (sort : SortName) (row : AgentScores) :
    ((SORTS sort).key row).Fits sort := by
  cases sort with
  | score => exact (nomatch ·)
  | newest => exact rfl
  | id => exact (nomatch ·)

theorem key_latin_iff (sort : SortName) (row : AgentScores) :
    ((SORTS sort).key row).Latin ↔
      (sort = .newest → Latin row.agent.createdAt) := by
  cases sort with
  | newest =>
      constructor
      · exact fun latin _ => latin row.agent.createdAt rfl
      · intro latin text isText
        rw [← KeyValue.text.inj isText]
        exact latin rfl
  | _ =>
      constructor
      · exact fun _ impossible => (nomatch impossible)
      · exact fun _ text isText => (nomatch isText)

/-! ## Queries -/

theorem latin_intercalate {separator : String} (latin : Latin separator)
    (texts : List String) :
    Latin (String.intercalate separator texts) ↔
      ∀ text ∈ texts, Latin text := by
  induction texts with
  | nil =>
      rw [String.intercalate_nil]
      exact iff_of_true (by decide) (fun _ member => (nomatch member))
  | cons text texts induction =>
      rw [List.forall_mem_cons]
      cases texts with
      | nil =>
          rw [String.intercalate_singleton]
          exact ⟨fun here => ⟨here, fun _ member => (nomatch member)⟩,
            fun both => both.1⟩
      | cons next others =>
          rw [String.intercalate_cons_cons, latin_append, latin_append,
            induction]
          exact ⟨fun all => ⟨all.1.1, all.2⟩,
            fun both => ⟨⟨both.1, latin⟩, both.2⟩⟩

theorem name_mem_of_checkName {params : Params} {name : String}
    (checked : checkName params name = .ok ()) : name ∈ PARAMS := by
  by_contra unknown
  unfold checkName at checked
  rw [if_pos unknown] at checked
  cases checked

theorem latin_PARAMS : ∀ name ∈ PARAMS, Latin name := by
  decide

/-- The query of an accepted request is of one byte a character where its
values are. -/
theorem Accepted.latin_query_iff {platform : Platform} {network : String}
    {params : Params} {request : DiscoveryRequest}
    (accepted : Accepted platform network params request) :
    Latin request.query ↔ ∀ param ∈ params, param.1 ≠ "cursor" →
      param.1 ≠ "limit" → Latin param.2 := by
  have names : ∀ param ∈ params, Latin param.1 := by
    intro param member
    exact latin_PARAMS param.1 (name_mem_of_checkName
      (accepted.names param.1 (List.mem_map_of_mem member)))
  rw [accepted.query, cursorQuery, latin_intercalate (by decide),
    List.forall_mem_map]
  simp only [List.mem_mergeSort, List.mem_filter, decide_eq_true_eq,
    latin_append]
  constructor
  · intro all param member notCursor notLimit
    exact (all param ⟨member, notCursor, notLimit⟩).2
  · rintro all param ⟨member, notCursor, notLimit⟩
    exact ⟨⟨names param member, by decide⟩,
      all param member notCursor notLimit⟩

/-! ## Cursors -/

/-- The page hands out a cursor, and the cursor comes back as the key. -/
def CursorUsable (platform : Platform) (query : String) (sort : SortName)
    (key : Key) : Prop :=
  ∃ cursor, encodeCursor platform query key = some cursor ∧
    decodeCursor platform cursor query sort = some key ∧
    ∀ others, searchParams (others ++ "&cursor=" ++ cursor) =
      searchParams others ++ [("cursor", cursor)]

theorem cursor_travels {platform : Platform} {query cursor : String} {key : Key}
    (issued : encodeCursor platform query key = some cursor)
    (others : String) :
    searchParams (others ++ "&cursor=" ++ cursor) =
      searchParams others ++ [("cursor", cursor)] := by
  have isName : "cursor".toList.all isUnreserved = true := by decide
  have appended := @searchParams_append others "cursor".toList cursor.toList
    (List.all_eq_true.mp isName) (encodeCursor_unreserved issued)
  have written : String.ofList ('&' :: "cursor".toList ++ '=' ::
      cursor.toList) = "&cursor=" ++ cursor := by
    apply String.toList_injective
    rw [String.toList_ofList, String.toList_append]
    rfl
  rw [written, String.ofList_toList, String.ofList_toList] at appended
  rw [String.append_assoc]
  exact appended

theorem cursorUsable_iff {platform : Platform} (standard : platform.Standard)
    {query : String} {sort : SortName} {key : Key} (exact : key.Exact)
    (fits : key.Fits sort) :
    CursorUsable platform query sort key ↔ Latin query ∧ key.Latin := by
  rw [← latin_cursorJson standard exact, ← encodeCursor_isSome_iff]
  constructor
  · rintro ⟨cursor, issued, -⟩
    exact Option.isSome_of_eq_some issued
  · intro isSome
    obtain ⟨cursor, issued⟩ := Option.isSome_iff_exists.mp isSome
    refine ⟨cursor, issued, ?_, cursor_travels issued⟩
    exact (decodeCursor_issued_iff standard exact issued query sort).mpr
      ⟨rfl, fits, rfl⟩

/-- A row's cursor is usable exactly where `btoa` takes the values of the
request, and the row's time in the sort that has it in its key. -/
theorem cursor_usable_iff {platform : Platform} (standard : platform.Standard)
    {network : String} {params : Params} {request : DiscoveryRequest}
    (accepted : readRequest platform network params = .ok request)
    {db : DiscoveryDb} {row : AgentScores} (member : row ∈ db.rows)
    (sort : SortName) :
    CursorUsable platform request.query sort ((SORTS sort).key row) ↔
      (∀ param ∈ params, param.1 ≠ "cursor" → param.1 ≠ "limit" →
        Latin param.2) ∧
      (sort = .newest → Latin row.agent.createdAt) := by
  rw [cursorUsable_iff standard (db.key_exact member sort) (key_fits sort row),
    (readRequest_ok_iff.mp accepted).latin_query_iff, key_latin_iff]

/-- A request with a wider value throws on every page but the last. -/
theorem handleDiscovery_thrown {platform : Platform} {network : String}
    {db : DiscoveryDb} {params : Params} {request : DiscoveryRequest}
    (accepted : readRequest platform network params = .ok request)
    (wide : ¬Latin request.query) {start : Option Key}
    (starts : startKey platform request (params.get "cursor") = .ok start)
    (fresh : (db.identity.stale || db.reputation.stale ||
      db.validation.stale) = false)
    (more : (discoveryPage platform db request.conditions request.sort start
      request.limit).next.isSome) :
    handleDiscovery platform network db params = .thrown := by
  obtain ⟨key, isNext⟩ := Option.isSome_iff_exists.mp more
  have refused : encodeCursor platform request.query key = none := by
    rw [← Option.not_isSome_iff_eq_none, encodeCursor_isSome_iff,
      stringify_cursorJson]
    simp only [latin_append, latin_quote]
    exact fun latin => wide latin.1.2.1.1.2
  unfold handleDiscovery
  simp only [accepted, starts, fresh, Bool.false_eq_true, if_false, isNext,
    refused]

/-- Two agents that every search finds. -/
def foundDb : DiscoveryDb :=
  { rows := [sampleScores 0 "t" none, sampleScores 1 "t" none]
    agentsFts := fun _ _ => true
    identity := freshContract
    reputation := freshContract
    validation := freshContract
    unique := by decide
    registered := by decide
    real := by
      intro row member score isScore
      simp only [List.mem_cons, List.not_mem_nil, or_false] at member
      rcases member with rfl | rfl
      · cases isScore
      · cases isScore }

def searchFor (text : String) : Params :=
  [("network", "mainnet"), ("text", text), ("limit", "1")]

theorem searchFor_accepted (text query : String) (notBlank : isBlank text = false)
    (isMatch : ftsMatch readerPlatform text = some query) :
    readRequest readerPlatform "mainnet" (searchFor text) =
      .ok { sort := .score, limit := 1, conditions := [.ftsMatch query]
            query := cursorQuery (searchFor text) } := by
  have isText : textConditions readerPlatform (some text) =
      .ok [.ftsMatch query] := by
    unfold textConditions
    simp only [notBlank, isMatch, Bool.false_eq_true, if_false]
  have isLimit : readLimit ((searchFor text).get "limit") = .ok 1 := by
    change readLimit (some "1") = .ok 1
    rfl
  have names : ∀ name ∈ (searchFor text).map Prod.fst,
      checkName (searchFor text) name = .ok () := by
    intro name member
    simp only [searchFor, List.map_cons, List.map_nil, List.mem_cons,
      List.not_mem_nil, or_false] at member
    rcases member with rfl | rfl | rfl
    all_goals rfl
  rw [readRequest_ok_iff]
  refine ⟨names, rfl, rfl, isLimit, ⟨_, [], [], [], [], [], isText, rfl, rfl,
    rfl, rfl, rfl, rfl⟩, rfl⟩

theorem cursor_usable_iff_ascii : ∃ request,
    readRequest readerPlatform "mainnet" (searchFor "logo") = .ok request ∧
    CursorUsable readerPlatform request.query .score
      ((SORTS .score).key (sampleScores 0 "t" none)) := by
  have accepted := searchFor_accepted "logo" "\"logo\"" (by decide)
    (by decide +kernel)
  have member : sampleScores 0 "t" none ∈ foundDb.rows := List.mem_cons_self
  refine ⟨_, accepted, (cursor_usable_iff readerPlatform_standard accepted
    member .score).mpr ⟨?_, (nomatch ·)⟩⟩
  decide

/-- A search for a word of another script has no second page. -/
theorem wide_search_has_no_cursor :
    (∃ request, readRequest readerPlatform "mainnet" (searchFor "日本") =
        .ok request ∧
      ¬CursorUsable readerPlatform request.query request.sort
        ((SORTS request.sort).key (sampleScores 0 "t" none))) ∧
    serveApi "GET" true (handleDiscovery readerPlatform "mainnet" foundDb
      (searchFor "日本")) =
        .error { code := "INTERNAL_ERROR"
                 message := "An unexpected error occurred", status := 500 } := by
  have accepted := searchFor_accepted "日本" "\"日本\"" (by decide)
    (by decide +kernel)
  have wide : ¬Latin (cursorQuery (searchFor "日本")) := by
    rw [(readRequest_ok_iff.mp accepted).latin_query_iff]
    decide
  constructor
  · refine ⟨_, accepted, ?_⟩
    rw [cursorUsable_iff readerPlatform_standard
      (foundDb.key_exact List.mem_cons_self _) (key_fits _ _)]
    exact fun latin => wide latin.1
  · have more : (discoveryPage readerPlatform foundDb [.ftsMatch "\"日本\""]
        .score none 1).next.isSome := by
      rw [discoveryPage_eq]
      have split : (matchingAgents readerPlatform foundDb
          [.ftsMatch "\"日本\""]).mergeSort (sortKeyset .score).le =
            [] ++ (matchingAgents readerPlatform foundDb
              [.ftsMatch "\"日本\""]).mergeSort (sortKeyset .score).le := rfl
      apply ((sortKeyset_lawful .score).next_isSome_iff
        ((sortKeyset_separates foundDb .score).filter _) split
        (by decide)).mpr
      rw [List.length_mergeSort]
      decide
    have starts : startKey readerPlatform
        { sort := .score, limit := 1, conditions := [.ftsMatch "\"日本\""]
          query := cursorQuery (searchFor "日本") }
        ((searchFor "日本").get "cursor") = .ok none := rfl
    rw [handleDiscovery_thrown accepted wide starts rfl more]
    rfl

end Stellar8004.Web
