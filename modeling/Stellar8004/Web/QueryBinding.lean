import Stellar8004.Web.QueryText

/-!
# Cursors and queries

A cursor issued for one query and accepted for another.  Only the free texts
can hold what separates the parameters, so these decide which queries share
their text with another.
-/

namespace Stellar8004.Web

open Stellar8004.Indexer

/-! ## Accepted values -/

section

variable {value : Option String} {text : String}

theorem flag_cases {name : String} {condition : Bool → Condition}
    {conditions : List Condition}
    (isOk : flagConditions name condition value = .ok conditions)
    (isText : value = some text) : text = "true" ∨ text = "false" := by
  subst isText
  unfold flagConditions at isOk
  dsimp only at isOk
  split_ifs at isOk with isTrue isFalse
  · exact .inl isTrue
  · exact .inr isFalse

theorem flag_plain {name : String} {condition : Bool → Condition}
    {conditions : List Condition}
    (isOk : flagConditions name condition value = .ok conditions)
    (isText : value = some text) : '&' ∉ text.toList := by
  rcases flag_cases isOk isText with rfl | rfl
  · decide
  · decide

theorem sort_plain {sort : SortName} (isOk : readSort value = .ok sort)
    (isText : value = some text) : '&' ∉ text.toList := by
  subst isText
  unfold readSort at isOk
  cases found : [SortName.score, .newest, .id].find? fun sort =>
      sort.text = (some text).getD "score" with
  | none =>
      simp only [found] at isOk
      cases isOk
  | some other =>
      have same := List.find?_some found
      rw [decide_eq_true_eq, Option.getD_some] at same
      rw [← same]
      cases other <;> decide

theorem minScore_plain {conditions : List Condition}
    (isOk : minScoreConditions value = .ok conditions)
    (isText : value = some text) : '&' ∉ text.toList := by
  subst isText
  intro member
  unfold minScoreConditions at isOk
  simp only [number_ampersand member] at isOk
  cases isOk

theorem network_eq {network : String}
    (isOk : checkNetwork network value = .ok ()) : value = some network := by
  cases value with
  | none => cases isOk
  | some text =>
      unfold checkNetwork at isOk
      dsimp only at isOk
      split_ifs at isOk with empty other
      rw [not_not] at other
      rw [other]

theorem trust_notBlank {conditions : List Condition}
    (isOk : trustConditions value = .ok conditions)
    (isText : value = some text) : isBlank text = false := by
  subst isText
  unfold trustConditions at isOk
  dsimp only at isOk
  split_ifs at isOk with blank
  exact Bool.not_eq_true _ ▸ blank

theorem text_notBlank {platform : Platform} {conditions : List Condition}
    (isOk : textConditions platform value = .ok conditions)
    (isText : value = some text) : isBlank text = false := by
  subst isText
  unfold textConditions at isOk
  dsimp only at isOk
  split_ifs at isOk with blank
  exact Bool.not_eq_true _ ▸ blank

end

/-! ## The checked parameters -/

/-- The parameters that come before the free texts. -/
def checkedNames : List String :=
  ["hasServices", "minScore", "mpp", "network", "sort"]

def freeNames : List String := ["text", "trust", "x402"]

/-- The parameter has no separator. -/
def Params.Plain (params : Params) (name : String) : Prop :=
  ∀ text, params.get name = some text → '&' ∉ text.toList

theorem queryPairs_plain {name : String} {names : List String}
    {params other : Params}
    (told : Distinguished '=' String.toList (name :: names))
    (plain : params.Plain name) (plain' : other.Plain name)
    (same : queryPairs (name :: names) params =
      queryPairs (name :: names) other) :
    params.get name = other.get name ∧
      queryPairs names params = queryPairs names other := by
  have equal := told.value same
    (fun value isValue => by
      obtain ⟨text, isText, rfl⟩ := Option.map_eq_some_iff.mp isValue
      exact plain text isText)
    (fun value isValue => by
      obtain ⟨text, isText, rfl⟩ := Option.map_eq_some_iff.mp isValue
      exact plain' text isText)
  exact ⟨Option.map_injective (fun _ _ => String.toList_injective) equal,
    joinedPairs_rest same equal⟩

theorem queryPairs_fixed {name : String} {names : List String}
    {params other : Params} (equal : params.get name = other.get name)
    (same : queryPairs (name :: names) params =
      queryPairs (name :: names) other) :
    queryPairs names params = queryPairs names other :=
  joinedPairs_rest same (congrArg (Option.map String.toList) equal)

section

variable {platform : Platform} {network : String} {params other : Params}
  {request later : DiscoveryRequest}
  (accepted : Accepted platform network params request)

include accepted

theorem Accepted.plain : ∀ name ∈ ["hasServices", "minScore", "mpp", "sort"],
    params.Plain name := by
  obtain ⟨_, _, _, _, _, _, -, -, isMpp, isServices, -, isMinScore, -⟩ :=
    accepted.conditions
  intro name member
  simp only [List.mem_cons, List.not_mem_nil, or_false] at member
  rcases member with rfl | rfl | rfl | rfl
  · exact fun text => flag_plain isServices
  · exact fun text => minScore_plain isMinScore
  · exact fun text => flag_plain isMpp
  · exact fun text => sort_plain accepted.sort

/-- Requests of one query agree on what was checked, and the rest of the
query is the same. -/
theorem Accepted.checked_eq
    (again : Accepted platform network other later)
    (same : later.query = request.query) :
    (∀ name ∈ checkedNames, params.get name = other.get name) ∧
      queryPairs freeNames params = queryPairs freeNames other := by
  have whole : queryPairs queryNames params = queryPairs queryNames other := by
    rw [← accepted.query_eq, ← again.query_eq, same]
  have told := queryNames_told
  obtain ⟨services, whole⟩ := queryPairs_plain told
    (accepted.plain _ (by decide)) (again.plain _ (by decide)) whole
  obtain ⟨minScore, whole⟩ := queryPairs_plain told.tail
    (accepted.plain _ (by decide)) (again.plain _ (by decide)) whole
  obtain ⟨mpp, whole⟩ := queryPairs_plain told.tail.tail
    (accepted.plain _ (by decide)) (again.plain _ (by decide)) whole
  have isNetwork : params.get "network" = other.get "network" := by
    rw [network_eq accepted.network, network_eq again.network]
  have whole := queryPairs_fixed isNetwork whole
  obtain ⟨sort, whole⟩ := queryPairs_plain told.tail.tail.tail.tail
    (accepted.plain _ (by decide)) (again.plain _ (by decide)) whole
  refine ⟨fun name member => ?_, whole⟩
  simp only [checkedNames, List.mem_cons, List.not_mem_nil, or_false] at member
  rcases member with rfl | rfl | rfl | rfl | rfl
  · exact services
  · exact minScore
  · exact mpp
  · exact isNetwork
  · exact sort

/-- Accepted requests that agree on the names of the query agree. -/
theorem Accepted.agree_of_names
    (again : Accepted platform network other later)
    (checked : ∀ name ∈ checkedNames, params.get name = other.get name)
    (free : ∀ name ∈ freeNames, params.get name = other.get name) :
    params.Agree other := by
  have unknown : ∀ {known : Params} {known' : DiscoveryRequest},
      Accepted platform network known known' → ∀ name ∉ PARAMS,
        known.get name = none := by
    intro known known' isKnown name absent
    by_contra some
    obtain ⟨value, isValue⟩ := Option.ne_none_iff_exists'.mp some
    rw [Params.get_eq_some_iff isKnown.nodup] at isValue
    exact absent (name_mem_of_checkName (isKnown.names name
      (List.mem_map_of_mem isValue)))
  intro name notCursor notLimit
  by_cases known : name ∈ PARAMS
  · have member := mem_queryNames_iff.mpr ⟨known, notCursor, notLimit⟩
    rcases List.mem_append.mp
      (show name ∈ checkedNames ++ freeNames from member) with
        isChecked | isFree
    · exact checked name isChecked
    · exact free name isFree
  · rw [unknown accepted name known, unknown again name known]

end

/-! ## The free texts -/

/-- The values behind the checked parameters. -/
structure FreeValues where
  text : Option String
  trust : Option String
  x402 : Option String

/-- What the checks leave of them. -/
structure FreeValues.Valid (values : FreeValues) : Prop where
  text : ∀ text, values.text = some text → isBlank text = false
  trust : ∀ trust, values.trust = some trust → isBlank trust = false
  x402 : ∀ flag, values.x402 = some flag → flag = "true" ∨ flag = "false"

def FreeValues.get (values : FreeValues) (name : String) : Option String :=
  if name = "text" then values.text
  else if name = "trust" then values.trust
  else values.x402

def FreeValues.written (values : FreeValues) : List Char :=
  joinedPairs '&' '=' String.toList freeNames fun name =>
    (values.get name).map String.toList

def pairText (name : String) : Option String → String
  | none => ""
  | some value => "&" ++ name ++ "=" ++ value

theorem FreeValues.written_eq (values : FreeValues) :
    values.written = (pairText "text" values.text ++
      (pairText "trust" values.trust ++ pairText "x402" values.x402)).toList := by
  have pair : ∀ (name : String) (value : Option String),
      joinedPair '&' '=' String.toList name (value.map String.toList) =
        (pairText name value).toList := by
    intro name value
    cases value with
    | none => rfl
    | some value => simp [joinedPair, pairText]
  rw [written, freeNames, joinedPairs_cons, joinedPairs_cons, joinedPairs_cons,
    pair, pair, pair, String.toList_append, String.toList_append]
  simp [joinedPairs, FreeValues.get]

/-- The value could be read as one with the flag behind it. -/
def EndsInFlag (value : String) : Prop :=
  ∃ front flag, isBlank front = false ∧ (flag = "true" ∨ flag = "false") ∧
    value = front ++ "&x402=" ++ flag

/-- The value could be read as a text with a trust behind it. -/
def HoldsTrust (value : String) : Prop :=
  ∃ front trust, isBlank front = false ∧ isBlank trust = false ∧
    value = front ++ "&trust=" ++ trust

/-- Nothing else is written the same. -/
def FreeValues.Unsplit (values : FreeValues) : Prop :=
  match values.text, values.trust with
  | none, none => True
  | some text, none =>
      values.x402 = none ∧ ¬EndsInFlag text ∧ ¬HoldsTrust text
  | none, some trust => values.x402 = none ∧ ¬EndsInFlag trust
  | some _, some _ => False

theorem isBlank_append {front : String} (notBlank : isBlank front = false)
    (rest : String) : isBlank (front ++ rest) = false := by
  rw [← Bool.not_eq_true, isBlank_iff] at notBlank ⊢
  intro all
  apply notBlank
  intro char member
  exact all char (by rw [String.toList_append]; exact List.mem_append_left _ member)

theorem freeNames_told : Distinguished '=' String.toList freeNames :=
  queryNames_told.tail.tail.tail.tail.tail

section

variable {values other : FreeValues} (same : values.written = other.written)

include same

theorem FreeValues.text_none_iff : values.text = none ↔ other.text = none := by
  have absent : ∀ {left right : FreeValues}, left.written = right.written →
      left.text = none → right.text = none := by
    intro left right isSame isNone
    exact Option.map_eq_none_iff.mp (freeNames_told.absent isSame
      (Option.map_eq_none_iff.mpr isNone))
  exact ⟨absent same, absent same.symm⟩

theorem FreeValues.trust_none_iff (text : values.text = other.text) :
    values.trust = none ↔ other.trust = none := by
  have absent : ∀ {left right : FreeValues}, left.written = right.written →
      left.text = right.text → left.trust = none → right.trust = none := by
    intro left right isSame isText isNone
    have rest := joinedPairs_rest isSame (congrArg (Option.map _) isText)
    exact Option.map_eq_none_iff.mp (freeNames_told.tail.absent rest
      (Option.map_eq_none_iff.mpr isNone))
  exact ⟨absent same text, absent same.symm text.symm⟩

theorem FreeValues.texts_eq :
    pairText "text" values.text ++ (pairText "trust" values.trust ++
        pairText "x402" values.x402) =
      pairText "text" other.text ++ (pairText "trust" other.trust ++
        pairText "x402" other.x402) := by
  rw [values.written_eq, other.written_eq] at same
  exact String.toList_injective same

end

theorem pairText_injective (name : String) :
    Function.Injective (pairText name) := by
  intro left right same
  cases left with
  | none =>
      cases right with
      | none => rfl
      | some right =>
          have lists := congrArg String.toList same
          simp [pairText] at lists
  | some left =>
      cases right with
      | none =>
          have lists := congrArg String.toList same
          simp [pairText] at lists
      | some right =>
          rw [pairText, pairText, String.append_right_inj] at same
          rw [same]

@[simp]
theorem pairText_none (name : String) : pairText name none = "" := rfl

theorem pairText_extend (name front rest : String) :
    pairText name (some (front ++ rest)) =
      pairText name (some front) ++ rest := by
  simp only [pairText, String.append_assoc]

/-- A value without what is written behind it. -/
theorem pairText_append {name value other rest : String}
    (same : pairText name (some value) = pairText name (some other) ++ rest) :
    value = other ++ rest := by
  rw [← pairText_extend] at same
  exact Option.some.inj (pairText_injective name same)

theorem pairText_x402 (flag : String) :
    pairText "x402" (some flag) = "&x402=" ++ flag := rfl

theorem pairText_trust (trust : String) :
    pairText "trust" (some trust) = "&trust=" ++ trust := rfl

/-- Where a value cannot be split, what was written is read in one way. -/
theorem FreeValues.eq_of_unsplit {values other : FreeValues}
    (valid : other.Valid) (unsplit : values.Unsplit)
    (same : values.written = other.written) : values = other := by
  have texts := FreeValues.texts_eq same
  have textNone := FreeValues.text_none_iff same
  have trustNone := FreeValues.trust_none_iff same
  obtain ⟨text, trust, x402⟩ := values
  obtain ⟨text', trust', x402'⟩ := other
  simp only [Unsplit] at unsplit texts textNone trustNone
  cases text with
  | none =>
      obtain rfl := textNone.mp rfl
      have trustNone := trustNone rfl
      rw [pairText_none, String.empty_append, String.empty_append] at texts
      cases trust with
      | none =>
          obtain rfl := trustNone.mp rfl
          rw [pairText_none, String.empty_append, String.empty_append] at texts
          rw [pairText_injective "x402" texts]
      | some trust =>
          obtain ⟨rfl, noFlag⟩ := unsplit
          obtain ⟨trust', rfl⟩ := Option.ne_none_iff_exists'.mp
            fun isNone => (nomatch trustNone.mpr isNone)
          rw [pairText_none, String.append_empty] at texts
          have isTrust := pairText_append texts
          cases x402' with
          | none =>
              rw [isTrust, pairText_none, String.append_empty]
          | some flag =>
              apply absurd _ noFlag
              refine ⟨trust', flag, valid.trust trust' rfl,
                valid.x402 flag rfl, ?_⟩
              rw [isTrust, pairText_x402, String.append_assoc]
  | some text =>
      cases trust with
      | some trust => exact unsplit.elim
      | none =>
          obtain ⟨rfl, noFlag, noTrust⟩ := unsplit
          obtain ⟨text', rfl⟩ := Option.ne_none_iff_exists'.mp
            fun isNone => (nomatch textNone.mpr isNone)
          rw [pairText_none, pairText_none, String.append_empty,
            String.append_empty] at texts
          have isText := pairText_append texts
          cases trust' with
          | none =>
              rw [pairText_none, String.empty_append] at isText
              cases x402' with
              | none =>
                  rw [isText, pairText_none, String.append_empty]
              | some flag =>
                  apply absurd _ noFlag
                  refine ⟨text', flag, valid.text text' rfl,
                    valid.x402 flag rfl, ?_⟩
                  rw [isText, pairText_x402, String.append_assoc]
          | some trust' =>
              apply absurd _ noTrust
              refine ⟨text', trust' ++ pairText "x402" x402',
                valid.text text' rfl,
                isBlank_append (valid.trust trust' rfl) _, ?_⟩
              rw [isText, pairText_trust]
              simp only [String.append_assoc]

/-! ## Values written like others -/

theorem notBlank_none (text : String) (impossible : none = some text) :
    isBlank text = false :=
  nomatch impossible

theorem notBlank_some {text : String} (notBlank : isBlank text = false)
    (other : String) (same : some text = some other) :
    isBlank other = false :=
  Option.some.inj same ▸ notBlank

theorem flag_none (flag : String) (impossible : none = some flag) :
    flag = "true" ∨ flag = "false" :=
  nomatch impossible

theorem flag_some {flag : String} (isFlag : flag = "true" ∨ flag = "false")
    (other : String) (same : some flag = some other) :
    other = "true" ∨ other = "false" :=
  Option.some.inj same ▸ isFlag

theorem FreeValues.written_of_texts {values other : FreeValues}
    (same : pairText "text" values.text ++ (pairText "trust" values.trust ++
        pairText "x402" values.x402) =
      pairText "text" other.text ++ (pairText "trust" other.trust ++
        pairText "x402" other.x402)) : values.written = other.written := by
  rw [values.written_eq, other.written_eq, same]

theorem FreeValues.written_trust_flag (trust flag : String) :
    written ⟨none, some (trust ++ pairText "x402" (some flag)), none⟩ =
      written ⟨none, some trust, some flag⟩ := by
  apply written_of_texts
  simp only [pairText_extend, pairText_none, String.append_empty]

theorem FreeValues.written_text_flag (text flag : String) :
    written ⟨some (text ++ pairText "x402" (some flag)), none, none⟩ =
      written ⟨some text, none, some flag⟩ := by
  apply written_of_texts
  simp only [pairText_extend, pairText_none, String.append_empty,
    String.empty_append]

theorem FreeValues.written_text_trust (text trust : String)
    (x402 : Option String) :
    written ⟨some (text ++ (pairText "trust" (some trust) ++
        pairText "x402" x402)), none, none⟩ =
      written ⟨some text, some trust, x402⟩ := by
  apply written_of_texts
  simp only [pairText_extend, pairText_none, String.append_empty]

/-- A trust that can be split, or that a flag follows. -/
theorem FreeValues.exists_other_trust {trust : String} {x402 : Option String}
    (valid : Valid ⟨none, some trust, x402⟩)
    (split : ¬Unsplit ⟨none, some trust, x402⟩) :
    ∃ other : FreeValues, other.Valid ∧
      other.written = written ⟨none, some trust, x402⟩ ∧
      ⟨none, some trust, x402⟩ ≠ other := by
  have notBlank := valid.trust trust rfl
  cases x402 with
  | some flag =>
      refine ⟨_, ⟨notBlank_none, ?_, flag_none⟩, written_trust_flag trust flag,
        by simp⟩
      exact notBlank_some (isBlank_append notBlank _)
  | none =>
      have ends : EndsInFlag trust := by
        by_contra noEnd
        exact split ⟨rfl, noEnd⟩
      obtain ⟨front, flag, isFront, isFlag, rfl⟩ := ends
      rw [String.append_assoc, ← pairText_x402, written_trust_flag]
      refine ⟨_, ⟨notBlank_none, ?_, ?_⟩, rfl, by simp⟩
      · exact notBlank_some isFront
      · exact flag_some isFlag

/-- A text that can be split, or that another value follows. -/
theorem FreeValues.exists_other_text {text : String}
    {trust x402 : Option String} (valid : Valid ⟨some text, trust, x402⟩)
    (split : ¬Unsplit ⟨some text, trust, x402⟩) :
    ∃ other : FreeValues, other.Valid ∧
      other.written = written ⟨some text, trust, x402⟩ ∧
      ⟨some text, trust, x402⟩ ≠ other := by
  have notBlank := valid.text text rfl
  cases trust with
  | some trust =>
      refine ⟨_, ⟨?_, notBlank_none, flag_none⟩,
        written_text_trust text trust x402, by simp⟩
      exact notBlank_some (isBlank_append notBlank _)
  | none =>
      cases x402 with
      | some flag =>
          refine ⟨_, ⟨?_, notBlank_none, flag_none⟩,
            written_text_flag text flag, by simp⟩
          exact notBlank_some (isBlank_append notBlank _)
      | none =>
          by_cases ends : EndsInFlag text
          · obtain ⟨front, flag, isFront, isFlag, rfl⟩ := ends
            rw [String.append_assoc, ← pairText_x402, written_text_flag]
            refine ⟨_, ⟨?_, notBlank_none, ?_⟩, rfl, by simp⟩
            · exact notBlank_some isFront
            · exact flag_some isFlag
          · have holds : HoldsTrust text := by
              by_contra noTrust
              exact split ⟨rfl, ends, noTrust⟩
            obtain ⟨front, trust, isFront, isTrust, rfl⟩ := holds
            have joined := written_text_trust front trust none
            rw [pairText_none, String.append_empty] at joined
            rw [String.append_assoc, ← pairText_trust, joined]
            refine ⟨_, ⟨?_, ?_, flag_none⟩, rfl, by simp⟩
            · exact notBlank_some isFront
            · exact notBlank_some isTrust

/-- A value that can be split is written like other values. -/
theorem FreeValues.exists_other {values : FreeValues} (valid : values.Valid)
    (split : ¬values.Unsplit) : ∃ other : FreeValues, other.Valid ∧
      other.written = values.written ∧ values ≠ other := by
  obtain ⟨text, trust, x402⟩ := values
  cases text with
  | some text => exact exists_other_text valid split
  | none =>
      cases trust with
      | none => exact absurd trivial split
      | some trust => exact exists_other_trust valid split

/-! ## Requests that share a query -/

def Params.free (params : Params) : FreeValues :=
  { text := params.get "text", trust := params.get "trust"
    x402 := params.get "x402" }

theorem queryPairs_free (params : Params) :
    queryPairs freeNames params = params.free.written := rfl

theorem queryPairs_append (params : Params) :
    queryPairs queryNames params =
      queryPairs checkedNames params ++ queryPairs freeNames params := by
  have split : queryNames = checkedNames ++ freeNames := rfl
  unfold queryPairs joinedPairs
  rw [split, List.flatMap_append]

/-- The values a request has under the names of the query, some replaced. -/
def Params.withFree (params : Params) (free : FreeValues) : Params :=
  .ofValues fun name =>
    if name ∈ freeNames then free.get name else params.get name

section

variable (params : Params) (free : FreeValues)

theorem get_withFree_checked {name : String} (member : name ∈ checkedNames) :
    (params.withFree free).get name = params.get name := by
  have inQuery : name ∈ queryNames := List.mem_append_left freeNames member
  have notFree : name ∉ freeNames := by
    revert name
    decide
  rw [Params.withFree, get_ofValues _ inQuery, if_neg notFree]

theorem get_withFree_free {name : String} (member : name ∈ freeNames) :
    (params.withFree free).get name = free.get name := by
  have inQuery : name ∈ queryNames := List.mem_append_right checkedNames member
  rw [Params.withFree, get_ofValues _ inQuery, if_pos member]

theorem free_withFree : (params.withFree free).free = free := by
  have text := get_withFree_free params free (show "text" ∈ freeNames by decide)
  have trust := get_withFree_free params free
    (show "trust" ∈ freeNames by decide)
  have x402 := get_withFree_free params free (show "x402" ∈ freeNames by decide)
  unfold Params.free
  rw [text, trust, x402]
  rfl

theorem get_withFree_limit : (params.withFree free).get "limit" = none := by
  cases isLimit : (params.withFree free).get "limit" with
  | none => rfl
  | some value =>
      have member := (Params.get_eq_some_iff (ofValues_nodup _)).mp isLimit
      have inQuery : "limit" ∈ queryNames := (mem_ofValues_iff.mp member).1
      exact absurd inQuery (by decide)

theorem checkName_withFree {name : String}
    (member : name ∈ (params.withFree free).map Prod.fst) :
    checkName (params.withFree free) name = .ok () := by
  obtain ⟨param, inParams, rfl⟩ := List.mem_map.mp member
  have inQuery := (mem_ofValues_iff.mp inParams).1
  have known := (mem_queryNames_iff.mp inQuery).1
  have distinct : ((params.withFree free).map Prod.fst).Nodup :=
    ofValues_nodup _
  have once := List.nodup_iff_count_le_one.mp distinct param.1
  rw [count_names] at once
  unfold checkName
  rw [if_neg (not_not.mpr known), if_neg (Nat.not_lt.mpr once)]

end

theorem textConditions_ok (platform : Platform) {value : Option String}
    (notBlank : ∀ text, value = some text → isBlank text = false) :
    ∃ conditions, textConditions platform value = .ok conditions := by
  cases value with
  | none => exact ⟨_, rfl⟩
  | some text =>
      have searched := notBlank text rfl
      cases isMatch : ftsMatch platform text with
      | none =>
          refine ⟨[.nothing], ?_⟩
          simp only [textConditions, searched, isMatch, Bool.false_eq_true,
            if_false]
      | some query =>
          refine ⟨[.ftsMatch query], ?_⟩
          simp only [textConditions, searched, isMatch, Bool.false_eq_true,
            if_false]

theorem trustConditions_ok {value : Option String}
    (notBlank : ∀ trust, value = some trust → isBlank trust = false) :
    ∃ conditions, trustConditions value = .ok conditions := by
  cases value with
  | none => exact ⟨_, rfl⟩
  | some trust =>
      refine ⟨[.trustOverlap (trustValues trust)], ?_⟩
      simp only [trustConditions, notBlank trust rfl, Bool.false_eq_true,
        if_false]

theorem flagConditions_ok (name : String) (condition : Bool → Condition)
    {value : Option String}
    (isFlag : ∀ flag, value = some flag → flag = "true" ∨ flag = "false") :
    ∃ conditions, flagConditions name condition value = .ok conditions := by
  cases value with
  | none => exact ⟨_, rfl⟩
  | some flag =>
      rcases isFlag flag rfl with rfl | rfl
      · exact ⟨[condition true], rfl⟩
      · exact ⟨[condition false], rfl⟩

section

variable {platform : Platform} {network : String} {params : Params}
  {request : DiscoveryRequest}
  (accepted : Accepted platform network params request)

include accepted

theorem Accepted.free_valid : params.free.Valid := by
  obtain ⟨_, _, _, _, _, _, isText, isX402, -, -, isTrust, -⟩ :=
    accepted.conditions
  exact ⟨fun _ => text_notBlank isText, fun _ => trust_notBlank isTrust,
    fun _ => flag_cases isX402⟩

/-- Free texts that are written the same make a request of the same query. -/
theorem Accepted.with_free {free : FreeValues} (valid : free.Valid)
    (same : free.written = params.free.written) :
    ∃ later, Accepted platform network (params.withFree free) later ∧
      later.query = request.query ∧ later.sort = request.sort := by
  have kept := fun {name : String} (member : name ∈ checkedNames) =>
    get_withFree_checked params free member
  have text : (params.withFree free).get "text" = free.text :=
    get_withFree_free params free (by decide)
  have trust : (params.withFree free).get "trust" = free.trust :=
    get_withFree_free params free (by decide)
  have x402 : (params.withFree free).get "x402" = free.x402 :=
    get_withFree_free params free (by decide)
  obtain ⟨_, _, mpp, services, _, minScore, -, -, isMpp, isServices, -,
    isMinScore, -⟩ := accepted.conditions
  obtain ⟨texts, isText⟩ := textConditions_ok platform valid.text
  obtain ⟨trusts, isTrust⟩ := trustConditions_ok valid.trust
  obtain ⟨flags, isX402⟩ := flagConditions_ok "x402" .x402 valid.x402
  have again : Accepted platform network (params.withFree free)
      { sort := request.sort, limit := 20
        query := cursorQuery (params.withFree free)
        conditions := texts ++ flags ++ mpp ++ services ++ trusts ++
          minScore } := by
    refine ⟨fun name member => checkName_withFree params free member, ?_, ?_,
      ?_, ⟨texts, flags, mpp, services, trusts, minScore, ?_, ?_, ?_, ?_, ?_,
      ?_, rfl⟩, rfl⟩
    · rw [kept (by decide)]
      exact accepted.network
    · rw [kept (by decide)]
      exact accepted.sort
    · rw [get_withFree_limit]
      rfl
    · rw [text]
      exact isText
    · rw [x402]
      exact isX402
    · rw [kept (by decide)]
      exact isMpp
    · rw [kept (by decide)]
      exact isServices
    · rw [trust]
      exact isTrust
    · rw [kept (by decide)]
      exact isMinScore
  refine ⟨_, again, ?_, rfl⟩
  have checked : queryPairs checkedNames (params.withFree free) =
      queryPairs checkedNames params := by
    unfold queryPairs joinedPairs
    apply List.flatMap_congr
    intro name member
    simp only [kept member]
  have written := again.query_eq
  rw [queryPairs_append, checked, queryPairs_free, free_withFree, same,
    ← queryPairs_free, ← queryPairs_append, ← accepted.query_eq] at written
  exact String.toList_injective (List.cons.inj written).2

/-- Where no value can be split, requests of one query agree. -/
theorem Accepted.agree_of_unsplit (unsplit : params.free.Unsplit)
    {other : Params} {later : DiscoveryRequest}
    (again : Accepted platform network other later)
    (same : later.query = request.query) : params.Agree other := by
  obtain ⟨checked, written⟩ := accepted.checked_eq again same
  have free := FreeValues.eq_of_unsplit again.free_valid unsplit written
  refine accepted.agree_of_names again checked fun name member => ?_
  simp only [freeNames, List.mem_cons, List.not_mem_nil, or_false] at member
  rcases member with rfl | rfl | rfl
  · exact congrArg FreeValues.text free
  · exact congrArg FreeValues.trust free
  · exact congrArg FreeValues.x402 free

/-- Where a value can be split, another request has the query. -/
theorem Accepted.exists_other (split : ¬params.free.Unsplit) :
    ∃ other later, Accepted platform network other later ∧
      later.query = request.query ∧ later.sort = request.sort ∧
      ¬params.Agree other := by
  obtain ⟨free, valid, same, differ⟩ := FreeValues.exists_other
    accepted.free_valid split
  obtain ⟨later, again, query, sort⟩ := accepted.with_free valid same
  refine ⟨_, later, again, query, sort, fun agree => differ ?_⟩
  rw [← free_withFree params free]
  unfold Params.free
  rw [agree "text" (by decide) (by decide),
    agree "trust" (by decide) (by decide),
    agree "x402" (by decide) (by decide)]

end

/-- A page of the request, in some database, has handed out the cursor. -/
def Issued (platform : Platform) (request : DiscoveryRequest)
    (cursor : String) : Prop :=
  ∃ db : DiscoveryDb, ∃ row ∈ db.rows,
    encodeCursor platform request.query ((SORTS request.sort).key row) =
      some cursor

/-- A query of one byte a character has cursors. -/
theorem exists_issued {platform : Platform} (standard : platform.Standard)
    {request : DiscoveryRequest} (latin : Latin request.query) :
    ∃ cursor, Issued platform request cursor := by
  have member : sampleScores 0 "t" none ∈ foundDb.rows := List.mem_cons_self
  have usable := (cursorUsable_iff standard
    (foundDb.key_exact member request.sort)
    (key_fits request.sort (sampleScores 0 "t" none))).mpr
      ⟨latin, (key_latin_iff request.sort _).mpr fun _ => by decide⟩
  obtain ⟨cursor, issued, -⟩ := usable
  exact ⟨cursor, foundDb, _, member, issued⟩

section

variable {platform : Platform} (standard : platform.Standard)
  {request later : DiscoveryRequest} {cursor : String}
  (issued : Issued platform request cursor)

include standard issued

theorem Issued.query_eq
    (decoded : (decodeCursor platform cursor later.query later.sort).isSome) :
    later.query = request.query := by
  obtain ⟨db, row, member, encoded⟩ := issued
  obtain ⟨key, isKey⟩ := Option.isSome_iff_exists.mp decoded
  exact ((decodeCursor_issued_iff standard (db.key_exact member _) encoded _
    _).mp isKey).1.symm

theorem Issued.decoded (query : later.query = request.query)
    (sort : later.sort = request.sort) :
    (decodeCursor platform cursor later.query later.sort).isSome := by
  obtain ⟨db, row, member, encoded⟩ := issued
  rw [query, sort]
  exact Option.isSome_of_eq_some ((decodeCursor_issued_iff standard
    (db.key_exact member _) encoded _ _).mpr ⟨rfl, key_fits _ row, rfl⟩)

end

/-- The cursors of a request are bound to it, and its query is that of no
other, exactly where neither of its free texts can be split; a request whose
query `btoa` refuses has no cursors. -/
theorem cursor_bound_iff {platform : Platform} (standard : platform.Standard)
    {network : String} {params : Params} {request : DiscoveryRequest}
    (accepted : readRequest platform network params = .ok request) :
    ((∀ other later cursor,
        readRequest platform network other = .ok later →
        Issued platform request cursor →
        (decodeCursor platform cursor later.query later.sort).isSome →
          params.Agree other) ↔
      (Latin request.query → params.free.Unsplit)) ∧
    ((∀ other later, readRequest platform network other = .ok later →
        later.query = request.query → params.Agree other) ↔
      params.free.Unsplit) := by
  rw [readRequest_ok_iff] at accepted
  constructor
  · constructor
    · intro bound latin
      by_contra split
      obtain ⟨other, later, again, query, sort, differ⟩ :=
        accepted.exists_other split
      obtain ⟨cursor, issued⟩ := exists_issued standard latin
      exact differ (bound other later cursor (readRequest_ok_iff.mpr again)
        issued (issued.decoded standard query sort))
    · intro unsplit other later cursor again issued decoded
      have latin : Latin request.query := by
        obtain ⟨db, row, member, encoded⟩ := issued
        have usable := (latin_cursorJson standard
          (db.key_exact member _)).mp (encodeCursor_isSome_iff.mp
            (Option.isSome_of_eq_some encoded))
        exact usable.1
      exact accepted.agree_of_unsplit (unsplit latin)
        (readRequest_ok_iff.mp again) (issued.query_eq standard decoded)
  · constructor
    · intro injective
      by_contra split
      obtain ⟨other, later, again, query, -, differ⟩ :=
        accepted.exists_other split
      exact differ (injective other later (readRequest_ok_iff.mpr again) query)
    · intro unsplit other later again query
      exact accepted.agree_of_unsplit unsplit (readRequest_ok_iff.mp again)
        query

/-- A value without the separator cannot be split. -/
theorem not_split_of_plain {text : String} (plain : '&' ∉ text.toList) :
    ¬EndsInFlag text ∧ ¬HoldsTrust text := by
  constructor
  · rintro ⟨front, flag, -, -, rfl⟩
    apply plain
    simp
  · rintro ⟨front, trust, -, -, rfl⟩
    apply plain
    simp

theorem cursor_bound_iff_plain : ∃ request,
    readRequest readerPlatform "mainnet" (searchFor "logo") = .ok request ∧
    ∀ other later cursor,
      readRequest readerPlatform "mainnet" other = .ok later →
      Issued readerPlatform request cursor →
      (decodeCursor readerPlatform cursor later.query later.sort).isSome →
        (searchFor "logo").Agree other := by
  have accepted := searchFor_accepted "logo" "\"logo\"" (by decide)
    (by decide +kernel)
  have plain : '&' ∉ "logo".toList := by decide
  exact ⟨_, accepted, (cursor_bound_iff readerPlatform_standard
    accepted).1.mpr fun _ => ⟨rfl, not_split_of_plain plain⟩⟩

/-- A text with a trust behind it. -/
def searchTrusting : Params :=
  [("network", "mainnet"), ("text", "x"), ("trust", "y")]

theorem searchTrusting_accepted :
    readRequest readerPlatform "mainnet" searchTrusting =
      .ok { sort := .score, limit := 20
            conditions := [.ftsMatch "\"x\"", .trustOverlap ["y"]]
            query := cursorQuery searchTrusting } := by
  have isMatch : ftsMatch readerPlatform "x" = some "\"x\"" := by
    decide +kernel
  have notBlank : isBlank "x" = false := by decide
  have isText : textConditions readerPlatform (some "x") =
      .ok [.ftsMatch "\"x\""] := by
    unfold textConditions
    simp only [notBlank, isMatch, Bool.false_eq_true, if_false]
  have names : ∀ name ∈ searchTrusting.map Prod.fst,
      checkName searchTrusting name = .ok () := by
    intro name member
    simp only [searchTrusting, List.map_cons, List.map_nil, List.mem_cons,
      List.not_mem_nil, or_false] at member
    rcases member with rfl | rfl | rfl
    all_goals rfl
  rw [readRequest_ok_iff]
  exact ⟨names, rfl, rfl, rfl, ⟨_, [], [], [], _, [], isText, rfl, rfl, rfl,
    rfl, rfl, rfl⟩, rfl⟩

/-- A cursor of a search for the text of both is taken as theirs. -/
theorem cursor_of_another_query : ∃ request later cursor,
    readRequest readerPlatform "mainnet" (searchFor "x&trust=y") =
      .ok request ∧
    readRequest readerPlatform "mainnet" searchTrusting = .ok later ∧
    Issued readerPlatform request cursor ∧
    (decodeCursor readerPlatform cursor later.query later.sort).isSome ∧
    ¬(searchFor "x&trust=y").Agree searchTrusting := by
  have accepted := searchFor_accepted "x&trust=y"
    "\"x\" AND \"trust\" AND \"y\"" (by decide) (by decide +kernel)
  have passed := readRequest_ok_iff.mp accepted
  have passed' := readRequest_ok_iff.mp searchTrusting_accepted
  have latin := passed.latin_query_iff.mpr (by decide)
  obtain ⟨cursor, issued⟩ := exists_issued readerPlatform_standard latin
  refine ⟨_, _, cursor, accepted, searchTrusting_accepted, issued, ?_, ?_⟩
  · apply issued.decoded readerPlatform_standard
    · have written := passed'.query_eq.trans passed.query_eq.symm
      exact String.toList_injective (List.cons.inj written).2
    · rfl
  · intro agree
    exact absurd (agree "trust" (by decide) (by decide)) (by decide)

end Stellar8004.Web
