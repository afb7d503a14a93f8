import Stellar8004.Library.PercentEncoding
import Stellar8004.Web.Discovery

/-!
# The paths of the public API

`guard` and `route` of `routes/api/v1/[...path]/+server.ts`.  A path is decoded
until nothing changes, six times at most; what it may then be is one of a few
endpoints with plain segments.
-/

namespace Stellar8004.Web

open Percent

/-- `encodeURIComponent` of a segment. -/
def encodeURIComponent (segment : String) : String :=
  String.ofList (encode segment.toList)

def ALLOWED_ENDPOINTS : List String :=
  ["agents", "accounts", "search", "stats", "health"]

/-- The loop of `guard`: decoded until nothing changes.  Nothing where
`decodeURIComponent` throws. -/
def decodeFully : (rounds : Nat) → List Char → Option (List Char)
  | 0, decoded => some decoded
  | rounds + 1, decoded =>
      match decode decoded with
      | none => none
      | some next =>
          if next = decoded then some decoded else decodeFully rounds next

/-- A segment that `guard` refuses. -/
def isDotOrEmpty (segment : String) : Bool :=
  segment = "" || segment = "." || segment = ".."

/-- The segments re-encoded, or nothing for a 404. -/
def guard (path : String) : Option (List String) :=
  match decodeFully 6 path.toList with
  | none => none
  | some decoded =>
      if '%' ∈ decoded ∨ '\\' ∈ decoded then none
      else
        let segments := (decoded.splitOn '/').map String.ofList
        if segments.headD "" ∉ ALLOWED_ENDPOINTS ∨
            segments.any isDotOrEmpty then none
        else some (segments.map encodeURIComponent)

/-! ## `route` -/

/-- The handlers of the router, with the segment each one reads. -/
inductive Endpoint where
  | health
  | stats
  | search
  | agentsList
  | agentDetail (param : String)
  | agentFeedback (param : String)
  | accounts (param : String)
  deriving DecidableEq

inductive Routed where
  | handler (endpoint : Endpoint)
  | wrongNetwork
  | notFound
  deriving DecidableEq

/-- `route`, where `network` is the parameter of the query. -/
def route (PUBLIC_STELLAR_NETWORK : String) (parts : List String)
    (network : Option String) : Routed :=
  if network ≠ none ∧ network ≠ some PUBLIC_STELLAR_NETWORK then .wrongNetwork
  else
    match parts with
    | [endpoint] =>
        if endpoint = "health" then .handler .health
        else if endpoint = "stats" then .handler .stats
        else if endpoint = "search" then .handler .search
        else if endpoint = "agents" then .handler .agentsList
        else .notFound
    | [endpoint, param] =>
        if endpoint = "agents" then .handler (.agentDetail param)
        else .notFound
    | [endpoint, param, sub] =>
        if endpoint = "agents" ∧ sub = "feedback" then
          .handler (.agentFeedback param)
        else if endpoint = "accounts" ∧ sub = "agents" then
          .handler (.accounts param)
        else .notFound
    | _ => .notFound

/-- `fallback`, for a request that `serveApi` hands on. -/
def fallback (PUBLIC_STELLAR_NETWORK path : String) (network : Option String) :
    Routed :=
  match guard path with
  | none => .notFound
  | some parts => route PUBLIC_STELLAR_NETWORK parts network

/-! ## Splitting -/

theorem separator_not_mem_splitOn {separator : Char} (text : List Char) :
    ∀ part ∈ text.splitOn separator, separator ∉ part := by
  induction text with
  | nil =>
      intro part member
      obtain rfl := List.mem_singleton.mp member
      exact List.not_mem_nil
  | cons char text induction =>
      rw [List.splitOn_cons_eq_if_modifyHead]
      split
      · intro part member
        rcases List.mem_cons.mp member with rfl | later
        · exact List.not_mem_nil
        · exact induction part later
      · rename_i other
        obtain ⟨head, tail, isSplit⟩ :=
          List.exists_cons_of_ne_nil (List.splitOn_ne_nil separator text)
        rw [isSplit] at induction ⊢
        intro part member
        rw [List.modifyHead_cons] at member
        rcases List.mem_cons.mp member with rfl | later
        · intro inside
          rcases List.mem_cons.mp inside with rfl | inside
          · exact other (beq_self_eq_true _)
          · exact induction head List.mem_cons_self inside
        · exact induction part (List.mem_cons_of_mem _ later)

/-! ## Plain segments -/

/-- The segments `guard` lets through. -/
structure PlainSegments (segments : List String) : Prop where
  known : segments.headD "" ∈ ALLOWED_ENDPOINTS
  named : ∀ segment ∈ segments, isDotOrEmpty segment = false
  plain : ∀ segment ∈ segments, ∀ char ∈ segment.toList,
    char ≠ '%' ∧ char ≠ '\\' ∧ char ≠ '/'

/-- The path of segments. -/
def joined (segments : List String) : List Char :=
  ['/'].intercalate (segments.map String.toList)

section

variable {segments : List String}

theorem joined_cons (first : String) {rest : List String} (more : rest ≠ []) :
    joined (first :: rest) = first.toList ++ '/' :: joined rest := by
  obtain ⟨second, others, rfl⟩ := List.exists_cons_of_ne_nil more
  unfold joined
  rw [List.map_cons, List.map_cons, List.intercalate_cons_cons,
    List.append_assoc]
  rfl

theorem mem_joined {char : Char} (member : char ∈ joined segments) :
    char = '/' ∨ ∃ segment ∈ segments, char ∈ segment.toList := by
  induction segments with
  | nil => cases member
  | cons first rest induction =>
      by_cases more : rest = []
      · subst more
        have inside : char ∈ first.toList := by simpa [joined] using member
        exact .inr ⟨first, List.mem_cons_self, inside⟩
      · rw [joined_cons first more] at member
        rcases List.mem_append.mp member with here | later
        · exact .inr ⟨first, List.mem_cons_self, here⟩
        · rcases List.mem_cons.mp later with isSlash | inside
          · exact .inl isSlash
          · refine (induction inside).imp id ?_
            rintro ⟨segment, isSegment, found⟩
            exact ⟨segment, List.mem_cons_of_mem _ isSegment, found⟩

theorem mem_joined_of_mem {segment : String} {char : Char}
    (isSegment : segment ∈ segments) (inside : char ∈ segment.toList) :
    char ∈ joined segments := by
  induction segments with
  | nil => cases isSegment
  | cons first rest induction =>
      by_cases more : rest = []
      · subst more
        obtain rfl := List.mem_singleton.mp isSegment
        simpa [joined] using inside
      · rw [joined_cons first more]
        rcases List.mem_cons.mp isSegment with rfl | later
        · exact List.mem_append_left _ inside
        · apply List.mem_append_right
          apply List.mem_cons_of_mem
          exact induction later

theorem PlainSegments.ne_nil (plain : PlainSegments segments) :
    segments ≠ [] := by
  rintro rfl
  exact absurd plain.known (by decide)

theorem PlainSegments.joined_plain (plain : PlainSegments segments) :
    '%' ∉ joined segments ∧ '\\' ∉ joined segments := by
  constructor
  · intro member
    rcases mem_joined member with never | ⟨segment, isSegment, inside⟩
    · cases never
    · exact (plain.plain segment isSegment _ inside).1 rfl
  · intro member
    rcases mem_joined member with never | ⟨segment, isSegment, inside⟩
    · cases never
    · exact (plain.plain segment isSegment _ inside).2.1 rfl

theorem PlainSegments.splitOn (plain : PlainSegments segments) :
    ((joined segments).splitOn '/').map String.ofList = segments := by
  have apart : ∀ part ∈ segments.map String.toList, '/' ∉ part := by
    intro part member inside
    obtain ⟨segment, isSegment, rfl⟩ := List.mem_map.mp member
    exact (plain.plain segment isSegment _ inside).2.2 rfl
  have some : segments.map String.toList ≠ [] := by
    intro none
    exact plain.ne_nil (List.map_eq_nil_iff.mp none)
  unfold joined
  rw [List.splitOn_intercalate '/' apart some, List.map_map]
  simp [Function.comp_def]

/-- Each segment encoded by itself is decoded by decoding the whole. -/
theorem decode_joined_encoded (segments : List String) :
    decode (joined (segments.map encodeURIComponent)) =
      some (joined segments) := by
  induction segments with
  | nil => rfl
  | cons first rest induction =>
      by_cases more : rest = []
      · subst more
        simpa [joined, encodeURIComponent] using decode_encode first.toList
      · have others : rest.map encodeURIComponent ≠ [] := by
          intro none
          exact more (List.map_eq_nil_iff.mp none)
        rw [List.map_cons, joined_cons _ others, encodeURIComponent,
          String.toList_ofList, decode_encode_append,
          decode_cons_plain (by decide), induction, joined_cons first more]
        rfl

end

/-! ## The guard -/

/-- Without percent signs left, the loop has decoded a number of times. -/
theorem decodeFully_iff {rounds : Nat} {text decoded : List Char}
    (plain : '%' ∉ decoded) :
    decodeFully rounds text = some decoded ↔
      ∃ times ≤ rounds, decodeTimes times text = some decoded := by
  induction rounds generalizing text with
  | zero =>
      constructor
      · exact fun same => ⟨0, Nat.le_refl _, same⟩
      · rintro ⟨times, none, same⟩
        obtain rfl := Nat.le_zero.mp none
        exact same
  | succ rounds induction =>
      unfold decodeFully
      constructor
      · intro same
        split at same
        · cases same
        · rename_i next isNext
          split at same
          · exact ⟨0, Nat.zero_le _, same⟩
          · obtain ⟨times, few, later⟩ := induction.mp same
            refine ⟨times + 1, Nat.succ_le_succ few, ?_⟩
            rw [decodeTimes, isNext, Option.bind_some, later]
      · rintro ⟨times, few, same⟩
        cases times with
        | zero =>
            obtain rfl : text = decoded := Option.some.inj same
            rw [decode_plain plain]
            simp only [if_true]
        | succ times =>
            rw [decodeTimes] at same
            obtain ⟨next, isNext, later⟩ := Option.bind_eq_some_iff.mp same
            rw [isNext]
            simp only
            split
            · rename_i fixed
              subst fixed
              rw [decodeTimes_plain (decode_eq_self_iff.mp isNext)] at later
              exact later
            · exact induction.mpr ⟨times, Nat.le_of_succ_le_succ few, later⟩

/-- What `guard` lets through: the paths that decoding turns, in six rounds at
most, into plain segments of an endpoint.  It answers these segments,
encoded. -/
theorem guard_eq_some_iff {path : String} {parts : List String} :
    guard path = some parts ↔
      ∃ segments, PlainSegments segments ∧
        parts = segments.map encodeURIComponent ∧
        ∃ times ≤ 6,
          decodeTimes times path.toList = some (joined segments) := by
  constructor
  · intro guarded
    unfold guard at guarded
    split at guarded
    · cases guarded
    · rename_i decoded isDecoded
      split at guarded
      · cases guarded
      · rename_i clean
        rw [not_or] at clean
        dsimp only at guarded
        split at guarded
        · cases guarded
        · rename_i accepted
          rw [not_or, not_not, Bool.not_eq_true, List.any_eq_false] at accepted
          cases guarded
          have whole : joined ((decoded.splitOn '/').map String.ofList) =
              decoded := by
            unfold joined
            rw [List.map_map]
            simp [Function.comp_def, List.intercalate_splitOn]
          refine ⟨_, ⟨accepted.1, ?_, ?_⟩, rfl, ?_⟩
          · exact fun segment member =>
              Bool.eq_false_iff.mpr (accepted.2 segment member)
          · intro segment member char inside
            have isDecoded : char ∈ decoded :=
              whole ▸ mem_joined_of_mem member inside
            refine ⟨?_, ?_, ?_⟩
            · rintro rfl
              exact clean.1 isDecoded
            · rintro rfl
              exact clean.2 isDecoded
            · rintro rfl
              obtain ⟨part, isPart, rfl⟩ := List.mem_map.mp member
              apply separator_not_mem_splitOn decoded part isPart
              simpa using inside
          · rw [whole]
            exact (decodeFully_iff clean.1).mp isDecoded
  · rintro ⟨segments, plain, rfl, within⟩
    have decoded := (decodeFully_iff plain.joined_plain.1).mpr within
    have unnamed : segments.any isDotOrEmpty = false :=
      List.any_eq_false.mpr fun segment member =>
        Bool.eq_false_iff.mp (plain.named segment member)
    unfold guard
    rw [decoded]
    simp only [plain.joined_plain, or_self, if_false, plain.splitOn, unnamed,
      plain.known, not_true, Bool.false_eq_true]

/-! ## What is reached -/

/-- The segments of a handler's path. -/
def Endpoint.segments : Endpoint → List String
  | health => ["health"]
  | stats => ["stats"]
  | search => ["search"]
  | agentsList => ["agents"]
  | agentDetail param => ["agents", param]
  | agentFeedback param => ["agents", param, "feedback"]
  | accounts param => ["accounts", param, "agents"]

/-- The handler as it is called, with its segment encoded. -/
def Endpoint.encoded : Endpoint → Endpoint
  | agentDetail param => agentDetail (encodeURIComponent param)
  | agentFeedback param => agentFeedback (encodeURIComponent param)
  | accounts param => accounts (encodeURIComponent param)
  | endpoint => endpoint

theorem encodeURIComponent_injective {first second : String}
    (same : encodeURIComponent first = encodeURIComponent second) :
    first = second := by
  have texts : encode first.toList = encode second.toList :=
    String.ofList_injective same
  have decoded := decode_encode first.toList
  rw [texts, decode_encode] at decoded
  exact (String.toList_injective (Option.some.inj decoded)).symm

theorem encodeURIComponent_eq_iff {segment word : String}
    (same : encodeURIComponent word = word) :
    encodeURIComponent segment = word ↔ segment = word := by
  constructor
  · intro encoded
    exact encodeURIComponent_injective (encoded.trans same.symm)
  · rintro rfl
    exact same

/-- The words `route` compares with. -/
theorem words (segment : String) :
    (encodeURIComponent segment = "health" ↔ segment = "health") ∧
      (encodeURIComponent segment = "stats" ↔ segment = "stats") ∧
      (encodeURIComponent segment = "search" ↔ segment = "search") ∧
      (encodeURIComponent segment = "agents" ↔ segment = "agents") ∧
      (encodeURIComponent segment = "feedback" ↔ segment = "feedback") ∧
      (encodeURIComponent segment = "accounts" ↔ segment = "accounts") := by
  refine ⟨?_, ?_, ?_, ?_, ?_, ?_⟩ <;>
    exact encodeURIComponent_eq_iff (by rfl)

/-- The router reads its own words through the encoding. -/
theorem route_encoded {PUBLIC_STELLAR_NETWORK : String}
    {network : Option String} (known : network = none ∨
      network = some PUBLIC_STELLAR_NETWORK)
    (segments : List String) (called : Endpoint) :
    route PUBLIC_STELLAR_NETWORK (segments.map encodeURIComponent) network =
        .handler called ↔
      ∃ endpoint : Endpoint, endpoint.segments = segments ∧
        called = endpoint.encoded := by
  have allowed : ¬ (network ≠ none ∧
      network ≠ some PUBLIC_STELLAR_NETWORK) := by
    rw [not_and_or, not_not, not_not]
    exact known
  unfold route
  rw [if_neg allowed]
  constructor
  · intro reached
    match segments with
    | [] => cases reached
    | [endpoint] =>
        simp only [List.map_cons, List.map_nil, words] at reached
        split at reached
        · rename_i isHealth
          cases reached
          exact ⟨.health, by rw [isHealth]; rfl, rfl⟩
        · split at reached
          · rename_i isStats
            cases reached
            exact ⟨.stats, by rw [isStats]; rfl, rfl⟩
          · split at reached
            · rename_i isSearch
              cases reached
              exact ⟨.search, by rw [isSearch]; rfl, rfl⟩
            · split at reached
              · rename_i isAgents
                cases reached
                exact ⟨.agentsList, by rw [isAgents]; rfl, rfl⟩
              · cases reached
    | [endpoint, param] =>
        simp only [List.map_cons, List.map_nil, words] at reached
        split at reached
        · rename_i isAgents
          cases reached
          exact ⟨.agentDetail param, by rw [isAgents]; rfl, rfl⟩
        · cases reached
    | [endpoint, param, sub] =>
        simp only [List.map_cons, List.map_nil, words] at reached
        split at reached
        · rename_i isFeedback
          cases reached
          exact ⟨.agentFeedback param,
            by rw [isFeedback.1, isFeedback.2]; rfl, rfl⟩
        · split at reached
          · rename_i isAccounts
            cases reached
            exact ⟨.accounts param,
              by rw [isAccounts.1, isAccounts.2]; rfl, rfl⟩
          · cases reached
    | _ :: _ :: _ :: _ :: _ => cases reached
  · rintro ⟨endpoint, rfl, rfl⟩
    cases endpoint <;> simp [Endpoint.segments, Endpoint.encoded, words]

/-- Within the network a handler is called for one kind of paths only. -/
theorem fallback_handler_iff {PUBLIC_STELLAR_NETWORK path : String}
    {network : Option String} (known : network = none ∨
      network = some PUBLIC_STELLAR_NETWORK) {called : Endpoint} :
    fallback PUBLIC_STELLAR_NETWORK path network = .handler called ↔
      ∃ endpoint : Endpoint, called = endpoint.encoded ∧
        PlainSegments endpoint.segments ∧
        ∃ times ≤ 6, decodeTimes times path.toList =
          some (joined endpoint.segments) := by
  unfold fallback
  constructor
  · intro reached
    split at reached
    · cases reached
    · rename_i parts guarded
      obtain ⟨segments, plain, rfl, within⟩ := guard_eq_some_iff.mp guarded
      obtain ⟨endpoint, rfl, isCalled⟩ :=
        (route_encoded known segments called).mp reached
      exact ⟨endpoint, isCalled, plain, within⟩
  · rintro ⟨endpoint, isCalled, plain, within⟩
    have guarded := guard_eq_some_iff.mpr
      ⟨endpoint.segments, plain, rfl, within⟩
    rw [guarded]
    exact (route_encoded known endpoint.segments called).mpr
      ⟨endpoint, rfl, isCalled⟩

theorem fallback_wrongNetwork {PUBLIC_STELLAR_NETWORK path other : String}
    (wrong : other ≠ PUBLIC_STELLAR_NETWORK) (called : Endpoint) :
    fallback PUBLIC_STELLAR_NETWORK path (some other) ≠ .handler called := by
  have refused : some other ≠ none ∧ some other ≠
      some PUBLIC_STELLAR_NETWORK := by
    constructor
    · exact Option.some_ne_none other
    · exact fun same => wrong (Option.some.inj same)
  unfold fallback route
  intro reached
  split at reached
  · cases reached
  · rw [if_pos refused] at reached
    cases reached

/-- The public API calls a handler exactly where the query names no other
network and the path, decoded six times at most, is the handler's path with a
plain segment; the handler then gets that segment, encoded once. -/
theorem api_reaches_handler_iff (PUBLIC_STELLAR_NETWORK path : String)
    (network : Option String) (called : Endpoint) :
    fallback PUBLIC_STELLAR_NETWORK path network = .handler called ↔
      (∀ other, network = some other → other = PUBLIC_STELLAR_NETWORK) ∧
      ∃ endpoint : Endpoint, called = endpoint.encoded ∧
        PlainSegments endpoint.segments ∧
        ∃ times ≤ 6, decodeTimes times path.toList =
          some (joined endpoint.segments) := by
  by_cases known : network = none ∨ network = some PUBLIC_STELLAR_NETWORK
  · rw [fallback_handler_iff known]
    constructor
    · intro reached
      refine ⟨?_, reached⟩
      rintro other rfl
      rcases known with absent | same
      · cases absent
      · exact Option.some.inj same
    · exact fun reached => reached.2
  · cases network with
    | none => exact absurd (.inl rfl) known
    | some other =>
        have wrong : other ≠ PUBLIC_STELLAR_NETWORK := by
          rintro rfl
          exact known (.inr rfl)
        constructor
        · intro reached
          exact absurd reached (fallback_wrongNetwork wrong called)
        · intro reached
          exact absurd (reached.1 other rfl) wrong

/-! ## Encodings of a path -/

theorem decodeTimes_layers {text : List Char} {layers : Nat}
    (few : layers ≤ 6 ∨ ∀ char ∈ text, isUnescaped char = true) :
    ∃ times ≤ 6, decodeTimes times (encodeTimes layers text) = some text := by
  rcases few with few | unescaped
  · refine ⟨layers, few, ?_⟩
    exact decodeTimes_encodeTimes layers 0 text
  · refine ⟨0, Nat.zero_le _, ?_⟩
    rw [encodeTimes_unescaped unescaped]
    rfl

/-- Six rounds leave a percent sign of a seventh layer. -/
theorem decodeTimes_layers_percent {text decoded : List Char}
    {times layers : Nat} {char : Char} (member : char ∈ text)
    (escaped : isUnescaped char = false) (more : times < layers)
    (reached : decodeTimes times (encodeTimes layers text) = some decoded) :
    '%' ∈ decoded := by
  obtain ⟨left, rfl⟩ := Nat.exists_eq_add_of_lt more
  rw [Nat.add_assoc, decodeTimes_encodeTimes] at reached
  obtain rfl := Option.some.inj reached
  exact percent_mem_encodeTimes member escaped left

theorem guard_joined_encoded {segments : List String}
    (plain : PlainSegments segments) :
    guard (String.ofList (joined (segments.map encodeURIComponent))) =
      some (segments.map encodeURIComponent) := by
  apply guard_eq_some_iff.mpr
  refine ⟨segments, plain, rfl, 1, by decide, ?_⟩
  rw [String.toList_ofList, decodeTimes, decode_joined_encoded]
  rfl

/-- Escaping a path changes nothing until the seventh time, from which on it
is refused; and the answer, written as a path, gives itself. -/
theorem guard_layers {segments : List String}
    (plain : PlainSegments segments) :
    (∀ layers,
      guard (String.ofList (encodeTimes layers (joined segments))) =
        if layers ≤ 6 ∨ ∀ char ∈ joined segments, isUnescaped char = true then
          some (segments.map encodeURIComponent)
        else none) ∧
    guard (String.ofList (joined (segments.map encodeURIComponent))) =
      some (segments.map encodeURIComponent) := by
  constructor
  · intro layers
    split
    · rename_i few
      apply guard_eq_some_iff.mpr
      refine ⟨segments, plain, rfl, ?_⟩
      rw [String.toList_ofList]
      exact decodeTimes_layers few
    · rename_i many
      rw [not_or, Nat.not_le] at many
      push Not at many
      obtain ⟨more, char, member, escaped⟩ := many
      apply Option.eq_none_iff_forall_ne_some.mpr
      intro parts guarded
      obtain ⟨others, plainOthers, _, times, few, reached⟩ :=
        guard_eq_some_iff.mp guarded
      rw [String.toList_ofList] at reached
      apply plainOthers.joined_plain.1
      exact decodeTimes_layers_percent member (Bool.eq_false_iff.mpr escaped)
        (Nat.lt_of_le_of_lt few more) reached
  · exact guard_joined_encoded plain

theorem guard_layers_feedback :
    (∀ layers,
      guard (String.ofList (encodeTimes layers
          (joined ["agents", "12", "feedback"]))) =
        if layers ≤ 6 ∨ ∀ char ∈ joined ["agents", "12", "feedback"],
            isUnescaped char = true then
          some (["agents", "12", "feedback"].map encodeURIComponent)
        else none) ∧
    guard (String.ofList
        (joined (["agents", "12", "feedback"].map encodeURIComponent))) =
      some (["agents", "12", "feedback"].map encodeURIComponent) := by
  apply guard_layers
  constructor
  · decide
  · decide
  · simp

end Stellar8004.Web
