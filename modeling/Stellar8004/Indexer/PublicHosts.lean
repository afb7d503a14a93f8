import Stellar8004.Indexer.Fetching

/-!
# Fetched hosts

Which hosts `resolveUri` reaches: the guard keeps every private name out
unless a root dot ends it.
-/

namespace Stellar8004.Indexer

open Stellar8004.Web.DataUri (startsWith)

/-! ## Lower case -/

theorem toLower_cases (char : Char) : char.toLower = char ∨
    (65 ≤ char.toNat ∧ char.toNat ≤ 90 ∧
      char.toLower.toNat = char.toNat + 32) := by
  unfold Char.toLower
  split
  · rename_i upper
    have low : 65 ≤ char.toNat := UInt32.le_iff_toNat_le.mp upper.1
    have high : char.toNat ≤ 90 := UInt32.le_iff_toNat_le.mp upper.2
    refine .inr ⟨low, high, ?_⟩
    change (char.val + 32).toNat = char.val.toNat + 32
    rw [UInt32.toNat_add]
    change (char.toNat + 32) % 2 ^ 32 = char.toNat + 32
    omega
  · exact .inl rfl

theorem toLower_eq_iff {char mark : Char}
    (noLetter : mark.toNat < 65 ∨ mark.toNat = 91 ∨ mark.toNat = 93) :
    char.toLower = mark ↔ char = mark := by
  rcases toLower_cases char with same | ⟨low, high, moved⟩
  · rw [same]
  · constructor
    · rintro rfl
      omega
    · rintro rfl
      omega

theorem toLower_isDigit (char : Char) :
    char.toLower.isDigit = char.isDigit := by
  rw [Bool.eq_iff_iff, Char.isDigit_iff_toNat, Char.isDigit_iff_toNat]
  have zero : '0'.toNat = 48 := rfl
  have nine : '9'.toNat = 57 := rfl
  rcases toLower_cases char with same | ⟨low, high, moved⟩
  · rw [same]
  · omega

theorem splitOn_lowerCase (text : List Char) :
    (lowerCase text).splitOn '.' = (text.splitOn '.').map lowerCase := by
  induction text with
  | nil => rfl
  | cons first rest induction =>
      unfold lowerCase at induction ⊢
      have isDot : (first.toLower == '.') = (first == '.') := by
        rw [Bool.eq_iff_iff, beq_iff_eq, beq_iff_eq]
        exact toLower_eq_iff (.inl (by decide))
      rw [List.map_cons, List.splitOn_cons_eq_if_modifyHead,
        List.splitOn_cons_eq_if_modifyHead, isDot, induction]
      split
      · rfl
      · cases rest.splitOn '.' with
        | nil => rfl
        | cons part parts => rfl

theorem isDottedQuad_lowerCase (text : List Char) :
    isDottedQuad (lowerCase text) = isDottedQuad text := by
  have digits : ∀ part : List Char,
      (lowerCase part).all Char.isDigit = part.all Char.isDigit := by
    intro part
    rw [lowerCase, List.all_map]
    exact congrArg part.all (funext toLower_isDigit)
  have lengths : ∀ part : List Char,
      (lowerCase part).length = part.length := fun part => List.length_map _
  unfold isDottedQuad
  rw [splitOn_lowerCase]
  simp only [List.length_map, List.all_map, Function.comp_def, lengths, digits]

theorem head_lowerCase {text : List Char} {mark : Char}
    (noLetter : mark.toNat < 65 ∨ mark.toNat = 91 ∨ mark.toNat = 93) :
    (lowerCase text).head? = some mark ↔ text.head? = some mark := by
  cases text with
  | nil => rfl
  | cons first rest =>
      change some first.toLower = some mark ↔ some first = some mark
      rw [Option.some.injEq, Option.some.injEq, toLower_eq_iff noLetter]

theorem getLast_lowerCase {text : List Char} {mark : Char}
    (noLetter : mark.toNat < 65 ∨ mark.toNat = 91 ∨ mark.toNat = 93) :
    (lowerCase text).getLast? = some mark ↔ text.getLast? = some mark := by
  rw [lowerCase, List.getLast?_map, Option.map_eq_some_iff]
  constructor
  · rintro ⟨last, isLast, lowered⟩
    rw [isLast, (toLower_eq_iff noLetter).mp lowered]
  · intro isLast
    exact ⟨mark, isLast, (toLower_eq_iff noLetter).mpr rfl⟩

/-! ## Private names -/

/-- The host name, lower-cased and without a trailing root dot, is a name of
this or an internal machine, an IPv4 literal or a bracketed IPv6 literal. -/
def PrivateName (hostname : String) : Prop :=
  let name := rootless (lowerCase hostname.toList)
  isLocalName name = true ∨ isDottedQuad name = true ∨
    (name.head? = some '[' ∧ name.getLast? = some ']')

/-- A root dot ends the host name, and without it it is a local one. -/
def RootedName (hostname : String) : Prop :=
  hostname.toList.getLast? = some '.' ∧
    isLocalName (rootless (lowerCase hostname.toList)) = true

instance (hostname : String) : Decidable (RootedName hostname) :=
  inferInstanceAs (Decidable (_ ∧ _))

theorem isPrivateOrLoopbackHost_local {hostname : String}
    (isLocal : isLocalName (lowerCase hostname.toList) = true) :
    isPrivateOrLoopbackHost hostname = true := by
  unfold isPrivateOrLoopbackHost
  dsimp only
  split_ifs
  · rfl
  · rfl

theorem rootless_of_not_dot {name : List Char}
    (noDot : name.getLast? ≠ some '.') : rootless name = name := if_neg noDot

theorem head_rootless {name : List Char} {mark : Char}
    (isHead : (rootless name).head? = some mark) : name.head? = some mark := by
  unfold rootless at isHead
  split_ifs at isHead
  · match name, isHead with
    | first :: second :: rest, isHead => exact isHead
  · exact isHead

section

open Fetching

variable {target : Url} (passed : passes target = true)

include passed

theorem passes_scheme :
    target.protocol = "http:" ∨ target.protocol = "https:" := by
  simp only [passes, Bool.and_eq_true, Bool.or_eq_true,
    decide_eq_true_eq] at passed
  exact passed.1.1

theorem passes_name : isPrivateOrLoopbackHost target.hostname = false ∧
    isDottedQuad target.hostname.toList = false ∧
    target.hostname.toList.head? ≠ some '[' := by
  simp only [passes, Bool.and_eq_true, Bool.not_eq_true',
    Bool.or_eq_false_iff, decide_eq_false_iff_not] at passed
  exact ⟨passed.1.2, passed.2.1, passed.2.2⟩

/-- The checks of a hop keep every private name out but the rooted ones. -/
theorem rootedName_of_passes (isPrivate : PrivateName target.hostname) :
    RootedName target.hostname := by
  obtain ⟨notPrivate, notQuad, notBracket⟩ := passes_name passed
  have dot : (lowerCase target.hostname.toList).getLast? = some '.' ↔
      target.hostname.toList.getLast? = some '.' :=
    getLast_lowerCase (.inl (by decide))
  have bracket : (lowerCase target.hostname.toList).head? = some '[' ↔
      target.hostname.toList.head? = some '[' :=
    head_lowerCase (.inr (.inl (by decide)))
  unfold PrivateName at isPrivate
  dsimp only at isPrivate
  rcases isPrivate with isLocal | isQuad | ⟨isHead, -⟩
  · by_cases rooted : target.hostname.toList.getLast? = some '.'
    · exact ⟨rooted, isLocal⟩
    · rw [rootless_of_not_dot (mt dot.mp rooted)] at isLocal
      rw [isPrivateOrLoopbackHost_local isLocal] at notPrivate
      cases notPrivate
  · have noDot := target.numeric (passes_scheme passed) isQuad
    rw [rootless_of_not_dot (mt dot.mp noDot), isDottedQuad_lowerCase,
      notQuad] at isQuad
    cases isQuad
  · exact absurd (bracket.mp (head_rootless isHead)) notBracket

end

theorem privateName_of_rooted {hostname : String}
    (rooted : RootedName hostname) : PrivateName hostname :=
  .inl rooted.2

/-! ## Hops -/

namespace Fetching

/-- What a fetch may come back with. -/
def Answered (responses : Url → Option Response → Prop) :
    Exchange fetchHost → Prop
  | ⟨.fetch target, response⟩ => responses target response
  | _ => True

/-- A fetch is of a URL that is http or https and has no private name. -/
def PublicFetch (exchange : Exchange fetchHost) : Prop :=
  ∀ target, exchange.request = .fetch target →
    ¬PrivateName target.hostname ∧
      (target.protocol = "http:" ∨ target.protocol = "https:")

/-- Neither hop from a URL, where the checks let it through, is to a rooted
name. -/
def Unrooted (urls : Urls) (responses : Url → Option Response → Prop)
    (url : String) : Prop :=
  ∀ first, urls.parse url = some first → passes first = true →
    ¬RootedName first.hostname ∧
      ∀ response, responses first (some response) →
        isRedirect response = true →
          ∀ second, redirectUrl urls url response = some second →
            passes second = true → ¬RootedName second.hostname

section

variable {responses : Url → Option Response → Prop}
  {past : List (Exchange fetchHost)}

/-- The traces in which every answer is one that may come. -/
abbrev Allowed (responses : Url → Option Response → Prop)
    (_ : List (Exchange fetchHost)) : Exchange fetchHost → Prop :=
  Answered responses

abbrev Public (_ : List (Exchange fetchHost)) : Exchange fetchHost → Prop :=
  PublicFetch

theorem publicFetch_of_not_fetch {exchange : Exchange fetchHost}
    (notFetch : exchange.request.isFetch = false) : PublicFetch exchange := by
  intro target isFetch
  rw [isFetch] at notFetch
  cases notFetch

theorem hostnameResolvesToPrivate_public (hostname : String) :
    (hostnameResolvesToPrivate hostname).Ensures (Allowed responses) Public
      past fun _ _ => True := by
  intro available _
  refine ⟨publicFetch_of_not_fetch rfl, ?_⟩
  cases available with
  | false => trivial
  | true =>
      intro a _
      refine ⟨publicFetch_of_not_fetch rfl, ?_⟩
      intro aaaa _
      exact ⟨publicFetch_of_not_fetch rfl, trivial⟩

/-- What is admitted has passed the checks. -/
theorem admitted_public (target : Url) :
    (admitted target).Ensures (Allowed responses) Public past
      fun final _ => final = .returned true → passes target = true := by
  unfold admitted
  split_ifs with passed
  · apply (hostnameResolvesToPrivate_public target.hostname).bind
    · exact fun _ _ _ _ => passed
    · exact fun _ _ _ _ => passed
    · exact fun _ _ _ => passed
  · exact fun same => nomatch same

theorem publicFetch {target : Url} (passed : passes target = true)
    (unrooted : ¬RootedName target.hostname) (answer : Option Response) :
    PublicFetch ⟨.fetch target, answer⟩ := by
  rintro other same
  cases same
  exact ⟨fun isPrivate => unrooted (rootedName_of_passes passed isPrivate),
    passes_scheme passed⟩

variable {urls : Urls} {parse : Utf16.Text → Option Json}

theorem followRedirect_public {target : Url}
    (unrooted : passes target = true → ¬RootedName target.hostname) :
    (followRedirect parse target).Ensures (Allowed responses) Public past
      fun _ _ => True := by
  unfold followRedirect
  apply (admitted_public target).bind
  · intro through later admits
    cases through with
    | false => trivial
    | true =>
        have passed := admits rfl
        intro answer _
        exact ⟨publicFetch passed (unrooted passed) answer, trivial⟩
  · exact fun _ _ _ => trivial
  · exact fun _ _ => trivial

theorem fetchJson_public {url : String}
    (unrooted : Unrooted urls responses url) :
    (fetchJson urls parse url).Ensures (Allowed responses) Public past
      fun _ _ => True := by
  unfold fetchJson
  cases isFirst : urls.parse url with
  | none => trivial
  | some first =>
      have hops := unrooted first isFirst
      apply (admitted_public first).bind
      · intro through later admits
        cases through with
        | false => trivial
        | true =>
            have passed := admits rfl
            obtain ⟨notRooted, next⟩ := hops passed
            intro answer allowed
            refine ⟨publicFetch passed notRooted answer, ?_⟩
            cases answer with
            | none => trivial
            | some response =>
                by_cases redirects : isRedirect response = true
                · simp only [Program.returns_bind, if_pos redirects]
                  cases isSecond : redirectUrl urls url response with
                  | none => trivial
                  | some second =>
                      exact followRedirect_public
                        (next response allowed redirects second isSecond)
                · simp only [Program.returns_bind, if_neg redirects]
                  trivial
      · exact fun _ _ _ => trivial
      · exact fun _ _ => trivial

theorem tryAll_public : ∀ {list : List String},
    (∀ url ∈ list, Unrooted urls responses url) →
      ∀ {past : List (Exchange fetchHost)},
        (tryAll urls parse list).Ensures (Allowed responses) Public past
          fun _ _ => True
  | [], _, _ => trivial
  | url :: rest, unrooted, _ => by
      have first := unrooted url List.mem_cons_self
      have others : ∀ other ∈ rest, Unrooted urls responses other :=
        fun other member => unrooted other (List.mem_cons_of_mem url member)
      apply (fetchJson_public first).bind
      · intro data later _
        cases isMissing data with
        | false => trivial
        | true => exact tryAll_public others
      · exact fun _ _ _ => trivial
      · exact fun _ _ => trivial

/-- A document is inlined, fetched from one URL or asked of the gateways. -/
theorem resolveUri_cases (urls : Urls) (parse : Utf16.Text → Option Json)
    (uri : String) :
    (∃ data, resolveUri urls parse uri = .returns data ∧ entries uri = []) ∨
      (resolveUri urls parse uri = fetchJson urls parse uri ∧
        entries uri = [uri]) ∨
      resolveUri urls parse uri = tryAll urls parse (entries uri) := by
  unfold resolveUri entries
  by_cases none : uri = ""
  · exact .inl ⟨Option.none, if_pos none, if_pos (.inl none)⟩
  by_cases inline : startsWith uri "data:" = true
  · rw [if_neg none, if_pos inline, if_pos (.inr inline)]
    exact .inl ⟨_, rfl, rfl⟩
  have neither : ¬(uri = "" ∨ startsWith uri "data:" = true) :=
    not_or.mpr ⟨none, inline⟩
  rw [if_neg none, if_neg inline, if_neg neither]
  by_cases direct : (!startsWith uri "ipfs://") = true
  · rw [if_pos direct, if_pos direct]
    exact .inr (.inl ⟨rfl, rfl⟩)
  · rw [if_neg direct, if_neg direct]
    cases normalizeIpfsPath uri with
    | none => exact .inl ⟨Option.none, rfl, rfl⟩
    | some ipfsPath => exact .inr (.inr rfl)

theorem resolveUri_public {uri : String}
    (unrooted : ∀ url ∈ entries uri, Unrooted urls responses url) :
    (resolveUri urls parse uri).Ensures (Allowed responses) Public past
      fun _ _ => True := by
  rcases resolveUri_cases urls parse uri with
    ⟨data, isData, -⟩ | ⟨isFetch, single⟩ | isLoop
  · rw [isData]
    trivial
  · rw [isFetch]
    rw [single] at unrooted
    exact fetchJson_public (unrooted uri List.mem_cons_self)
  · rw [isLoop]
    exact tryAll_public unrooted

/-! ## At most two fetches -/

theorem admitted_atMost (target : Url) :
    (admitted target).AtMost FetchRequest.isFetch 0 := by
  unfold admitted
  split_ifs
  · intro available
    cases available with
    | false => trivial
    | true => exact fun _ _ => trivial
  · trivial

theorem followRedirect_atMost (target : Url) :
    (followRedirect parse target).AtMost FetchRequest.isFetch 1 := by
  change (Program.bind (admitted target) _).AtMost FetchRequest.isFetch (0 + 1)
  apply (admitted_atMost target).bind
  intro through
  cases through with
  | false => trivial
  | true =>
      exact ⟨Nat.one_pos, fun _ => trivial⟩

theorem fetchJson_atMost (url : String) :
    (fetchJson urls parse url).AtMost FetchRequest.isFetch 2 := by
  unfold fetchJson
  cases urls.parse url with
  | none => trivial
  | some first =>
      change (Program.bind (admitted first) _).AtMost FetchRequest.isFetch
        (0 + 2)
      apply (admitted_atMost first).bind
      intro through
      cases through with
      | false => trivial
      | true =>
          refine ⟨Nat.two_pos, ?_⟩
          intro answer
          cases answer with
          | none => trivial
          | some response =>
              by_cases redirects : isRedirect response = true
              · simp only [Program.returns_bind, if_pos redirects]
                cases redirectUrl urls url response with
                | none => trivial
                | some second => exact followRedirect_atMost second
              · simp only [Program.returns_bind, if_neg redirects]
                trivial

/-- The exchanges fall into parts, one for each URL that was tried, of at
most two fetches each. -/
def TwoFetchesEach (count : Nat) (trace : List (Exchange fetchHost)) : Prop :=
  ∃ parts : List (List (Exchange fetchHost)), trace = parts.flatten ∧
    parts.length ≤ count ∧
    ∀ part ∈ parts, Program.asked FetchRequest.isFetch part ≤ 2

theorem twoFetchesEach_fetchJson {url : String}
    {trace : List (Exchange fetchHost)}
    {final : Option (Final fetchHost (Option Json))}
    (yields : Program.Yields (fetchJson urls parse url) trace final) :
    TwoFetchesEach 1 trace := by
  refine ⟨[trace], by simp, Nat.le_refl _, ?_⟩
  intro part member
  rw [List.mem_singleton.mp member]
  exact (fetchJson_atMost url).asked_le yields

theorem twoFetchesEach_nil (count : Nat) : TwoFetchesEach count [] :=
  ⟨[], rfl, Nat.zero_le count, fun _ member => by cases member⟩

theorem TwoFetchesEach.append {left right : Nat}
    {before after : List (Exchange fetchHost)}
    (first : TwoFetchesEach left before)
    (second : TwoFetchesEach right after) :
    TwoFetchesEach (left + right) (before ++ after) := by
  obtain ⟨parts, rfl, few, bounded⟩ := first
  obtain ⟨others, rfl, rest, also⟩ := second
  refine ⟨parts ++ others, by simp, by simpa using Nat.add_le_add few rest, ?_⟩
  intro part member
  rcases List.mem_append.mp member with inside | inside
  · exact bounded part inside
  · exact also part inside

theorem TwoFetchesEach.mono {count more : Nat}
    {trace : List (Exchange fetchHost)} (each : TwoFetchesEach count trace)
    (le : count ≤ more) : TwoFetchesEach more trace := by
  obtain ⟨parts, same, few, bounded⟩ := each
  exact ⟨parts, same, few.trans le, bounded⟩

theorem twoFetchesEach_tryAll : ∀ {list : List String}
    {trace : List (Exchange fetchHost)}
    {final : Option (Final fetchHost (Option Json))},
    Program.Yields (tryAll urls parse list) trace final →
      TwoFetchesEach list.length trace
  | [], trace, final, yields => by
      cases yields with
      | killed => exact twoFetchesEach_nil _
      | returned => exact twoFetchesEach_nil _
  | url :: rest, trace, final, yields => by
      rcases Program.Yields.of_bind yields with
        ⟨outcome, inside⟩ | ⟨first, second, data, rfl, inside, after⟩
      · exact (twoFetchesEach_fetchJson inside).mono (by simp)
      · have tried := twoFetchesEach_fetchJson inside
        have remains : TwoFetchesEach rest.length second := by
          cases missing : isMissing data with
          | true =>
              simp only [missing, if_true] at after
              exact twoFetchesEach_tryAll after
          | false =>
              simp only [missing, Bool.false_eq_true, if_false] at after
              cases after with
              | killed => exact twoFetchesEach_nil _
              | returned => exact twoFetchesEach_nil _
        exact (tried.append remains).mono (by simp [Nat.add_comm])

theorem twoFetchesEach_resolveUri {uri : String}
    {trace : List (Exchange fetchHost)}
    {final : Option (Final fetchHost (Option Json))}
    (yields : Program.Yields (resolveUri urls parse uri) trace final) :
    TwoFetchesEach (entries uri).length trace := by
  rcases resolveUri_cases urls parse uri with
    ⟨data, isData, -⟩ | ⟨isFetch, single⟩ | isLoop
  · rw [isData] at yields
    cases yields with
    | killed => exact twoFetchesEach_nil _
    | returned => exact twoFetchesEach_nil _
  · rw [isFetch] at yields
    rw [single]
    exact twoFetchesEach_fetchJson yields
  · rw [isLoop] at yields
    exact twoFetchesEach_tryAll yields

/-! ## Rooted names are reached -/

/-- Some run with answers that may come fetches the target. -/
def Reaches (responses : Url → Option Response → Prop)
    (program : FetchTask (Option Json)) (target : Url) : Prop :=
  ∃ trace, Program.Yields program trace none ∧
    (∀ exchange ∈ trace, Answered responses exchange) ∧
    ∃ exchange ∈ trace, exchange.request = .fetch target

/-- Some run with answers that may come returns the value. -/
def MayReturn {α : Type} (responses : Url → Option Response → Prop)
    (program : FetchTask α) (value : α) : Prop :=
  ∃ trace, Program.Yields program trace (some (.returned value)) ∧
    ∀ exchange ∈ trace, Answered responses exchange

theorem MayReturn.reaches {α : Type} {program : FetchTask α}
    {next : α → FetchTask (Option Json)} {value : α} {target : Url}
    (returned : MayReturn responses program value)
    (later : Reaches responses (next value) target) :
    Reaches responses (program.bind next) target := by
  obtain ⟨first, isFirst, answered⟩ := returned
  obtain ⟨second, isSecond, also, exchange, member, isFetch⟩ := later
  refine ⟨first ++ second, isFirst.bind isSecond, ?_, exchange,
    List.mem_append_right first member, isFetch⟩
  intro other inside
  rcases List.mem_append.mp inside with before | behind
  · exact answered other before
  · exact also other behind

theorem Reaches.within {program : FetchTask (Option Json)} {target : Url}
    (reaches : Reaches responses program target)
    (next : Option Json → FetchTask (Option Json)) :
    Reaches responses (program.bind next) target := by
  obtain ⟨trace, yields, answered, fetched⟩ := reaches
  exact ⟨trace, yields.killed_bind next, answered, fetched⟩

/-- DNS may know nothing of a name. -/
theorem admitted_mayReturn {target : Url} (passed : passes target = true) :
    MayReturn responses (admitted target) true := by
  unfold admitted
  rw [if_pos passed]
  refine ⟨[⟨.hasResolveDns, true⟩,
    ⟨.resolveDns target.hostname .A, some []⟩,
    ⟨.resolveDns target.hostname .AAAA, some []⟩], ?_, ?_⟩
  · exact .asked _ _ (.asked _ _ (.asked _ _ (.returned true)))
  · intro exchange member
    simp only [List.mem_cons, List.not_mem_nil, or_false] at member
    rcases member with rfl | rfl | rfl <;> trivial

/-- DNS may know a private address of it. -/
theorem refused_mayReturn (target : Url) :
    MayReturn responses (admitted target) false := by
  unfold admitted
  split_ifs with passed
  · refine ⟨[⟨.hasResolveDns, true⟩,
      ⟨.resolveDns target.hostname .A, some ["10.0.0.1"]⟩,
      ⟨.resolveDns target.hostname .AAAA, some []⟩], ?_, ?_⟩
    · exact .asked _ _ (.asked _ _ (.asked _ _ (.returned false)))
    · intro exchange member
      simp only [List.mem_cons, List.not_mem_nil, or_false] at member
      rcases member with rfl | rfl | rfl <;> trivial
  · exact ⟨[], .returned false, fun _ member => by cases member⟩

theorem fetchJson_mayReturn (url : String) :
    MayReturn responses (fetchJson urls parse url) none := by
  unfold fetchJson
  cases urls.parse url with
  | none => exact ⟨[], .returned none, fun _ member => by cases member⟩
  | some first =>
      obtain ⟨trace, yields, answered⟩ : MayReturn responses _ false :=
        refused_mayReturn first
      refine ⟨trace ++ [], yields.bind (.returned none), ?_⟩
      rwa [List.append_nil]

/-- A fetch that is made first. -/
theorem reaches_asked {target : Url}
    (settles : ∃ response, responses target response)
    (next : Option Response → FetchTask (Option Json)) :
    Reaches responses (.asks (.fetch target) next) target := by
  obtain ⟨response, allowed⟩ := settles
  refine ⟨[⟨.fetch target, response⟩], .asked _ _ (.killed _), ?_, _,
    List.mem_singleton_self _, rfl⟩
  intro exchange member
  rw [List.mem_singleton.mp member]
  exact allowed

section

variable {url : String} {first : Url} (isFirst : urls.parse url = some first)
  (passed : passes first = true)

include isFirst passed

theorem reaches_first (settles : ∃ response, responses first response) :
    Reaches responses (fetchJson urls parse url) first := by
  unfold fetchJson
  rw [isFirst]
  exact (admitted_mayReturn passed).reaches (reaches_asked settles _)

theorem reaches_second {response : Response} {second : Url}
    (allowed : responses first (some response))
    (redirects : isRedirect response = true)
    (isSecond : redirectUrl urls url response = some second)
    (admits : passes second = true)
    (settles : ∃ response, responses second response) :
    Reaches responses (fetchJson urls parse url) second := by
  have follows : Reaches responses (followRedirect parse second) second :=
    (admitted_mayReturn admits).reaches (reaches_asked settles _)
  have answered : MayReturn responses (call (.fetch first)) (some response) := by
    refine ⟨[⟨.fetch first, some response⟩], .asked _ _ (.returned _), ?_⟩
    intro exchange member
    rw [List.mem_singleton.mp member]
    exact allowed
  unfold fetchJson
  rw [isFirst]
  apply (admitted_mayReturn passed).reaches
  apply answered.reaches
  simp only [if_pos redirects, isSecond]
  exact follows

end

/-- The gateways before may all come back with nothing. -/
theorem reaches_tryAll {url : String} {target : Url}
    (reaches : Reaches responses (fetchJson urls parse url) target) :
    ∀ {list : List String}, url ∈ list →
      Reaches responses (tryAll urls parse list) target
  | other :: rest, member => by
      rcases List.mem_cons.mp member with rfl | behind
      · exact reaches.within _
      · exact (fetchJson_mayReturn other).reaches
          (reaches_tryAll reaches behind)

theorem reaches_resolveUri {uri url : String} {target : Url}
    (entry : url ∈ entries uri)
    (reaches : Reaches responses (fetchJson urls parse url) target) :
    Reaches responses (resolveUri urls parse uri) target := by
  rcases resolveUri_cases urls parse uri with
    ⟨-, -, none⟩ | ⟨isFetch, single⟩ | isLoop
  · rw [none] at entry
    cases entry
  · rw [single, List.mem_singleton] at entry
    rw [isFetch, ← entry]
    exact reaches
  · rw [isLoop]
    exact reaches_tryAll reaches entry

/-! ## The theorem -/

/-- No run with answers that may come fetches a private name or another
scheme, and none makes more than two fetches for a URL it tries. -/
def Safe (urls : Urls) (parse : Utf16.Text → Option Json)
    (responses : Url → Option Response → Prop) (uri : String) : Prop :=
  ∀ trace final, Program.Yields (resolveUri urls parse uri) trace final →
    (∀ exchange ∈ trace, Answered responses exchange) →
      (∀ exchange ∈ trace, PublicFetch exchange) ∧
        TwoFetchesEach (entries uri).length trace

theorem not_safe_of_reaches {uri : String} {target : Url}
    (rooted : RootedName target.hostname)
    (reaches : Reaches responses (resolveUri urls parse uri) target) :
    ¬Safe urls parse responses uri := by
  intro safe
  obtain ⟨trace, yields, answered, exchange, member, isFetch⟩ := reaches
  have isPublic := (safe trace none yields answered).1 exchange member
  exact (isPublic target isFetch).1 (privateName_of_rooted rooted)

end

theorem resolveUri_safe_iff (urls : Urls) (parse : Utf16.Text → Option Json)
    (responses : Url → Option Response → Prop)
    (settles : ∀ target, ∃ response, responses target response)
    (uri : String) :
    Safe urls parse responses uri ↔
      ∀ url ∈ entries uri, Unrooted urls responses url := by
  constructor
  · intro safe url entry first isFirst passed
    constructor
    · intro rooted
      have reaches : Reaches responses (fetchJson urls parse url) first :=
        reaches_first isFirst passed (settles first)
      exact not_safe_of_reaches rooted (reaches_resolveUri entry reaches) safe
    · intro response came redirects second isSecond admits rooted
      have reaches : Reaches responses (fetchJson urls parse url) second :=
        reaches_second isFirst passed came redirects isSecond admits
          (settles second)
      exact not_safe_of_reaches rooted (reaches_resolveUri entry reaches) safe
  · intro unrooted trace final yields answered
    refine ⟨?_, twoFetchesEach_resolveUri yields⟩
    have along : Program.Along (Allowed responses) [] trace :=
      Program.along_of_forall_mem fun _ => answered
    intro exchange member
    obtain ⟨_, isPublic⟩ :=
      ((resolveUri_public unrooted).along yields along).of_mem member
    exact isPublic

/-! ## A root dot -/

/-- `http://localhost./` -/
def rootedUrl : Url :=
  { protocol := "http:", hostname := "localhost."
    href := "http://localhost./", numeric := by decide }

def rootedUrls : Urls :=
  { parse := fun url =>
      if url = "http://localhost./" then some rootedUrl else none
    parseAt := fun _ _ => none }

theorem resolveUri_unsafe_rooted :
    ¬ ∀ (urls : Urls) (parse : Utf16.Text → Option Json)
      (responses : Url → Option Response → Prop) (uri : String),
      Safe urls parse responses uri := by
  intro safe
  have entry : "http://localhost./" ∈ entries "http://localhost./" := by
    decide
  have passed : passes rootedUrl = true := by decide
  have rooted : RootedName rootedUrl.hostname := by decide
  have first : Reaches (fun _ _ => True)
      (fetchJson rootedUrls (fun _ => none) "http://localhost./") rootedUrl :=
    reaches_first rfl passed ⟨none, trivial⟩
  exact not_safe_of_reaches rooted (reaches_resolveUri entry first)
    (safe rootedUrls (fun _ => none) (fun _ _ => True) "http://localhost./")

theorem resolveUri_safe_iff_rooted :
    Safe rootedUrls (fun _ => none) (fun _ _ => True) "http://localhost./" ↔
      ∀ url ∈ entries "http://localhost./",
        Unrooted rootedUrls (fun _ _ => True) url :=
  resolveUri_safe_iff rootedUrls (fun _ => none) (fun _ _ => True)
    (fun _ => ⟨none, trivial⟩) "http://localhost./"

end Fetching

end Stellar8004.Indexer
