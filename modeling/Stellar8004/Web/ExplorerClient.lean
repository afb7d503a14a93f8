import Stellar8004.Indexer.TimeCalls
import Stellar8004.Library.Costs
import Stellar8004.Web.DiscoveryWalk

/-!
# The client of the SDK

`ExplorerClient.request` of `packages/sdk/src/api/explorer.ts`: a request that
is answered with 429 or a server error, or not at all, is tried again.  What
an answer carries is taken as it is; how `normalizeRecord` presents it is left
out.
-/

namespace Stellar8004.Web.ExplorerClient

open Stellar8004.Indexer Program

/-! ## Answers -/

/-- An error of `fetch`. -/
structure FetchError where
  isError : Bool
  isTypeError : Bool
  name : String
  deriving DecidableEq

/-- What `response.json()` gives of an answer with a good status.  A body
without what is read of it throws a `TypeError`. -/
inductive ReceivedBody (β : Type) where
  | invalid
  | unreadable
  | refused
  | accepted (body : β)

/-- `errorMessage` is what `extractErrorMessage` finds in the body. -/
structure HttpResponse (β : Type) where
  status : Nat
  retryAfter : Option String
  rateLimitReset : Option String
  errorMessage : Option String
  body : ReceivedBody β

inductive Fetched (β : Type) where
  | rejected (error : FetchError)
  | responded (response : HttpResponse β)

/-- The body a fetch is answered with, if it is. -/
def Fetched.body {β : Type} : Fetched β → Option β
  | rejected _ => none
  | responded response =>
      if 200 ≤ response.status ∧ response.status ≤ 299 then
        match response.body with
        | .accepted body => some body
        | _ => none
      else none

inductive ClientError where
  | network (error : FetchError)
  | api (status : Nat) (message : String)
  | rateLimit (retryAfterMs : Nat)
  | notFound (resource : String)
  | validation (message : String)

/-- The requests of `request`.  `parseDate` is `Date.parse`, nothing where it
is not finite. -/
inductive ClientRequest where
  | fetch (query : String)
  | now
  | parseDate (text : String)
  | jitter
  | sleep (ms : Nat)

@[reducible] def ClientRequest.Answer (β : Type) : ClientRequest → Type
  | fetch _ => Fetched β
  | now => Int
  | parseDate _ => Option Int
  | jitter => Fin 250
  | sleep _ => Unit

@[reducible] def clientHost (β : Type) : Interface :=
  { Request := ClientRequest, Answer := ClientRequest.Answer β
    Error := ClientError }

abbrev ClientTask (β α : Type) := Program (clientHost β) α

def call {β : Type} (request : ClientRequest) :
    ClientTask β (request.Answer β) :=
  Program.asks request Program.returns

@[simp] theorem call_bind {β α : Type} (request : ClientRequest)
    (next : request.Answer β → ClientTask β α) :
    (call request).bind next = Program.asks request next := rfl

/-! ## `explorer.ts` -/

def DEFAULT_RETRIES : Nat := 3

/-- `/^\d+$/`. -/
def isDigits (text : String) : Bool :=
  text ≠ "" && text.toList.all Char.isDigit

/-- `parseRetryAfterMs`. -/
def parseRetryAfterMs {β : Type} (response : HttpResponse β) :
    ClientTask β (Option Nat) := do
  let fromReset : ClientTask β (Option Nat) :=
    match response.rateLimitReset with
    | none => return none
    | some resetHeader =>
        if isDigits resetHeader then do
          let raw := digitsValue resetHeader.toList
          let resetAt := if 1000000000000 < raw then raw else raw * 1000
          let now ← call .now
          return some (max 0 ((resetAt : Int) - now)).toNat
        else return none
  match response.retryAfter with
  | none => fromReset
  | some retryAfter =>
      if retryAfter = "" then fromReset
      else if isDigits retryAfter then
        return some (digitsValue retryAfter.toList * 1000)
      else do
        match ← call (.parseDate retryAfter) with
        | some retryAt =>
            let now ← call .now
            return some (max 0 (retryAt - now)).toNat
        | none => fromReset

def isRetriableNetworkError (error : FetchError) : Bool :=
  error.isError && (error.name = "AbortError" || error.isTypeError)

/-- The error of a body that cannot be read. -/
def bodyError : FetchError :=
  { isError := true, isTypeError := true, name := "TypeError" }

/-- The loop of `request`: `left` fetches may still be made. -/
def attempts {β : Type} (query resource : String) (retries : Nat) :
    (left attempt : Nat) → ClientTask β β
  | 0, _ => .throws (.api 0 "Request failed after retries")
  | left + 1, attempt => do
      let caught (error : FetchError) : ClientTask β β := do
        if isRetriableNetworkError error = false ∨ retries ≤ attempt then
          .throws (.network error)
        else do
          let jitter ← call .jitter
          call (.sleep (1000 * 2 ^ attempt + jitter.val))
          attempts query resource retries left (attempt + 1)
      match ← call (.fetch query) with
      | .rejected error => caught error
      | .responded response =>
          if 200 ≤ response.status ∧ response.status ≤ 299 then
            match response.body with
            | .invalid =>
                .throws (.api response.status "Invalid JSON in response")
            | .unreadable => caught bodyError
            | .refused => .throws (.api response.status "API request failed")
            | .accepted body => return body
          else if response.status = 429 then do
            let parsed ← parseRetryAfterMs response
            let retryAfterMs := parsed.getD (1000 * 2 ^ attempt)
            if attempt < retries then do
              call (.sleep retryAfterMs)
              attempts query resource retries left (attempt + 1)
            else .throws (.rateLimit retryAfterMs)
          else if 500 ≤ response.status then do
            if attempt < retries then do
              let jitter ← call .jitter
              call (.sleep (1000 * 2 ^ attempt + jitter.val))
              attempts query resource retries left (attempt + 1)
            else
              .throws (.api response.status
                (response.errorMessage.getD "Server error"))
          else if response.status = 404 then .throws (.notFound resource)
          else if response.status = 400 then
            .throws (.validation
              (response.errorMessage.getD "Invalid request parameters"))
          else
            .throws (.api response.status (response.errorMessage.getD
              ("Request failed with status " ++ toString response.status)))

def request {β : Type} (query resource : String) (retries : Nat) :
    ClientTask β β :=
  attempts query resource retries (retries + 1) 0

/-! ## One attempt -/

section

variable {β : Type}

/-- How a request goes on from what its fetch came back with. -/
inductive Continues (query resource : String) (retries left attempt : Nat)
    (fetched : Fetched β) : ClientTask β β → Prop where
  | answers {body : β} (isBody : fetched.body = some body) :
      Continues query resource retries left attempt fetched (.returns body)
  | stops (failed : fetched.body = none) (error : ClientError) :
      Continues query resource retries left attempt fetched (.throws error)
  | waits (failed : fetched.body = none) (more : attempt < retries) :
      Continues query resource retries left attempt fetched
        (.asks .jitter fun jitter =>
          .asks (.sleep (1000 * 2 ^ attempt + jitter.val)) fun _ =>
            attempts query resource retries left (attempt + 1))
  | limited {response : HttpResponse β}
      (isResponse : fetched = .responded response)
      (isLimit : response.status = 429) :
      Continues query resource retries left attempt fetched
        ((parseRetryAfterMs response).bind fun parsed =>
          if attempt < retries then
            .asks (.sleep (parsed.getD (1000 * 2 ^ attempt))) fun _ =>
              attempts query resource retries left (attempt + 1)
          else .throws (.rateLimit (parsed.getD (1000 * 2 ^ attempt))))

theorem continues_caught (query resource : String)
    (retries left attempt : Nat) {fetched : Fetched β}
    (failed : fetched.body = none) (error : FetchError) :
    Continues query resource retries left attempt fetched
      (if isRetriableNetworkError error = false ∨ retries ≤ attempt then
        .throws (.network error)
      else
        .asks .jitter fun jitter =>
          .asks (.sleep (1000 * 2 ^ attempt + jitter.val)) fun _ =>
            attempts query resource retries left (attempt + 1)) := by
  split
  · exact .stops failed _
  · rename_i again
    rw [not_or, Nat.not_le] at again
    exact .waits failed again.2

theorem attempts_succ (query resource : String)
    (retries left attempt : Nat) :
    ∃ next, attempts (β := β) query resource retries (left + 1) attempt =
        .asks (.fetch query) next ∧
      ∀ fetched, ∃ program, next fetched = program ∧
        Continues query resource retries left attempt fetched program := by
  refine ⟨_, rfl, ?_⟩
  intro fetched
  refine ⟨_, rfl, ?_⟩
  cases fetched with
  | rejected error => exact continues_caught _ _ _ _ _ rfl error
  | responded response =>
      dsimp only [returns_bind]
      split
      · rename_i good
        have isBody : (Fetched.responded response).body =
            match response.body with
            | .accepted body => some body
            | _ => none := if_pos good
        split
        · rename_i invalid
          exact .stops (by rw [isBody, invalid]) _
        · rename_i unreadable
          exact continues_caught _ _ _ _ _ (by rw [isBody, unreadable])
            bodyError
        · rename_i refused
          exact .stops (by rw [isBody, refused]) _
        · rename_i body accepted
          exact .answers (by rw [isBody, accepted])
      · rename_i bad
        have failed : (Fetched.responded response).body = none := if_neg bad
        split
        · rename_i isLimit
          exact .limited rfl isLimit
        · split
          · split
            · rename_i more
              exact .waits failed more
            · exact .stops failed _
          · split
            · exact .stops failed _
            · split
              · exact .stops failed _
              · exact .stops failed _

/-- A rate limit is no answer. -/
theorem body_limited {response : HttpResponse β}
    (isLimit : response.status = 429) :
    (Fetched.responded response).body = none := by
  apply if_neg
  rw [isLimit]
  omega

end

/-! ## Waits -/

/-- The headers of `serve.ts`: no `Retry-After`, and a reset that is a date. -/
structure FromServe {β : Type} (response : HttpResponse β) : Prop where
  retryAfter : response.retryAfter = none
  reset : ∃ time, response.rateLimitReset =
    some (String.ofList (toISOString time))

/-- The rate limit is the explorer's own. -/
def OwnLimit {β : Type} : Exchange (clientHost β) → Prop
  | ⟨.fetch _, .responded response⟩ =>
      response.status = 429 → FromServe response
  | _ => True

/-- The milliseconds an exchange takes by sleeping. -/
def slept {β : Type} (exchange : Exchange (clientHost β)) : Nat :=
  match exchange.request with
  | .sleep ms => ms
  | _ => 0

theorem isDigits_toISOString (time : Int) :
    isDigits (String.ofList (toISOString time)) = false := by
  have dash : '-' ∈ toISOString time := by
    rw [toISOString_year]
    exact List.mem_append_right _ List.mem_cons_self
  unfold isDigits
  rw [String.toList_ofList, Bool.and_eq_false_iff]
  right
  apply List.all_eq_false.mpr
  exact ⟨'-', dash, by decide⟩

section

variable {β : Type}

theorem parseRetryAfterMs_fromServe {response : HttpResponse β}
    (own : FromServe response) :
    parseRetryAfterMs response = .returns none := by
  obtain ⟨time, isReset⟩ := own.reset
  unfold parseRetryAfterMs
  rw [own.retryAfter, isReset]
  simp only [isDigits_toISOString]
  rfl

/-- The longest waits from an attempt on. -/
def backoff : (more attempt : Nat) → Nat
  | 0, _ => 0
  | more + 1, attempt => 1000 * 2 ^ attempt + 249 + backoff more (attempt + 1)

theorem backoff_add (more attempt : Nat) :
    backoff more attempt + 1000 * 2 ^ attempt =
      1000 * 2 ^ (attempt + more) + 249 * more := by
  induction more generalizing attempt with
  | zero => simp [backoff]
  | succ more induction =>
      have later := induction (attempt + 1)
      have twice : attempt + 1 + more = attempt + (more + 1) := by omega
      rw [twice, Nat.pow_succ] at later
      rw [backoff]
      omega

theorem attempts_costs (query resource : String) {retries : Nat}
    (more attempt : Nat) (last : attempt + more = retries) :
    (attempts (β := β) query resource retries (more + 1) attempt).Costs
      OwnLimit slept (backoff more attempt) := by
  induction more generalizing attempt with
  | zero =>
      obtain ⟨next, isNext, continues⟩ :=
        attempts_succ (β := β) query resource retries 0 attempt
      rw [isNext]
      intro fetched own
      refine ⟨0, Nat.le_refl _, ?_⟩
      obtain ⟨program, isProgram, step⟩ := continues fetched
      rw [isProgram]
      cases step with
      | answers isBody => trivial
      | stops failed error => trivial
      | waits failed more => omega
      | limited isResponse isLimit =>
          subst isResponse
          rw [parseRetryAfterMs_fromServe (own isLimit), returns_bind,
            if_neg (by omega)]
          trivial
  | succ more induction =>
      have later := induction (attempt + 1) (by omega)
      obtain ⟨next, isNext, continues⟩ :=
        attempts_succ (β := β) query resource retries (more + 1) attempt
      rw [isNext]
      intro fetched own
      refine ⟨backoff (more + 1) attempt, Nat.le_of_eq (Nat.zero_add _), ?_⟩
      obtain ⟨program, isProgram, step⟩ := continues fetched
      rw [isProgram]
      cases step with
      | answers isBody => trivial
      | stops failed error => trivial
      | waits failed more =>
          intro (jitter : Fin 250) _
          refine ⟨_, Nat.le_of_eq (Nat.zero_add _), ?_⟩
          intro (_ : Unit) _
          refine ⟨_, ?_, later⟩
          have few := jitter.isLt
          change 1000 * 2 ^ attempt + jitter.val + _ ≤
            1000 * 2 ^ attempt + 249 + _
          omega
      | limited isResponse isLimit =>
          subst isResponse
          rw [parseRetryAfterMs_fromServe (own isLimit), returns_bind,
            if_pos (by omega)]
          intro (_ : Unit) _
          refine ⟨_, ?_, later⟩
          change 1000 * 2 ^ attempt + _ ≤ 1000 * 2 ^ attempt + 249 + _
          omega

theorem request_costs (query resource : String) (retries : Nat) :
    (request (β := β) query resource retries).Costs OwnLimit slept
      (backoff retries 0) :=
  attempts_costs query resource retries 0 (Nat.zero_add _)

/-! ## Fetches -/

def isFetch : ClientRequest → Bool
  | .fetch _ => true
  | _ => false

/-- A program that returns without a fetch. -/
inductive Reads {α : Type} : ClientTask β α → Prop where
  | returns (value : α) : Reads (.returns value)
  | asks {request : ClientRequest}
      {next : request.Answer β → ClientTask β α}
      (other : isFetch request = false)
      (later : ∀ answer, Reads (next answer)) : Reads (.asks request next)

theorem Reads.atMost {α : Type} {program : ClientTask β α}
    (reads : Reads program) : program.AtMost isFetch 0 := by
  induction reads with
  | returns value => trivial
  | asks other later induction =>
      unfold AtMost
      rw [if_neg (by rw [other]; decide)]
      exact induction

theorem Reads.ensures {α : Type} {program : ClientTask β α}
    (reads : Reads program)
    {allows permits : List (Exchange (clientHost β)) →
      Exchange (clientHost β) → Prop}
    (all : ∀ past exchange, permits past exchange)
    (past : List (Exchange (clientHost β))) :
    program.Ensures allows permits past
      fun final _ => ∃ value, final = .returned value := by
  induction reads generalizing past with
  | returns value => exact ⟨value, rfl⟩
  | asks other later induction =>
      exact fun answer _ => ⟨all _ _, induction answer _⟩

theorem parseRetryAfterMs_reads (response : HttpResponse β) :
    Reads (parseRetryAfterMs response) := by
  have fromReset : ∀ header : Option String, Reads (β := β)
      (match header with
        | none => Program.returns none
        | some resetHeader =>
            if isDigits resetHeader then
              .asks .now fun now : Int => .returns (some (max 0
                (((if 1000000000000 < digitsValue resetHeader.toList then
                    digitsValue resetHeader.toList
                  else digitsValue resetHeader.toList * 1000 : Nat) : Int) -
                    now)).toNat)
            else .returns none : ClientTask β (Option Nat)) := by
    intro header
    split
    · exact .returns _
    · split
      · exact .asks rfl fun _ => .returns _
      · exact .returns _
  unfold parseRetryAfterMs
  dsimp only
  split
  · exact fromReset response.rateLimitReset
  · split
    · exact fromReset response.rateLimitReset
    · split
      · exact .returns _
      · apply Reads.asks rfl
        intro parsed
        cases parsed with
        | none => exact fromReset response.rateLimitReset
        | some retryAt => exact .asks rfl fun _ => .returns _

/-- No attempt fetches more than once. -/
theorem attempts_atMost (query resource : String) (retries left : Nat)
    (attempt : Nat) :
    (attempts (β := β) query resource retries left attempt).AtMost isFetch
      left := by
  induction left generalizing attempt with
  | zero => trivial
  | succ left induction =>
      obtain ⟨next, isNext, continues⟩ :=
        attempts_succ (β := β) query resource retries left attempt
      rw [isNext]
      refine ⟨Nat.succ_pos left, ?_⟩
      intro fetched
      obtain ⟨program, isProgram, step⟩ := continues fetched
      rw [isProgram]
      cases step with
      | answers isBody => trivial
      | stops failed error => trivial
      | waits failed more => exact fun _ _ => induction (attempt + 1)
      | @limited response isResponse isLimit =>
          have reads := (parseRetryAfterMs_reads response).atMost
          apply (reads.bind ?_).mono (Nat.le_of_eq
            (Nat.zero_add left))
          intro parsed
          split
          · exact fun _ => induction (attempt + 1)
          · trivial

theorem request_atMost (query resource : String) (retries : Nat) :
    (request (β := β) query resource retries).AtMost isFetch
      (retries + 1) :=
  attempts_atMost query resource retries (retries + 1) 0

/-! ## Answers come from the network -/

/-- What is taken for an answer is one. -/
def Honest (answers : String → β → Prop) : Exchange (clientHost β) → Prop
  | ⟨.fetch query, fetched⟩ => ∀ body, fetched.body = some body →
      answers query body
  | _ => True

/-- A fetch that was not answered. -/
def Failed : Exchange (clientHost β) → Prop
  | ⟨.fetch _, fetched⟩ => fetched.body = none
  | _ => False

/-- How a request ends on an honest network. -/
def Settled (answers : β → Prop) (final : Final (clientHost β) β)
    (past : List (Exchange (clientHost β))) : Prop :=
  match final with
  | .returned body => answers body
  | .threw _ => ∃ exchange ∈ past, Failed exchange
  | .unfinished => False

theorem attempts_settled (answers : String → β → Prop)
    (query resource : String) {retries : Nat} (more attempt : Nat)
    (last : attempt + more = retries)
    (past : List (Exchange (clientHost β))) :
    (attempts query resource retries (more + 1) attempt).Ensures
      (fun _ => Honest answers) (fun _ _ => True) past
      (Settled (answers query)) := by
  induction more generalizing attempt past with
  | zero =>
      obtain ⟨next, isNext, continues⟩ :=
        attempts_succ (β := β) query resource retries 0 attempt
      rw [isNext]
      intro fetched honest
      refine ⟨trivial, ?_⟩
      obtain ⟨program, isProgram, step⟩ := continues fetched
      rw [isProgram]
      cases step with
      | @answers body isBody => exact honest body isBody
      | stops failed error =>
          exact ⟨⟨.fetch query, fetched⟩, by simp, failed⟩
      | waits failed more => omega
      | @limited response isResponse isLimit =>
          subst isResponse
          apply ((parseRetryAfterMs_reads response).ensures
            (fun _ _ => trivial) _).bind
          · intro parsed later _
            rw [if_neg (by omega)]
            exact ⟨⟨.fetch query, _⟩, by simp, body_limited isLimit⟩
          · rintro error later ⟨value, same⟩
            cases same
          · rintro later ⟨value, same⟩
            cases same
  | succ more induction =>
      obtain ⟨next, isNext, continues⟩ :=
        attempts_succ (β := β) query resource retries (more + 1) attempt
      rw [isNext]
      intro fetched honest
      refine ⟨trivial, ?_⟩
      obtain ⟨program, isProgram, step⟩ := continues fetched
      rw [isProgram]
      cases step with
      | @answers body isBody => exact honest body isBody
      | stops failed error =>
          exact ⟨⟨.fetch query, fetched⟩, by simp, failed⟩
      | waits failed more =>
          intro jitter _
          refine ⟨trivial, ?_⟩
          intro slept _
          exact ⟨trivial, induction (attempt + 1) (by omega) _⟩
      | @limited response isResponse isLimit =>
          apply ((parseRetryAfterMs_reads response).ensures
            (fun _ _ => trivial) _).bind
          · intro parsed later _
            rw [if_pos (by omega)]
            intro slept _
            exact ⟨trivial, induction (attempt + 1) (by omega) _⟩
          · rintro error later ⟨value, same⟩
            cases same
          · rintro later ⟨value, same⟩
            cases same

theorem request_settled (answers : String → β → Prop)
    (query resource : String) (retries : Nat)
    (past : List (Exchange (clientHost β))) :
    (request query resource retries).Ensures (fun _ => Honest answers)
      (fun _ _ => True) past (Settled (answers query)) :=
  attempts_settled answers query resource retries 0 (Nat.zero_add _) past

end

/-! ## Walks -/

/-- A client that passes `nextCursor` back until it is null.  It is let ask
for `rounds` pages. -/
def walk (query : String) (retries : Nat) : (rounds : Nat) → Option String →
    ClientTask DiscoveryBody (List AgentScores)
  | 0, _ => .unfinished
  | rounds + 1, cursor => do
      let body ← request (withCursor query cursor) "Discovery" retries
      match body.nextCursor with
      | none => return body.items
      | some next => do
          let others ← walk query retries rounds (some next)
          return body.items ++ others

theorem walk_atMost (query : String) (retries rounds : Nat)
    (cursor : Option String) :
    (walk query retries rounds cursor).AtMost isFetch
      ((retries + 1) * rounds) := by
  induction rounds generalizing cursor with
  | zero => trivial
  | succ rounds induction =>
      have page := request_atMost (β := DiscoveryBody)
        (withCursor query cursor) "Discovery" retries
      apply (page.bind ?_).mono (Nat.le_of_eq (Nat.add_comm _ _))
      intro body
      split
      · trivial
      · rename_i next _
        have last : ∀ others, Program.AtMost isFetch
            (.returns (body.items ++ others) :
              ClientTask DiscoveryBody (List AgentScores)) 0 :=
          fun _ => trivial
        exact ((induction (some next)).bind last).mono
          (Nat.le_of_eq (Nat.add_zero _))

theorem walk_costs (query : String) (retries rounds : Nat)
    (cursor : Option String) :
    (walk query retries rounds cursor).Costs OwnLimit slept
      (backoff retries 0 * rounds) := by
  induction rounds generalizing cursor with
  | zero => trivial
  | succ rounds induction =>
      have page := request_costs (β := DiscoveryBody)
        (withCursor query cursor) "Discovery" retries
      apply (page.bind ?_).mono (Nat.le_of_eq (Nat.add_comm _ _))
      intro body
      split
      · trivial
      · rename_i next _
        have last : ∀ others, Program.Costs OwnLimit slept
            (.returns (body.items ++ others) :
              ClientTask DiscoveryBody (List AgentScores)) 0 :=
          fun _ => trivial
        exact ((induction (some next)).bind last).mono
          (Nat.le_of_eq (Nat.add_zero _))

/-- Limited by the explorer itself, a client does not read when its window
ends: however often it is refused, it waits no longer than its own backoff. -/
theorem client_waits_little {query : String} {retries rounds : Nat}
    {cursor : Option String}
    {trace : List (Exchange (clientHost DiscoveryBody))}
    {final : Option (Final (clientHost DiscoveryBody) (List AgentScores))}
    (walked : Yields (walk query retries rounds cursor) trace final)
    (own : ∀ exchange ∈ trace, OwnLimit exchange) :
    (trace.map slept).sum ≤
      (1000 * (2 ^ retries - 1) + 249 * retries) * rounds := by
  have within := (walk_costs query retries rounds cursor).total walked own
  have whole := backoff_add retries 0
  rw [Nat.zero_add, Nat.pow_zero] at whole
  have positive : 1 ≤ 2 ^ retries := Nat.one_le_two_pow
  have same : backoff retries 0 =
      1000 * (2 ^ retries - 1) + 249 * retries := by omega
  rwa [same] at within

/-- A limit of the explorer. -/
def busy (query : String) : Fetched DiscoveryBody :=
  .responded
    { status := 429, retryAfter := none
      rateLimitReset := some (String.ofList (toISOString query.length))
      errorMessage := none, body := .invalid }

/-- A host that refuses every fetch. -/
def busyHost : (request : ClientRequest) → request.Answer DiscoveryBody
  | .fetch query => busy query
  | .now => (0 : Int)
  | .parseDate _ => (none : Option Int)
  | .jitter => (0 : Fin 250)
  | .sleep _ => ()

theorem client_waits_little_busy :
    (((walk "limit=1" DEFAULT_RETRIES 2 none).answeredBy busyHost).1.map
      slept).sum ≤ 15494 := by
  apply client_waits_little (yields_answeredBy busyHost _)
  intro exchange member
  rw [mem_answeredBy member]
  generalize exchange.request = request
  cases request with
  | fetch query => exact fun _ => ⟨rfl, _, rfl⟩
  | now => trivial
  | parseDate text => trivial
  | jitter => trivial
  | sleep ms => trivial

section

variable {platform : Platform} {network : String} {db : DiscoveryDb}

/-- The answers of the explorer while its tables do not change. -/
def Discovered (platform : Platform) (network : String) (db : DiscoveryDb)
    (query : String) (body : DiscoveryBody) : Prop :=
  discover platform network db query = .success body

/-- A walk that ends is the walk of a client that is always answered. -/
theorem walk_settled (query : String) (retries rounds : Nat)
    (cursor : Option String)
    (past : List (Exchange (clientHost DiscoveryBody))) :
    (walk query retries rounds cursor).Ensures
      (fun _ => Honest (Discovered platform network db)) (fun _ _ => True)
      past fun final now =>
        match final with
        | .returned agents =>
            walkDiscovery platform network db query rounds cursor =
              some agents
        | .threw _ => ∃ exchange ∈ now, Failed exchange
        | .unfinished =>
            walkDiscovery platform network db query rounds cursor =
              none := by
  induction rounds generalizing cursor past with
  | zero => rfl
  | succ rounds induction =>
      apply (request_settled (Discovered platform network db) _ _ retries
        past).bind
      · intro body later isBody
        have answered : discover platform network db
            (withCursor query cursor) = .success body := isBody
        unfold walkDiscovery
        rw [answered]
        dsimp only
        cases body.nextCursor with
        | none => rfl
        | some next =>
            apply (induction (some next) (past ++ later)).bind
            · intro others more walked
              exact congrArg (Option.map (body.items ++ ·)) walked
            · exact fun error more failed => failed
            · intro more walked
              exact congrArg (Option.map (body.items ++ ·)) walked
      · exact fun error later failed => failed
      · exact fun later never => never.elim

variable {query : String} {request : DiscoveryRequest}

/-- How a walk may end: with all matching agents in order, or where a fetch
was not answered, but never out of rounds. -/
def Complete (platform : Platform) (db : DiscoveryDb)
    (request : DiscoveryRequest)
    (trace : List (Exchange (clientHost DiscoveryBody))) :
    Option (Final (clientHost DiscoveryBody) (List AgentScores)) → Prop
  | none => True
  | some (.returned agents) =>
      agents.Pairwise (fun first second =>
        (SORTS request.sort).order first second = .lt) ∧
      ∀ row, row ∈ agents ↔
        row ∈ matchingAgents platform db request.conditions
  | some (.threw _) => ∃ exchange ∈ trace, Failed exchange
  | some .unfinished => False

/-- On a network that loses, delays or refuses requests but does not forge
their answers, a walk of as many rounds as there are agents and one never
runs out of them and is given all matching agents in order, or fails because a
fetch was not answered.  It does not fetch a page more often than it may
retry. -/
theorem client_walk_complete (standard : platform.Standard)
    (accepted : readRequest platform network (searchParams query) =
      .ok request)
    (first : Params.get (searchParams query) "cursor" = none)
    (fresh : db.Fresh) (timed : ∀ row ∈ db.rows, Latin row.agent.createdAt)
    (either : Portable query ∨ (matchingAgents platform db
      request.conditions).length ≤ request.limit)
    {retries rounds : Nat} (enough : (matchingAgents platform db
      request.conditions).length < rounds)
    {trace : List (Exchange (clientHost DiscoveryBody))}
    {final : Option (Final (clientHost DiscoveryBody) (List AgentScores))}
    (walked : Yields (walk query retries rounds none) trace final)
    (honest : ∀ exchange ∈ trace,
      Honest (Discovered platform network db) exchange) :
    asked isFetch trace ≤ (retries + 1) * rounds ∧
    Complete platform db request trace final := by
  have whole := walkDiscovery_eq standard (readRequest_ok_iff.mp accepted)
    first fresh timed either enough
  refine ⟨(walk_atMost query retries rounds none).asked_le walked, ?_⟩
  cases final with
  | none => trivial
  | some final =>
      have ends := (walk_settled query retries rounds none []).final walked
        (along_of_forall_mem fun _ => honest)
      cases final with
      | returned agents =>
          have same : walkedAgents platform db request = agents :=
            Option.some.inj (whole.symm.trans ends)
          subst same
          exact ⟨walkedAgents_sorted db, mem_walkedAgents_iff db⟩
      | threw error => exact ends
      | unfinished =>
          rw [whole] at ends
          cases ends

end

/-- An answer of the explorer as it is received. -/
def received (answer : ApiAnswer) : Fetched DiscoveryBody :=
  .responded
    { status := 200, retryAfter := none, rateLimitReset := none
      errorMessage := none
      body :=
        match answer with
        | .success body => .accepted body
        | _ => .unreadable }

theorem body_received {answer : ApiAnswer} {body : DiscoveryBody}
    (isBody : (received answer).body = some body) :
    answer = .success body := by
  cases answer with
  | preflight => cases isBody
  | success other => exact congrArg _ (Option.some.inj isBody)
  | error error => cases isBody

/-- A network that loses nothing. -/
def quietHost : (request : ClientRequest) → request.Answer DiscoveryBody
  | .fetch query => received (discover readerPlatform "mainnet" tiedDb query)
  | .now => (0 : Int)
  | .parseDate _ => (none : Option Int)
  | .jitter => (0 : Fin 250)
  | .sleep _ => ()

theorem quietHost_honest (request : ClientRequest) :
    Honest (Discovered readerPlatform "mainnet" tiedDb)
      ⟨request, quietHost request⟩ := by
  cases request with
  | fetch query => exact fun body isBody => body_received isBody
  | now => trivial
  | parseDate text => trivial
  | jitter => trivial
  | sleep ms => trivial

theorem client_walk_complete_tied : ∃ request,
    readRequest readerPlatform "mainnet"
      (searchParams "network=mainnet&limit=1") = .ok request ∧
    Complete readerPlatform tiedDb request
      ((walk "network=mainnet&limit=1" 3 4 none).answeredBy quietHost).1
      (some ((walk "network=mainnet&limit=1" 3 4 none).answeredBy
        quietHost).2) := by
  have isParams : searchParams "network=mainnet&limit=1" =
      [("network", "mainnet"), ("limit", "1")] := by decide +kernel
  have accepted : readRequest readerPlatform "mainnet"
      (searchParams "network=mainnet&limit=1") =
        .ok { sort := .score, limit := 1, conditions := []
              query := cursorQuery
                [("network", "mainnet"), ("limit", "1")] } := by
    rw [isParams]
    rfl
  have portable : Portable "network=mainnet&limit=1" := by
    unfold Portable
    rw [isParams]
    decide
  refine ⟨_, accepted, (client_walk_complete readerPlatform_standard accepted
    ?_ (show tiedDb.Fresh from rfl) (by decide) (.inl portable) (by decide)
    (yields_answeredBy quietHost _) ?_).2⟩
  · rw [isParams]
    rfl
  · intro exchange member
    rw [mem_answeredBy member]
    exact quietHost_honest exchange.request

end Stellar8004.Web.ExplorerClient
