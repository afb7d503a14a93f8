import Stellar8004.Indexer.Documents
import Stellar8004.Indexer.Host

/-!
# The resolver

`apps/indexer/src/resolve.ts`: `resolvePending` selects agents whose URI is
pending, records a try of each, fetches their documents and stores them.  The
fetches of a round run side by side in the source; they touch no table, so
their order does not matter and here they follow one another.
-/

namespace Stellar8004.Indexer

def RESOLVE_LIMIT : Nat := 20
def CONCURRENCY : Nat := 5
def MAX_ATTEMPTS : Nat := 5
def MAX_STORED_BYTES : Nat := 1500000

structure PendingAgent where
  id : Nat
  agentUri : String
  uriResolveAttempts : Nat
  deriving DecidableEq

structure ResolveResult where
  checked : Nat
  resolved : Nat
  failed : Nat
  exhausted : Nat
  deriving DecidableEq

/-- What `resolve` comes back with.  A rejected promise counts as nothing;
`unwritable` is a value on which `JSON.stringify` throws. -/
inductive Fetched where
  | nothing
  | unwritable
  | document (value : Json)

/-- The columns `store` writes. -/
structure StoredDocument where
  data : String
  trust : String
  services : String
  x402 : Bool
  mpp : Bool
  deriving DecidableEq

/-- The requests of `resolvePending`.  `inTime` is `Date.now() < deadlineMs`,
`now` the time that is written, `pgTime(now())`. -/
inductive ResolveRequest where
  | now
  | inTime
  | selectPending (now : String)
  | recordTries (triedAt : String) (round : List PendingAgent)
  | resolve (uri : String)
  | store (agent : PendingAgent) (columns : StoredDocument) (now : String)

/-- `store` answers the number of rows changed. -/
@[reducible] def ResolveRequest.Answer : ResolveRequest → Type
  | now => String
  | inTime => Bool
  | selectPending _ => Except Thrown (List PendingAgent)
  | recordTries _ _ => Reply Unit
  | resolve _ => Fetched
  | store _ _ _ => Reply Nat

@[reducible] def resolverHost : Interface :=
  { Request := ResolveRequest, Answer := ResolveRequest.Answer
    Error := Thrown }

abbrev ResolverTask := Program resolverHost

namespace Resolver

def call (request : ResolveRequest) : ResolverTask request.Answer :=
  Program.asks request Program.returns

@[simp] theorem call_bind (request : ResolveRequest)
    (next : request.Answer → ResolverTask α) :
    (call request).bind next = Program.asks request next := rfl

/-- `JSON.stringify` of a document and of what is extracted from it. -/
def columnsOf (document : Json) : StoredDocument :=
  { data := document.stringify
    trust := (Json.array ((extractSupportedTrust document).map
      Json.text)).stringify
    services := (Json.array (extractServices document)).stringify
    x402 := extractX402 document
    mpp := extractMpp document }

/-- Whether a row was changed.  What throws is caught. -/
def store (agent : PendingAgent) (fetched : Fetched) (now : String) :
    ResolverTask Bool :=
  match fetched with
  | .nothing => return false
  | .unwritable => return false
  | .document .null => return false
  | .document document => do
      let columns := columnsOf document
      let bytes := (columns.data ++ columns.trust ++
        columns.services).utf8ByteSize
      if MAX_STORED_BYTES < bytes then return false
      else
        let reply ← call (.store agent columns now)
        match reply.result with
        | .ok changes => return 0 < changes
        | .error _ => return false

/-- `resolve(agent.agent_uri)` for the agents of a round. -/
def fetchAll : List PendingAgent →
    ResolverTask (List (PendingAgent × Fetched))
  | [] => return []
  | agent :: round => do
      let fetched ← call (.resolve agent.agentUri)
      let rest ← fetchAll round
      return (agent, fetched) :: rest

/-- The stores of a round. -/
def storeAll : List (PendingAgent × Fetched) → ResolveResult →
    ResolverTask ResolveResult
  | [], result => return result
  | (agent, fetched) :: rest, result => do
      let now ← call .now
      let stored ← store agent fetched now
      let result := { result with checked := result.checked + 1 }
      if stored then
        storeAll rest { result with resolved := result.resolved + 1 }
      else if MAX_ATTEMPTS ≤ agent.uriResolveAttempts + 1 then
        storeAll rest
          { result with
            failed := result.failed + 1, exhausted := result.exhausted + 1 }
      else storeAll rest { result with failed := result.failed + 1 }

/-- The rounds.  Each takes at least one agent, so there are never more rounds
than agents. -/
def resolveRounds : Nat → List PendingAgent → ResolveResult →
    ResolverTask ResolveResult
  | 0, _, result => return result
  | rounds + 1, agents, result => do
      if agents = [] then return result
      else
        let inTime ← call .inTime
        if inTime then
          let round := agents.take CONCURRENCY
          let triedAt ← call .now
          let reply ← call (.recordTries triedAt round)
          match reply.result with
          | .error error => .throws error
          | .ok _ =>
              let documents ← fetchAll round
              let result ← storeAll documents result
              resolveRounds rounds (agents.drop CONCURRENCY) result
        else return result

def resolvePending : ResolverTask ResolveResult := do
  let now ← call .now
  match ← call (.selectPending now) with
  | .error error => .throws error
  | .ok agents =>
      resolveRounds agents.length agents
        { checked := 0, resolved := 0, failed := 0, exhausted := 0 }

end Resolver

end Stellar8004.Indexer
