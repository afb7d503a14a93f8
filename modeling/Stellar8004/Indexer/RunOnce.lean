import Stellar8004.Indexer.Resolver
import Stellar8004.Indexer.Scan
import Stellar8004.Library.Embedding

/-!
# One run of the worker

`runOnce` of `index.ts` with `acquireLock` and `releaseLock` of `db.ts`: a run
takes the lock, indexes the contracts, resolves pending URIs and gives the lock
back, whatever happened in between.
-/

namespace Stellar8004.Indexer

def LOCK_STALE_MS : Nat := 180000
def SOFT_BUDGET_MS : Nat := 60000

/-- `Networks.PUBLIC`. -/
def PUBLIC : String := "Public Global Stellar Network ; September 2015"

structure Env where
  STELLAR_NETWORK : Option String
  STELLAR_MAINNET_RPC_PRIMARY_URL : Option String
  STELLAR_MAINNET_RPC_FALLBACK_URL : Option String
  ALLOW_RETENTION_CLAMP : Option String

/-- The requests of a run.  `connect` is `choose` and the connection to the
URL it returns; `acquireLock` answers the owner of the row it returns. -/
inductive RunRequest where
  | now
  | acquireLock (acquiredAt owner staleBefore : String)
  | releaseLock (owner : String)
  | connect (urls : List String)
  | getNetwork
  | index (request : Request)
  | resolve (request : ResolveRequest)

@[reducible] def RunRequest.Answer : RunRequest → Type
  | now => Nat
  | acquireLock _ _ _ => Reply (Option String)
  | releaseLock _ => Reply Unit
  | connect _ => Except Thrown Unit
  | getNetwork => Except Thrown String
  | index request => request.Answer
  | resolve request => request.Answer

@[reducible] def runHost : Interface :=
  { Request := RunRequest, Answer := RunRequest.Answer, Error := Thrown }

abbrev RunTask := Program runHost

namespace Run

def call (request : RunRequest) : RunTask request.Answer :=
  Program.asks request Program.returns

@[simp] theorem call_bind (request : RunRequest)
    (next : request.Answer → RunTask α) :
    (call request).bind next = Program.asks request next := rfl

/-- The requests of `indexContracts`. -/
def indexing : Embedding indexerHost runHost where
  request := .index
  answer _ reply := reply
  error := id
  shows
    | ⟨.index request, reply⟩ => some ⟨request, reply⟩
    | _ => none
  shows_request _ _ := rfl

/-- The requests of `resolvePending`. -/
def resolving : Embedding resolverHost runHost where
  request := .resolve
  answer _ reply := reply
  error := id
  shows
    | ⟨.resolve request, reply⟩ => some ⟨request, reply⟩
    | _ => none
  shows_request _ _ := rfl

def acquireLock (runtime : Runtime) (owner : String) : RunTask Bool := do
  let time ← call .now
  match pgTime runtime (.date (some (Int.ofNat time))) with
  | .error message => .throws (newError message)
  | .ok acquiredAt =>
      match pgTime runtime
        (.date (some (Int.ofNat time - Int.ofNat LOCK_STALE_MS))) with
      | .error message => .throws (newError message)
      | .ok staleBefore =>
          let reply ← call (.acquireLock acquiredAt owner staleBefore)
          match reply.result with
          | .error error => .throws error
          | .ok returned => return returned = some owner

/-- What it throws is logged by the caller, not thrown. -/
def releaseLock (owner : String) : RunTask Unit := do
  let _ ← call (.releaseLock owner)
  return ()

inductive RunResult where
  | skipped
  | ran (indexed : IndexResult) (resolve : ResolveResult)

/-- The urls that are set. -/
def urls (env : Env) : List String :=
  [env.STELLAR_MAINNET_RPC_PRIMARY_URL,
    env.STELLAR_MAINNET_RPC_FALLBACK_URL].filterMap fun url =>
      url.filter (· ≠ "")

def indexOptions (env : Env) (owner : String) (deadlineMs : Nat) :
    IndexOptions :=
  { deadlineMs, owner
    allowRetentionClamp := env.ALLOW_RETENTION_CLAMP = some "true" }

/-- What a run does while it holds the lock. -/
def whileLocked (runtime : Runtime) (rounds : Nat) (env : Env)
    (owner : String) (deadlineMs : Nat) : RunTask RunResult := do
  match ← call (.connect (urls env)) with
  | .error error => .throws error
  | .ok _ =>
      match ← call .getNetwork with
      | .error error => .throws error
      | .ok passphrase =>
          if passphrase ≠ PUBLIC then
            .throws (newError ("Refusing to run: RPC network is \"" ++
              passphrase ++ "\", expected mainnet"))
          else
            let indexed ← (indexContracts runtime rounds
              (indexOptions env owner deadlineMs)).lift indexing
            let resolve ← Resolver.resolvePending.lift resolving
            return .ran indexed resolve

/-- `owner` is the run's `crypto.randomUUID()`. -/
def runOnce (runtime : Runtime) (rounds : Nat) (env : Env)
    (owner : String) : RunTask RunResult :=
  if env.STELLAR_NETWORK ≠ some "mainnet" then
    .throws (newError ("Refusing to run: STELLAR_NETWORK is \"" ++
      env.STELLAR_NETWORK.getD "undefined" ++ "\", expected \"mainnet\""))
  else if urls env = [] then
    .throws (newError "No Stellar RPC URL configured")
  else do
    let started ← call .now
    let acquired ← acquireLock runtime owner
    if acquired then
      (whileLocked runtime rounds env owner
        (started + SOFT_BUDGET_MS)).andFinally (releaseLock owner)
    else return .skipped

end Run

end Stellar8004.Indexer
