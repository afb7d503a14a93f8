import Stellar8004.Indexer.Writer

/-!
# The scan

`indexContract` and `indexContracts` of `indexer.ts`.  The variables of
`indexContract` are the fields of `ScanState`; one round of its loop is
`scanPage`.
-/

namespace Stellar8004.Indexer

def SCAN_LIMIT : Nat := 10000
def PAGE_LIMIT : Nat := 100
def MAX_DEFER_ATTEMPTS : Nat := 5

/-- Why a scan ended before the head. -/
inductive Stopped where
  | deferred
  | rpcError
  | deadline
  deriving DecidableEq, Repr

structure ContractResult where
  lastLedger : Nat
  processed : Nat
  skipped : Nat
  stopped : Option Stopped
  deriving DecidableEq, Repr

structure Scan where
  contract : ContractName
  head : Nat
  oldest : Nat
  deadlineMs : Nat
  owner : String

/-- The variables of `indexContract`.  `held` are the events of the ledger a
full page ended in. -/
structure ScanState where
  state : Checkpoint
  saved : Checkpoint
  «from» : Nat
  «to» : Nat
  cursor : Option Cursor
  held : List EventResponse
  processed : Nat
  skipped : Nat

/-- What one page adds: the events of complete ledgers, those held back, and
the ledger reached. -/
structure PageRead where
  scanned : Bool
  ready : List EventResponse
  held : List EventResponse
  reached : Nat

def ScanState.request (loop : ScanState) : EventsRequest :=
  match loop.cursor with
  | some cursor => .after cursor PAGE_LIMIT
  | none => .range loop.from (loop.to + 1) PAGE_LIMIT

def ScanState.read (loop : ScanState) (page : Page) : PageRead :=
  let inWindow := page.events.filter (·.ledger ≤ loop.to)
  let ready := loop.held ++ inWindow
  -- A short page, or one that ran past the window.
  if page.events.length < PAGE_LIMIT ∨
      inWindow.length < page.events.length then
    { scanned := true, ready, held := []
      reached := min loop.to page.latestLedger }
  else
    let last := (ready.getLast?.map EventResponse.ledger).getD 0
    { scanned := false
      ready := ready.filter (·.ledger < last)
      held := ready.filter (·.ledger = last)
      reached := last - 1 }

/-- `save` of `indexContract`. -/
def ScanState.save (runtime : Runtime) (scan : Scan) (loop : ScanState) :
    IndexerTask ScanState :=
  if loop.state = loop.saved then return loop
  else do
    saveCheckpoint runtime scan.contract loop.state scan.owner
    return { loop with saved := loop.state }

/-- How one round of the loop ends. -/
inductive Round where
  | stop (loop : ScanState) (stopped : Option Stopped)
  | next (loop : ScanState)

/-- The end of a round whose page was written. -/
def ScanState.following (scan : Scan) (page : Page) (scanned : Bool)
    (loop : ScanState) : Round :=
  if scanned = false then .next { loop with cursor := some page.cursor }
  else if page.latestLedger < loop.to then .stop loop none
  else
    .next { loop with
      «from» := loop.to + 1
      «to» := min scan.head (loop.to + 1 + SCAN_LIMIT - 1)
      cursor := none }

/-- A round that goes on keeps the checkpoint, and the one saved. -/
theorem ScanState.following_next {scan : Scan} {page : Page} {scanned : Bool}
    {loop next : ScanState}
    (goesOn : loop.following scan page scanned = .next next) :
    next.state = loop.state ∧ next.saved = loop.saved := by
  unfold ScanState.following at goesOn
  split at goesOn
  · cases goesOn
    exact ⟨rfl, rfl⟩
  · split at goesOn <;> cases goesOn
    exact ⟨rfl, rfl⟩

/-- A round ends the scan only when its window was read to the end. -/
theorem ScanState.following_stop {scan : Scan} {page : Page} {scanned : Bool}
    {loop last : ScanState} {stopped : Option Stopped}
    (ends : loop.following scan page scanned = .stop last stopped) :
    scanned = true ∧ last = loop ∧ stopped = none := by
  unfold ScanState.following at ends
  split at ends
  · cases ends
  · rename_i full
    split at ends <;> cases ends
    exact ⟨by simpa using full, rfl, rfl⟩

/-- The page's events are written, and the checkpoint follows them. -/
def writePage (runtime : Runtime) (scan : Scan) (loop : ScanState)
    (page : Page) : IndexerTask Round := do
  let read := loop.read page
  let skip : Bool := MAX_DEFER_ATTEMPTS ≤ loop.state.deferAttempts
  let written ← writeEvents runtime scan.contract read.ready skip
  let _ ← call (.wrote scan.contract read.ready skip written)
  let loop : ScanState :=
    { loop with
      held := read.held
      processed := loop.processed + written.processed
      skipped := loop.skipped + written.skipped }
  if written.deferred then
    let state : Checkpoint :=
      { loop.state with deferAttempts := loop.state.deferAttempts + 1 }
    return .stop { loop with state } (some .deferred)
  else if loop.state.lastLedger < read.reached then do
    let state : Checkpoint := { lastLedger := read.reached, deferAttempts := 0 }
    let loop ← ScanState.save runtime scan { loop with state }
    return loop.following scan page read.scanned
  else return loop.following scan page read.scanned

def scanPage (runtime : Runtime) (scan : Scan) (loop : ScanState) :
    IndexerTask Round := do
  let now ← call .now
  if scan.deadlineMs ≤ now then return .stop loop (some .deadline)
  else
    match ← call (.getEvents scan.contract loop.request) with
    | .error _ => return .stop loop (some .rpcError)
    | .ok page => writePage runtime scan loop page

/-- The loop, given up after `rounds` rounds. -/
def scanPages (runtime : Runtime) (scan : Scan) :
    (rounds : Nat) → ScanState → IndexerTask (ScanState × Option Stopped)
  | 0, _ => .unfinished
  | rounds + 1, loop =>
      if loop.state.lastLedger < scan.head then do
        match ← scanPage runtime scan loop with
        | .stop loop stopped => return (loop, stopped)
        | .next loop => scanPages runtime scan rounds loop
      else return (loop, none)

/-- The dead letter of a retention clamp. -/
def clampEntry (contract : ContractName) («from» oldest : Nat) : DeadLetter :=
  { contract, reason := .retentionClamp, eventId := none
    ledger := some «from»
    detail := some ("ledgers " ++ toString «from» ++ "-" ++
      toString (oldest - 1) ++
      " aged out of RPC retention before they were indexed") }

/-- The scan's first window, past the ledgers that aged out of retention. -/
def openScan (runtime : Runtime) (scan : Scan) (start : Checkpoint) :
    IndexerTask ScanState :=
  if start.lastLedger + 1 < scan.oldest then do
    deadLetter
      (clampEntry scan.contract (start.lastLedger + 1) scan.oldest)
    let state : Checkpoint := { start with lastLedger := scan.oldest - 1 }
    ScanState.save runtime scan
      { state, saved := start, «from» := scan.oldest
        «to» := min scan.head (scan.oldest + SCAN_LIMIT - 1)
        cursor := none, held := [], processed := 0, skipped := 0 }
  else
    return { state := start, saved := start, «from» := start.lastLedger + 1
             «to» := min scan.head (start.lastLedger + 1 + SCAN_LIMIT - 1)
             cursor := none, held := [], processed := 0, skipped := 0 }

def indexContract (runtime : Runtime) (rounds : Nat) (scan : Scan)
    (start : Checkpoint) : IndexerTask ContractResult :=
  if scan.head ≤ start.lastLedger then
    return { lastLedger := start.lastLedger, processed := 0, skipped := 0
             stopped := none }
  else do
    let loop ← openScan runtime scan start
    let (loop, stopped) ← scanPages runtime scan rounds loop
    let loop ← loop.save runtime scan
    return { lastLedger := loop.state.lastLedger
             processed := loop.processed, skipped := loop.skipped, stopped }

/-! ## All contracts -/

/-- Identity first: feedback and validations reference its agents. -/
def CONTRACTS : List ContractName := [.identity, .reputation, .validation]

structure IndexOptions where
  deadlineMs : Nat
  owner : String
  allowRetentionClamp : Bool

structure IndexResult where
  contracts : List (ContractName × ContractResult)
  timedOut : Bool

def indexEach (runtime : Runtime) (rounds : Nat) (options : IndexOptions)
    (oldest : Nat) (checkpoints : ContractName → Checkpoint) :
    List ContractName → (head : Nat) → IndexResult → IndexerTask IndexResult
  | [], _, result => return result
  | contract :: contracts, head, result => do
      let now ← call .now
      if options.deadlineMs ≤ now then return { result with timedOut := true }
      else
        let outcome ← indexContract runtime rounds
          { contract, head, oldest, deadlineMs := options.deadlineMs
            owner := options.owner } (checkpoints contract)
        let timedOut : Bool :=
          result.timedOut || outcome.stopped = some .deadline
        indexEach runtime rounds options oldest checkpoints contracts
          (if contract = .identity then min head outcome.lastLedger else head)
          { contracts := result.contracts ++ [(contract, outcome)], timedOut }

def indexContracts (runtime : Runtime) (rounds : Nat)
    (options : IndexOptions) : IndexerTask IndexResult := do
  let checkpoints ← readCheckpoints
  match ← call .getHealth with
  | .error error => .throws error
  | .ok health =>
      let aged := CONTRACTS.filter fun contract =>
        (checkpoints contract).lastLedger + 1 < health.oldestLedger
      if aged ≠ [] ∧ options.allowRetentionClamp = false then
        .throws (newError ("Checkpoints of " ++
          String.intercalate ", " (aged.map ContractName.text) ++
          " predate RPC retention (oldest ledger " ++
          toString health.oldestLedger ++
          "); set ALLOW_RETENTION_CLAMP=true to skip the gap and record it " ++
          "in indexer_dead_letter"))
      else
        indexEach runtime rounds options health.oldestLedger checkpoints
          CONTRACTS health.latestLedger { contracts := [], timedOut := false }

end Stellar8004.Indexer
