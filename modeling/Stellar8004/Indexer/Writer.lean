import Stellar8004.Indexer.Host

/-!
# Writing a page of events

`writeEvents` and `recordMissingParents` of `indexer.ts`.  A page's packets go
to the database in batches; a batch that fails on a constraint is replayed one
event at a time, so that only the failing event defers the contract or, when
skipping is armed, is dead-lettered.
-/

namespace Stellar8004.Indexer

/-- Also the D1 batch size: one statement per event. -/
def BATCH_LIMIT : Nat := 100

/-- The list in slices of `limit`, in at most `rounds` of them. -/
def slicesWithin (limit : Nat) : (rounds : Nat) → List α → List (List α)
  | _, [] => []
  | 0, _ => []
  | rounds + 1, items =>
      items.take limit :: slicesWithin limit rounds (items.drop limit)

/-- `ordered.slice(offset, offset + BATCH_LIMIT)` for every offset. -/
def batches (ordered : List α) : List (List α) :=
  slicesWithin BATCH_LIMIT ordered.length ordered

theorem flatten_slicesWithin {limit : Nat} (positive : 0 < limit)
    (rounds : Nat) (items : List α) (enough : items.length ≤ rounds) :
    (slicesWithin limit rounds items).flatten = items := by
  induction rounds generalizing items with
  | zero =>
      have empty : items = [] := by
        rwa [Nat.le_zero, List.length_eq_zero_iff] at enough
      subst empty
      rfl
  | succ rounds induction =>
      cases items with
      | nil => rfl
      | cons item items =>
          have shorter : ((item :: items).drop limit).length ≤ rounds := by
            rw [List.length_drop]
            simp only [List.length_cons] at enough ⊢
            omega
          rw [slicesWithin, List.flatten_cons, induction _ shorter,
            List.take_append_drop]
          exact List.cons_ne_nil item items

@[simp] theorem flatten_batches (ordered : List α) :
    (batches ordered).flatten = ordered :=
  flatten_slicesWithin (by decide) _ _ (Nat.le_refl _)

/-- The dead letter of an event that does not parse. -/
def unparseableEntry (contract : ContractName) (event : EventResponse)
    (reason : String) : DeadLetter :=
  { contract, reason := .unparseable, eventId := some event.id
    ledger := some event.ledger, detail := some reason }

/-- The packets of the events that parse, and how many were dead-lettered as
unparseable. -/
def readEvents (contract : ContractName) :
    List EventResponse → IndexerTask (List EventPacket × Nat)
  | [] => return ([], 0)
  | event :: events =>
      match interpret contract event with
      | .parsed data => do
          let (packets, skipped) ← readEvents contract events
          return ({ id := event.id, contract, data } :: packets, skipped)
      | .ignored _ => readEvents contract events
      | .invalid reason => do
          deadLetter (unparseableEntry contract event reason)
          let (packets, skipped) ← readEvents contract events
          return (packets, skipped + 1)

def recordMissingParents (unchanged : List EventPacket) :
    IndexerTask Nat :=
  match unchanged.filterMap missingParentStatement with
  | [] => return 0
  | statements => do
      let reply ← call (.recordMissing statements)
      match reply.result with
      | .error _ => return 0
      | .ok changes => return (changes.filter (· ≠ 0)).length

/-- What becomes of one batch: written up to the event it defers at, or the
rows each statement changed, `none` for an event skipped. -/
inductive Replayed where
  | deferred (written : Nat)
  | finished (changes : List (Option Nat)) (skipped : Nat)

def Failure.reason : Failure → DeadLetterReason
  | parent => .skipRetryable
  | constraint => .skipNonretryable

/-- The dead letter of an event whose statement fails when skipping is
armed. -/
def skipEntry (contract : ContractName) (packet : EventPacket)
    (error : Thrown) (failure : Failure) : DeadLetter :=
  { contract, reason := failure.reason, eventId := some packet.id
    ledger := some packet.ledger, detail := some error.text }

/-- A rolled back batch, one event at a time. -/
def replay (contract : ContractName) (skip : Bool) :
    List EventWrite → List (Option Nat) → Nat → IndexerTask Replayed
  | [], changes, skipped => return .finished changes skipped
  | write :: writes, changes, skipped => do
      let reply ← call (.run write)
      match reply.result with
      | .ok count =>
          replay contract skip writes (changes ++ [some count]) skipped
      | .error error =>
          match constraintFailure error with
          | none => .throws error
          | some failure =>
              if skip then do
                deadLetter (skipEntry contract write.packet error failure)
                replay contract skip writes (changes ++ [none]) (skipped + 1)
              else return .deferred changes.length

def writeBatch (contract : ContractName) (skip : Bool)
    (writes : List EventWrite) : IndexerTask Replayed := do
  let reply ← call (.batch writes)
  match reply.result with
  | .ok changes => return .finished (changes.map some) 0
  | .error error =>
      match constraintFailure error with
      | none => .throws error
      | some _ => replay contract skip writes [] 0

/-- The bound statement of a packet. -/
def eventWrite (runtime : Runtime) (now : String) (packet : EventPacket) :
    Except String EventWrite := do
  let statement ← eventStatement runtime packet now
  return { packet, statement }

/-- The packets whose statement changed no row. -/
def unchanged (packets : List EventPacket) (changes : List (Option Nat)) :
    List EventPacket :=
  ((packets.zip changes).filter (·.2 = some 0)).map Prod.fst

def writeBatches (runtime : Runtime) (contract : ContractName)
    (skip : Bool) (now : String) :
    List (List EventPacket) → (processed skipped : Nat) → IndexerTask Written
  | [], processed, skipped =>
      return { processed, skipped, deferred := false }
  | chunk :: chunks, processed, skipped =>
      match chunk.mapM (eventWrite runtime now) with
      | .error message => .throws (newError message)
      | .ok writes => do
          match ← writeBatch contract skip writes with
          | .deferred written =>
              return { processed := processed + written, skipped,
                       deferred := true }
          | .finished changes more => do
              let recorded ← recordMissingParents (unchanged chunk changes)
              writeBatches runtime contract skip now chunks
                (processed + (changes.filter Option.isSome).length)
                (skipped + more + recorded)

def writeEvents (runtime : Runtime) (contract : ContractName)
    (events : List EventResponse) (skip : Bool) : IndexerTask Written := do
  let (packets, skipped) ← readEvents contract events
  let now ← pgNow runtime
  writeBatches runtime contract skip now (batches (parentsFirst packets)) 0
    skipped

end Stellar8004.Indexer
