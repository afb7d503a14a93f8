import Stellar8004.Contracts.Interpretation
import Stellar8004.Indexer.Time

/-!
# Runs and what they publish

A run takes calls one after another, each at a ledger no earlier than the one
before it, and publishes their events under fresh identifiers.  The same
notion serves a single contract and the three contracts together.
-/

namespace Stellar8004.Contracts

open Stellar8004.Indexer

/-- The stamps of one call's events, after those published earlier. -/
structure Stamped (earlier : List Stamp) (ledger : Nat)
    (stamps : List Stamp) : Prop where
  /-- The first ledger of a network has sequence number 1. -/
  positive : 0 < ledger
  ledgers : ∀ stamp ∈ stamps, stamp.ledger = ledger
  later : ∀ stamp ∈ earlier, stamp.ledger ≤ ledger
  closed : ∀ stamp ∈ stamps,
    isoLayout stamp.ledgerClosedAt.toList = true
  ids : ((earlier ++ stamps).map Stamp.id).Nodup

/-- States a machine can reach from `start`, with the events it published.
`Step state ledger after events` is one successful call; a call that fails
changes nothing and publishes nothing. -/
inductive Run {σ ε : Type} (Step : σ → Nat → σ → List ε → Prop)
    (start : σ) : σ → List (ε × Stamp) → Prop where
  | start : Run Step start start []
  | call {state after : σ} {log : List (ε × Stamp)}
      (prior : Run Step start state log) (ledger : Nat) (events : List ε)
      (stamps : List Stamp) (step : Step state ledger after events)
      (length : stamps.length = events.length)
      (stamped : Stamped (log.map Prod.snd) ledger stamps) :
      Run Step start after (log ++ events.zip stamps)

/-- The packets the indexer makes of published events. -/
def packetsOf {ε : Type} (contract : ε → ContractName)
    (publish : ε → Emission) (log : List (ε × Stamp)) : List EventPacket :=
  log.filterMap fun entry =>
    packetOf (contract entry.1) ((publish entry.1).response entry.2)

namespace Run

variable {σ ε : Type} {Step : σ → Nat → σ → List ε → Prop} {start state : σ}
  {log : List (ε × Stamp)}

theorem ordered (run : Run Step start state log) :
    log.Pairwise fun left right => left.2.ledger ≤ right.2.ledger := by
  induction run with
  | start => exact .nil
  | call prior ledger events stamps step length stamped induction =>
      apply List.pairwise_append.mpr
      have here : ∀ entry ∈ events.zip stamps, entry.2.ledger = ledger :=
        fun entry member =>
          stamped.ledgers entry.2 (List.of_mem_zip member).2
      refine ⟨induction, ?_, ?_⟩
      · refine List.pairwise_of_forall_mem_list ?_
        intro left first right second
        rw [here left first, here right second]
      · intro left old right new
        rw [here right new]
        exact stamped.later left.2 (List.mem_map_of_mem old)

theorem ids (run : Run Step start state log) :
    (log.map fun entry => entry.2.id).Nodup := by
  cases run with
  | start => exact .nil
  | call prior ledger events stamps step length stamped =>
      have zipped : (events.zip stamps).map Prod.snd = stamps :=
        List.map_snd_zip (by omega)
      have whole := stamped.ids
      rw [← zipped, ← List.map_append, List.map_map] at whole
      exact whole

theorem positive (run : Run Step start state log) :
    ∀ entry ∈ log, 0 < entry.2.ledger := by
  induction run with
  | start => simp
  | call prior ledger events stamps step length stamped induction =>
      intro entry member
      rcases List.mem_append.mp member with old | new
      · exact induction entry old
      · rw [stamped.ledgers entry.2 (List.of_mem_zip new).2]
        exact stamped.positive

theorem closed (run : Run Step start state log) :
    ∀ entry ∈ log, isoLayout entry.2.ledgerClosedAt.toList = true := by
  induction run with
  | start => simp
  | call prior ledger events stamps step length stamped induction =>
      intro entry member
      rcases List.mem_append.mp member with old | new
      · exact induction entry old
      · exact stamped.closed entry.2 (List.of_mem_zip new).2

end Run

/-! ## Parties and stamps of sample runs -/

def firstOwner : Address :=
  { kind := .account, payload := Vector.replicate 32 1 }

def secondOwner : Address :=
  { kind := .account, payload := Vector.replicate 32 2 }

def stampAt (ledger : Nat) (id : String) : Stamp :=
  { id, ledger, ledgerClosedAt := "2026-01-01T00:00:00Z", txHash := "ab" }

def noApprovals : Approvals :=
  { getApproved := fun _ => none, isApprovedForAll := fun _ _ => false }

end Stellar8004.Contracts
