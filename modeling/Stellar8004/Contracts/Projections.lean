import Stellar8004.Contracts.IdentityRefinement
import Stellar8004.Contracts.ReputationRefinement
import Stellar8004.Contracts.ValidationRefinement

/-!
# One contract of a chain

A run of the three registries together is a run of each of them, with the
events it published itself.  Of a run whose texts are legible every event can
be read, so the packets of one registry are the chain's packets of that
contract.
-/

namespace Stellar8004.Contracts

open Stellar8004.Indexer

/-! ## Picking events -/

/-- The entries of a log that are of one kind. -/
def picked {ε δ : Type} (pick : ε → Option δ) (log : List (ε × Stamp)) :
    List (δ × Stamp) :=
  log.filterMap fun entry => (pick entry.1).map fun event => (event, entry.2)

section

variable {σ τ ε δ : Type} {Step : σ → Nat → σ → List ε → Prop}
  {Part : τ → Nat → τ → List δ → Prop} {start state : σ}
  {log : List (ε × Stamp)} {pick : ε → Option δ} {embed : δ → ε}

theorem picked_append (pick : ε → Option δ) (first second : List (ε × Stamp)) :
    picked pick (first ++ second) =
      picked pick first ++ picked pick second :=
  List.filterMap_append

/-- Nothing is picked of events of other kinds. -/
theorem picked_zip_of_none {events : List ε}
    (others : ∀ event ∈ events, pick event = none) (stamps : List Stamp) :
    picked pick (events.zip stamps) = [] := by
  apply List.filterMap_eq_nil_iff.mpr
  intro entry member
  rw [others entry.1 (List.of_mem_zip member).1]
  rfl

/-- Events of one kind are all picked. -/
theorem picked_zip_of_map (picks : ∀ event, pick (embed event) = some event)
    (published : List δ) (stamps : List Stamp) :
    picked pick ((published.map embed).zip stamps) = published.zip stamps := by
  unfold picked
  rw [List.zip_map_left, List.filterMap_map]
  have same : ((fun entry : ε × Stamp => (pick entry.1).map fun event =>
      (event, entry.2)) ∘ Prod.map embed id) = some := by
    funext entry
    simp [picks]
  rw [same, List.filterMap_some]

theorem picked_stamps_sublist (pick : ε → Option δ)
    (log : List (ε × Stamp)) :
    ((picked pick log).map Prod.snd).Sublist (log.map Prod.snd) := by
  induction log with
  | nil => exact .slnil
  | cons entry log induction =>
      unfold picked at induction ⊢
      cases found : pick entry.1 with
      | none =>
          rw [List.filterMap_cons_none (by rw [found]; rfl)]
          exact induction.cons _
      | some event =>
          rw [List.filterMap_cons_some (by rw [found]; rfl)]
          exact induction.cons_cons _

theorem Stamped.sublist {earlier fewer stamps : List Stamp} {ledger : Nat}
    (stamped : Stamped earlier ledger stamps)
    (sublist : fewer.Sublist earlier) : Stamped fewer ledger stamps where
  positive := stamped.positive
  ledgers := stamped.ledgers
  later stamp member := stamped.later stamp (sublist.subset member)
  closed := stamped.closed
  ids := stamped.ids.sublist
    ((sublist.append (List.Sublist.refl stamps)).map Stamp.id)

/-- A machine that takes part in another one runs with it. -/
theorem Run.project (view : σ → τ) (pick : ε → Option δ) (embed : δ → ε)
    (picks : ∀ event, pick (embed event) = some event)
    (steps : ∀ {state ledger after events}, Step state ledger after events →
      (∃ published, events = published.map embed ∧
        Part (view state) ledger (view after) published) ∨
      view after = view state ∧ ∀ event ∈ events, pick event = none)
    (run : Run Step start state log) :
    Run Part (view start) (view state) (picked pick log) := by
  induction run with
  | start => exact .start
  | call prior ledger events stamps step length stamped induction =>
      rw [picked_append]
      rcases steps step with ⟨published, rfl, part⟩ | ⟨same, others⟩
      · rw [picked_zip_of_map picks]
        refine .call induction ledger published stamps part ?_ ?_
        · rw [length, List.length_map]
        · exact stamped.sublist (picked_stamps_sublist _ _)
      · rw [picked_zip_of_none others, List.append_nil, same]
        exact induction

theorem Run.mono {Other : σ → Nat → σ → List ε → Prop}
    (implies : ∀ {state ledger after events}, Step state ledger after events →
      Other state ledger after events)
    (run : Run Step start state log) : Run Other start state log := by
  induction run with
  | start => exact .start
  | call prior ledger events stamps step length stamped induction =>
      exact .call induction ledger events stamps (implies step) length stamped

end

/-! ## The registries of a chain -/

namespace ContractEvent

def identity? : ContractEvent → Option IdentityEvent
  | identity event => some event
  | _ => none

def reputation? : ContractEvent → Option ReputationEvent
  | reputation event => some event
  | _ => none

def validation? : ContractEvent → Option ValidationEvent
  | validation event => some event
  | _ => none

end ContractEvent

/-- The texts of a call can be read back: identity texts are UTF-8 without a
byte order mark, reputation texts are UTF-8. -/
def ContractCall.Legible : ContractCall → Prop
  | .identity request => ∀ text ∈ request.texts, Readable text
  | .reputation request => ∀ text ∈ request.texts, ValidText text
  | .validation _ => True

/-- One successful call with legible texts, under any approvals. -/
def Chain.LegibleStep (chain : Chain) (ledger : Nat) (after : Chain)
    (events : List ContractEvent) : Prop :=
  ∃ approvals request, request.Legible ∧
    chain.call approvals ledger request = some (after, events)

section

variable {chain after : Chain} {ledger : Nat} {events : List ContractEvent}
  {log : List (ContractEvent × Stamp)}

theorem Chain.LegibleStep.step (legible : chain.LegibleStep ledger after
    events) : chain.Step ledger after events := by
  obtain ⟨approvals, request, _, success⟩ := legible
  exact ⟨approvals, request, success⟩

/-- What one legible step does, by the contract that takes it. -/
theorem Chain.LegibleStep.takes (legible : chain.LegibleStep ledger after
    events) :
    (∃ identity published,
      chain.identity.Step ledger identity published ∧
        after = { chain with identity } ∧
        events = published.map .identity) ∨
    (∃ reputation published,
      chain.reputation.Step ledger reputation published ∧
        after = { chain with reputation } ∧
        events = published.map .reputation) ∨
    ∃ validation published,
      chain.validation.Step ledger validation published ∧
        after = { chain with validation } ∧
        events = published.map .validation := by
  obtain ⟨approvals, request, texts, success⟩ := legible
  cases request with
  | identity request =>
      simp only [call] at success
      split at success
      · cases success
      · rename_i state published result
        cases success
        exact .inl ⟨state, published, ⟨approvals, request, texts, result⟩,
          rfl, rfl⟩
  | reputation request =>
      simp only [call] at success
      split at success
      · cases success
      · rename_i state published result
        cases success
        exact .inr (.inl ⟨state, published, ⟨_, request, texts, result⟩, rfl,
          rfl⟩)
  | validation request =>
      simp only [call] at success
      split at success
      · cases success
      · rename_i state published result
        cases success
        exact .inr (.inr ⟨state, published, ⟨_, request, result⟩, rfl, rfl⟩)

theorem Run.identity (run : Run Chain.LegibleStep Chain.initial chain log) :
    Run IdentityState.Step .initial chain.identity
      (picked ContractEvent.identity? log) := by
  refine run.project Chain.identity ContractEvent.identity? ContractEvent.identity
    (fun _ => rfl) ?_
  intro state ledger after events step
  rcases step.takes with ⟨identity, published, part, rfl, rfl⟩ |
    ⟨reputation, published, _, rfl, rfl⟩ |
    ⟨validation, published, _, rfl, rfl⟩
  · exact .inl ⟨published, rfl, part⟩
  · exact .inr ⟨rfl, by simp [ContractEvent.identity?]⟩
  · exact .inr ⟨rfl, by simp [ContractEvent.identity?]⟩

theorem Run.reputation (run : Run Chain.LegibleStep Chain.initial chain log) :
    Run ReputationState.Step .initial chain.reputation
      (picked ContractEvent.reputation? log) := by
  refine run.project Chain.reputation ContractEvent.reputation? ContractEvent.reputation
    (fun _ => rfl) ?_
  intro state ledger after events step
  rcases step.takes with ⟨identity, published, _, rfl, rfl⟩ |
    ⟨reputation, published, part, rfl, rfl⟩ |
    ⟨validation, published, _, rfl, rfl⟩
  · exact .inr ⟨rfl, by simp [ContractEvent.reputation?]⟩
  · exact .inl ⟨published, rfl, part⟩
  · exact .inr ⟨rfl, by simp [ContractEvent.reputation?]⟩

theorem Run.validation (run : Run Chain.LegibleStep Chain.initial chain log) :
    Run ValidationState.Step .initial chain.validation
      (picked ContractEvent.validation? log) := by
  refine run.project Chain.validation ContractEvent.validation? ContractEvent.validation
    (fun _ => rfl) ?_
  intro state ledger after events step
  rcases step.takes with ⟨identity, published, _, rfl, rfl⟩ |
    ⟨reputation, published, _, rfl, rfl⟩ |
    ⟨validation, published, part, rfl, rfl⟩
  · exact .inr ⟨rfl, by simp [ContractEvent.validation?]⟩
  · exact .inr ⟨rfl, by simp [ContractEvent.validation?]⟩
  · exact .inl ⟨published, rfl, part⟩

end

end Stellar8004.Contracts
