import Stellar8004.Indexer.Cells
import Stellar8004.Library.Replay

/-!
# Replaying a segment of a cell's history

The writes to one cell, taken in ledger order with the event that creates it
first, are idempotent segment by segment.  The mechanisms differ: creation
does nothing the second time, ledger guards turn older updates away, response
identifiers are remembered, and what an old wallet or metadata write brings
back a later transfer clears again.
-/

namespace Stellar8004.Indexer

/-- Events in the order of their ledgers. -/
def LedgerOrdered (events : List ParsedEvent) : Prop :=
  events.Pairwise fun left right => left.base.ledger ≤ right.base.ledger

theorem LedgerOrdered.segment {events segment : List ParsedEvent}
    (ordered : LedgerOrdered events) (isInfix : segment <:+: events) :
    LedgerOrdered segment :=
  ordered.sublist isInfix.sublist

/-! ## Agents -/

/-- The URI and the holding of an agent evolve independently. -/
theorem AgentCell.foldl_step (events : List ParsedEvent) (cell : AgentCell) :
    events.foldl AgentCell.step cell =
      { cell with
        uri := (events.filterMap ParsedEvent.uriWrite).foldl uriStore.apply
          cell.uri
        holding := (events.filterMap ParsedEvent.holdingWrite).foldl
          ResettableMap.apply cell.holding } := by
  induction events generalizing cell with
  | nil => rfl
  | cons event events induction =>
      rw [List.foldl_cons, induction]
      cases event <;> rfl

theorem LedgerOrdered.uriWrites {events : List ParsedEvent}
    (ordered : LedgerOrdered events) :
    (events.filterMap ParsedEvent.uriWrite).Pairwise
      fun left right => uriStore.stamp left ≤ uriStore.stamp right := by
  refine List.Pairwise.filterMap ParsedEvent.uriWrite ?_ ordered
  intro left right before first isFirst second isSecond
  cases left <;> cases isFirst
  cases right <;> cases isSecond
  exact before

theorem LedgerOrdered.holdingWrites {events : List ParsedEvent}
    (ordered : LedgerOrdered events) :
    ResettableMap.Ordered (events.filterMap ParsedEvent.holdingWrite) := by
  unfold ResettableMap.Ordered
  rw [List.filterMap_filterMap]
  refine List.Pairwise.filterMap _ ?_ ordered
  intro left right before first isFirst second isSecond
  cases left <;> cases isFirst
  cases right <;> cases isSecond
  exact before

theorem AgentCell.foldl_step_idempotent {events : List ParsedEvent}
    (ordered : LedgerOrdered events) (cell : AgentCell) :
    events.foldl AgentCell.step (events.foldl AgentCell.step cell) =
      events.foldl AgentCell.step cell := by
  simp only [AgentCell.foldl_step,
    GuardedWrite.foldl_apply_idempotent _ _ _ ordered.uriWrites,
    ResettableMap.foldl_apply_idempotent _ _ ordered.holdingWrites]

section

variable (runtime : Runtime)

theorem stepAgent_births :
    Replay.Births (stepAgent runtime) (fun cell => cell.isSome = true)
      (fun event => event.isRegistered = true) where
  stays cell event living := by
    obtain ⟨existing, rfl⟩ := Option.isSome_iff_exists.mp living
    rfl
  dormant cell event dead other := by
    have absent : cell = none := Option.not_isSome_iff_eq_none.mp dead
    subst absent
    cases event <;> first | rfl | exact absurd rfl other
  born cell event dead birth := by
    have absent : cell = none := Option.not_isSome_iff_eq_none.mp dead
    subst absent
    cases event <;> first | rfl | cases birth
  reborn cell event living birth := by
    obtain ⟨existing, rfl⟩ := Option.isSome_iff_exists.mp living
    cases event <;> first | rfl | cases birth

theorem foldl_stepAgent_some (events : List ParsedEvent) (cell : AgentCell) :
    events.foldl (stepAgent runtime) (some cell) =
      some (events.foldl AgentCell.step cell) := by
  induction events generalizing cell with
  | nil => rfl
  | cons event events induction => exact induction (cell.step event)

/-- Segments of an agent's history are idempotent. -/
theorem stepAgent_segmentIdempotent {events : List ParsedEvent}
    (ordered : LedgerOrdered events) :
    Replay.SegmentIdempotent (stepAgent runtime)
      (fun cell => cell.isSome = true) events := by
  intro segment isInfix cell living
  obtain ⟨existing, rfl⟩ := Option.isSome_iff_exists.mp living
  simp only [foldl_stepAgent_some,
    AgentCell.foldl_step_idempotent (ordered.segment isInfix)]

/-! ## Feedback -/

/-- The revocation an event makes, if any. -/
def ParsedEvent.revocation : ParsedEvent → Option FeedbackRevokedEvent
  | .feedbackRevoked e => some e
  | _ => none

/-- The response an event appends, if any. -/
def ParsedEvent.response : ParsedEvent → Option ResponseAppendedEvent
  | .responseAppended e => some e
  | _ => none

/-- A response is stored once for each identifier. -/
def appendResponse (responses : List ResponseRow)
    (event : ResponseAppendedEvent) : List ResponseRow :=
  if responses.any (·.eventId = event.eventId) then responses
  else responses ++ [appendedResponse runtime responses event]

theorem any_appendResponse (responses : List ResponseRow)
    (event : ResponseAppendedEvent) :
    (appendResponse runtime responses event).any
      (·.eventId = event.eventId) = true := by
  unfold appendResponse
  split
  · assumption
  · simp [appendedResponse]

theorem any_foldl_appendResponse (events : List ResponseAppendedEvent)
    (responses : List ResponseRow) (eventId : String)
    (known : responses.any (·.eventId = eventId) = true) :
    (events.foldl (appendResponse runtime) responses).any
      (·.eventId = eventId) = true := by
  induction events generalizing responses with
  | nil => exact known
  | cons event events induction =>
      apply induction
      unfold appendResponse
      split
      · exact known
      · simp only [List.any_append, known, Bool.true_or]

theorem foldl_appendResponse_of_known (events : List ResponseAppendedEvent)
    (responses : List ResponseRow)
    (known : ∀ event ∈ events,
      responses.any (·.eventId = event.eventId) = true) :
    events.foldl (appendResponse runtime) responses = responses := by
  induction events with
  | nil => rfl
  | cons event events induction =>
      have first : appendResponse runtime responses event = responses := by
        rw [appendResponse, if_pos (known event List.mem_cons_self)]
      rw [List.foldl_cons, first]
      exact induction fun other member =>
        known other (List.mem_cons_of_mem _ member)

theorem foldl_appendResponse_knows (events : List ResponseAppendedEvent)
    (responses : List ResponseRow) :
    ∀ event ∈ events,
      (events.foldl (appendResponse runtime) responses).any
        (·.eventId = event.eventId) = true := by
  induction events generalizing responses with
  | nil => simp
  | cons event events induction =>
      intro other member
      rw [List.foldl_cons]
      rcases List.mem_cons.mp member with rfl | later
      · exact any_foldl_appendResponse runtime events _ _
          (any_appendResponse runtime responses other)
      · exact induction _ other later

/-- The revocation and the responses of a feedback evolve independently. -/
theorem foldl_stepFeedback_some (events : List ParsedEvent)
    (row : FeedbackRow) (responses : List ResponseRow) :
    events.foldl (stepFeedback runtime) { row := some row, responses } =
      { row := some (row.withRevoked
          ((events.filterMap ParsedEvent.revocation).foldl
            revokedStore.apply row.revoked))
        responses := (events.filterMap ParsedEvent.response).foldl
          (appendResponse runtime) responses } := by
  induction events generalizing row responses with
  | nil => rfl
  | cons event events induction =>
      rw [List.foldl_cons]
      cases event with
      | feedbackRevoked e =>
          simp only [stepFeedback, induction]
          rfl
      | responseAppended e =>
          have stepped : stepFeedback runtime { row := some row, responses }
              (.responseAppended e) =
                { row := some row
                  responses := appendResponse runtime responses e } := by
            simp only [stepFeedback, appendResponse]
            split <;> rfl
          rw [stepped, induction]
          rfl
      | _ =>
          simp only [stepFeedback, induction]
          rfl

theorem LedgerOrdered.revocations {events : List ParsedEvent}
    (ordered : LedgerOrdered events) :
    (events.filterMap ParsedEvent.revocation).Pairwise
      fun left right => revokedStore.stamp left ≤ revokedStore.stamp right := by
  refine List.Pairwise.filterMap ParsedEvent.revocation ?_ ordered
  intro left right before first isFirst second isSecond
  cases left <;> cases isFirst
  cases right <;> cases isSecond
  exact before

/-- Creation of feedback. -/
def ParsedEvent.isNewFeedback : ParsedEvent → Bool
  | .newFeedback _ => true
  | _ => false

theorem stepFeedback_births :
    Replay.Births (stepFeedback runtime) (fun cell => cell.row.isSome = true)
      (fun event => event.isNewFeedback = true) where
  stays cell event living := by
    obtain ⟨row, responses⟩ := cell
    obtain ⟨existing, found⟩ := Option.isSome_iff_exists.mp living
    cases found
    have stepped := foldl_stepFeedback_some runtime [event] existing responses
    rw [List.foldl_cons, List.foldl_nil] at stepped
    rw [stepped]
    rfl
  dormant cell event dead other := by
    obtain ⟨row, responses⟩ := cell
    cases Option.not_isSome_iff_eq_none.mp dead
    cases event <;> first | rfl | exact absurd rfl other
  born cell event dead birth := by
    obtain ⟨row, responses⟩ := cell
    cases Option.not_isSome_iff_eq_none.mp dead
    cases event <;> first | rfl | cases birth
  reborn cell event living birth := by
    obtain ⟨row, responses⟩ := cell
    obtain ⟨existing, found⟩ := Option.isSome_iff_exists.mp living
    cases found
    cases event <;> first | rfl | cases birth

/-- Segments of a feedback's history are idempotent. -/
theorem stepFeedback_segmentIdempotent {events : List ParsedEvent}
    (ordered : LedgerOrdered events) :
    Replay.SegmentIdempotent (stepFeedback runtime)
      (fun cell => cell.row.isSome = true) events := by
  intro segment isInfix cell living
  obtain ⟨row, responses⟩ := cell
  obtain ⟨existing, found⟩ := Option.isSome_iff_exists.mp living
  cases found
  have revoked := GuardedWrite.foldl_apply_idempotent
    revokedStore _ existing.revoked
    (ordered.segment isInfix).revocations
  simp only [foldl_stepFeedback_some]
  rw [foldl_appendResponse_of_known runtime _ _
    (foldl_appendResponse_knows runtime _ responses)]
  congr 2
  exact congrArg existing.withRevoked revoked

/-! ## Validations -/

/-- The answer an event gives to a request, if any. -/
def ParsedEvent.answer : ParsedEvent → Option ValidationResponseEvent
  | .validationResponse e => some e
  | _ => none

theorem foldl_stepValidation_some (events : List ParsedEvent)
    (row : ValidationRow) :
    events.foldl (stepValidation runtime) (some row) =
      some (row.withAnswer
        ((events.filterMap ParsedEvent.answer).foldl
          (answerStore runtime).apply row.answer)) := by
  induction events generalizing row with
  | nil => rfl
  | cons event events induction =>
      rw [List.foldl_cons]
      cases event with
      | validationResponse e =>
          simp only [stepValidation, induction]
          rfl
      | _ =>
          simp only [stepValidation, induction]
          rfl

theorem LedgerOrdered.answers {events : List ParsedEvent}
    (ordered : LedgerOrdered events) :
    (events.filterMap ParsedEvent.answer).Pairwise fun left right =>
      (answerStore runtime).stamp left ≤ (answerStore runtime).stamp right := by
  refine List.Pairwise.filterMap ParsedEvent.answer ?_ ordered
  intro left right before first isFirst second isSecond
  cases left <;> cases isFirst
  cases right <;> cases isSecond
  exact before

/-- Creation of a validation request. -/
def ParsedEvent.isValidationRequest : ParsedEvent → Bool
  | .validationRequest _ => true
  | _ => false

theorem stepValidation_births :
    Replay.Births (stepValidation runtime) (fun cell => cell.isSome = true)
      (fun event => event.isValidationRequest = true) where
  stays cell event living := by
    obtain ⟨row, rfl⟩ := Option.isSome_iff_exists.mp living
    cases event <;> rfl
  dormant cell event dead other := by
    cases Option.not_isSome_iff_eq_none.mp dead
    cases event <;> first | rfl | exact absurd rfl other
  born cell event dead birth := by
    cases Option.not_isSome_iff_eq_none.mp dead
    cases event <;> first | rfl | cases birth
  reborn cell event living birth := by
    obtain ⟨row, rfl⟩ := Option.isSome_iff_exists.mp living
    cases event <;> first | rfl | cases birth

/-- Segments of a request's history are idempotent. -/
theorem stepValidation_segmentIdempotent {events : List ParsedEvent}
    (ordered : LedgerOrdered events) :
    Replay.SegmentIdempotent (stepValidation runtime)
      (fun cell => cell.isSome = true) events := by
  intro segment isInfix cell living
  obtain ⟨row, rfl⟩ := Option.isSome_iff_exists.mp living
  have answered := GuardedWrite.foldl_apply_idempotent
    (answerStore runtime) _ row.answer
    ((ordered.segment isInfix).answers runtime)
  simp only [foldl_stepValidation_some]
  exact congrArg (some ∘ row.withAnswer) answered

end

end Stellar8004.Indexer
