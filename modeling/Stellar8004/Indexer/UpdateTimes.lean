import Stellar8004.Indexer.Database

/-!
# Only `updated_at` depends on the clock

The statements of one packet, bound at different times, differ only in the
value they give `updated_at`, and no statement reads that column.  Apart from
it, what a run's batches leave is what one pass over the same packets leaves.
-/

namespace Stellar8004.Indexer

/-- The statement without the time it was bound at. -/
def Statement.timeless : Statement → Statement
  | .uriUpdated newUri ledger _ id => .uriUpdated newUri ledger "" id
  | .walletSet wallet _ id => .walletSet wallet "" id
  | .transferred owner ledger _ id => .transferred owner ledger "" id
  | other => other

/-- The tables without `updated_at`. -/
@[simps] def Tables.settled (tables : Tables) : Tables :=
  { tables with agents := fun id => (tables.agents id).map AgentRow.settled }

section

variable {runtime : Runtime} {tables base final : Tables}

@[simp] theorem Tables.settled_setAgent (tables : Tables) (id : Nat)
    (row : AgentRow) :
    (tables.setAgent id row).settled =
      tables.settled.setAgent id row.settled := by
  apply Tables.ext
  · funext other
    simp only [settled_agents, setAgent, Function.update_apply]
    split <;> rfl
  all_goals rfl

@[simp] theorem Tables.settled_clearMetadata (tables : Tables) (id : Nat) :
    (tables.clearMetadata id).settled = tables.settled.clearMetadata id := rfl

/-- No statement reads `updated_at`. -/
theorem Tables.exec_settled (defaultTime : String) (tables : Tables)
    (statement : Statement) :
    tables.settled.exec "" statement.timeless =
      (tables.exec defaultTime statement).map fun result =>
        (result.1.settled, result.2) := by
  cases statement with
  | registered id owner uri pending createdAt createdLedger txHash =>
      simp only [Statement.timeless, exec, settled_agents]
      split
      · rfl
      · cases tables.agents id with
        | none => simp [Except.map, newAgent, AgentRow.settled]
        | some row => rfl
  | uriUpdated newUri ledger now id =>
      simp only [Statement.timeless, exec, settled_agents]
      cases tables.agents id with
      | none => rfl
      | some row =>
          simp only [Option.map_some, AgentRow.settled]
          split <;> simp [Except.map, writeUri, AgentRow.settled]
  | walletSet wallet now id =>
      simp only [Statement.timeless, exec, settled_agents]
      cases tables.agents id with
      | none => rfl
      | some row =>
          simp only [Option.map_some]
          split <;> simp [Except.map, AgentRow.settled]
  | transferred owner ledger now id =>
      simp only [Statement.timeless, exec, settled_agents]
      cases tables.agents id with
      | none => rfl
      | some row =>
          simp only [Option.map_some, AgentRow.settled]
          split
          · split <;> simp [Except.map, AgentRow.settled]
          · rfl
  | metadataSet agentId key value =>
      simp only [Statement.timeless, exec, settled_agents]
      cases tables.agents agentId <;> rfl
  | newFeedback agentId client index value decimals tag1 tag2 endpoint uri
      hash createdAt createdLedger txHash =>
      simp only [Statement.timeless, exec, settled_agents, settled_feedback]
      split
      · rfl
      split
      · rfl
      split
      · rfl
      split
      · rfl
      cases tables.feedback ⟨agentId, client, integerAffinity index⟩ with
      | some row => rfl
      | none => cases tables.agents agentId <;> rfl
  | feedbackRevoked ledger agentId client index =>
      simp only [Statement.timeless, exec, settled_feedback]
      cases tables.feedback ⟨agentId, client, integerAffinity index⟩ with
      | none => rfl
      | some row =>
          dsimp only
          split <;> rfl
  | responseAppended agentId client index responder uri hash createdAt txHash
      eventId =>
      simp only [Statement.timeless, exec, settled_feedback,
        settled_feedbackResponses]
      split
      · rfl
      split
      · rfl
      split
      · rfl
      · cases tables.feedback ⟨agentId, client, integerAffinity index⟩ <;> rfl
  | validationRequest requestHash agentId validator uri createdAt txHash =>
      simp only [Statement.timeless, exec, settled_agents,
        settled_validations]
      split
      · rfl
      cases tables.validations requestHash with
      | some row => rfl
      | none => cases tables.agents agentId <;> rfl
  | validationResponse response uri hash tag respondedAt txHash ledger
      requestHash =>
      simp only [Statement.timeless, exec, settled_validations]
      cases tables.validations requestHash with
      | none => rfl
      | some row =>
          dsimp only
          split
          · split <;> rfl
          · rfl

/-! ## Tables that differ in `updated_at` only -/

variable {left right : Tables}

theorem Tables.settled_eq (same : left.settled = right.settled) :
    (∀ id, (left.agents id).map AgentRow.settled =
      (right.agents id).map AgentRow.settled) ∧
    left.agentMetadata = right.agentMetadata ∧
    left.feedback = right.feedback ∧
    left.feedbackResponses = right.feedbackResponses ∧
    left.validations = right.validations := by
  obtain ⟨agents, rest⟩ := Tables.ext_iff.mp same
  exact ⟨fun id => congrFun agents id, rest⟩

/-- They have the same cells. -/
theorem Tables.agentCell_of_settled (same : left.settled = right.settled)
    (agent : Nat) : left.agentCell agent = right.agentCell agent := by
  obtain ⟨agents, metadata, _⟩ := Tables.settled_eq same
  have settle : ∀ tables : Tables, tables.agentCell agent =
      ((tables.agents agent).map AgentRow.settled).map fun row =>
        row.toCell (tables.agentMetadata agent) := by
    intro tables
    unfold agentCell
    cases tables.agents agent <;> rfl
  rw [settle left, settle right, agents, metadata]

theorem Tables.feedbackCell_of_settled (same : left.settled = right.settled)
    (key : FeedbackKey) : left.feedbackCell key = right.feedbackCell key := by
  obtain ⟨_, _, feedback, responses, _⟩ := Tables.settled_eq same
  unfold feedbackCell
  rw [feedback, responses]

theorem Tables.MetadataOwned.of_settled (owned : left.MetadataOwned)
    (same : left.settled = right.settled) : right.MetadataOwned := by
  obtain ⟨agents, metadata, _⟩ := Tables.settled_eq same
  intro id absent key
  have rows := agents id
  rw [absent, Option.map_none, Option.map_eq_none_iff] at rows
  rw [← metadata]
  exact owned id rows key

/-! ## Bound statements -/

/-- The time a packet's statement is bound at decides only `updated_at`. -/
theorem eventStatement_timeless {packet : EventPacket} {now : String}
    {statement : Statement}
    (bound : eventStatement runtime packet now = .ok statement)
    (later : String) :
    ∃ other, eventStatement runtime packet later = .ok other ∧
      other.timeless = statement.timeless := by
  obtain ⟨id, contract, data⟩ := packet
  cases data with
  | uriUpdated e =>
      cases bound
      exact ⟨_, rfl, rfl⟩
  | agentWalletSet e =>
      cases bound
      exact ⟨_, rfl, rfl⟩
  | agentWalletUnset e =>
      cases bound
      exact ⟨_, rfl, rfl⟩
  | agentTransferred e =>
      cases bound
      exact ⟨_, rfl, rfl⟩
  | _ => exact ⟨statement, bound, rfl⟩

/-- What a bound statement does is what its packet's write does at any time,
apart from `updated_at`. -/
theorem Tables.exec_of_written {write : EventWrite}
    (bound : write.Bound runtime) {now : String}
    (written : writePacket runtime now base write.packet = .ok final)
    (same : base.settled = tables.settled) (defaultTime : String) :
    ∃ after count,
      tables.exec defaultTime write.statement = .ok (after, count) ∧
        final.settled = after.settled := by
  obtain ⟨time, isBound⟩ := bound
  obtain ⟨statement, count, again, ran⟩ := writePacket_ok_iff.mp written
  obtain ⟨other, isOther, timeless⟩ := eventStatement_timeless again time
  have equal : write.statement.timeless = statement.timeless := by
    rw [isBound] at isOther
    cases isOther
    exact timeless
  have left := Tables.exec_settled now base statement
  have right := Tables.exec_settled defaultTime tables write.statement
  rw [← same, equal, left, ran] at right
  cases result : tables.exec defaultTime write.statement with
  | error violation =>
      rw [result] at right
      cases right
  | ok changed =>
      rw [result] at right
      simp only [Except.map, Except.ok.injEq, Prod.mk.injEq] at right
      exact ⟨changed.1, changed.2, rfl, right.1⟩

/-- The same over a whole batch. -/
theorem Tables.execAll_of_written {writes : List EventWrite}
    (bound : ∀ write ∈ writes, write.Bound runtime) {now : String}
    (written : writeAll runtime
      (writes.map fun write => (now, write.packet)) base = .ok final)
    (same : base.settled = tables.settled) (defaultTime : String) :
    ∃ after counts,
      tables.execAll defaultTime writes = .ok (after, counts) ∧
        final.settled = after.settled := by
  induction writes generalizing base tables with
  | nil =>
      cases written
      exact ⟨tables, [], rfl, same⟩
  | cons write writes induction =>
      simp only [List.map_cons, writeAll] at written
      cases first : writePacket runtime now base write.packet with
      | error failure =>
          rw [first] at written
          cases written
      | ok middle =>
          rw [first] at written
          obtain ⟨next, count, ran, agree⟩ := Tables.exec_of_written
            (bound write List.mem_cons_self) first same defaultTime
          obtain ⟨after, counts, rest, ends⟩ := induction
            (fun other member => bound other (List.mem_cons_of_mem _ member))
            written agree
          exact ⟨after, count :: counts, by simp [execAll, ran, rest], ends⟩

end

end Stellar8004.Indexer
