import Stellar8004.Indexer.ResolverRuns
import Stellar8004.Library.Replay

/-!
# Replays of URI updates

The update of a URI clears the document of the old one, except that an update
with the ledger and the URI of the row is taken for a replay and skipped.  A
replay therefore keeps the document unless the last ledger has updates to
different URIs.
-/

namespace Stellar8004.Indexer

/-- Updates that are written one after another. -/
inductive UrisWritten (runtime : Runtime) :
    Tables → List UriUpdatedEvent → Tables → Prop where
  | nil (tables : Tables) : UrisWritten runtime tables [] tables
  | cons {tables middle after : Tables} {e : UriUpdatedEvent}
      {events : List UriUpdatedEvent} (now id : String)
      (contract : ContractName)
      (written : writePacket runtime now tables ⟨id, contract, .uriUpdated e⟩ =
        .ok middle)
      (rest : UrisWritten runtime middle events after) :
      UrisWritten runtime tables (e :: events) after

/-- The URI, its document and what is derived from it. -/
def documentColumns (row : AgentRow) :=
  (row.agentUri, row.agentUriData, row.supportedTrust, row.services,
    row.x402Enabled, row.mppEnabled, row.resolveUriPending)

/-- The row an update leaves. -/
def updatedRow (now : String) (e : UriUpdatedEvent) (row : AgentRow) :
    AgentRow :=
  if notAfter row.uriUpdatedLedger e.ledger ∧
      ¬(row.uriUpdatedLedger = some e.ledger ∧
        row.agentUri = some e.newUri) then
    Tables.writeUri row e.newUri e.ledger now
  else row

section

variable {runtime : Runtime} {tables after : Tables} {e : UriUpdatedEvent}
  {events : List UriUpdatedEvent} {row : AgentRow}

theorem uriUpdated_row {now id : String} {contract : ContractName}
    (written : writePacket runtime now tables ⟨id, contract, .uriUpdated e⟩ =
      .ok after) (found : tables.agents e.agentId = some row) :
    after.agents e.agentId = some (updatedRow now e row) := by
  rw [writePacket_uriUpdated written]
  simp only [found]
  unfold updatedRow
  split
  · exact Function.update_self _ _ _
  · exact found

/-- Updates of URIs are never refused. -/
theorem uriUpdated_accepted (runtime : Runtime) (now id : String)
    (contract : ContractName) (tables : Tables) (e : UriUpdatedEvent) :
    ∃ after, writePacket runtime now tables ⟨id, contract, .uriUpdated e⟩ =
      .ok after := by
  have ran : ∃ after count, tables.exec now
      (.uriUpdated e.newUri e.ledger now e.agentId) = .ok (after, count) := by
    simp only [Tables.exec]
    split
    · exact ⟨_, _, rfl⟩
    · split <;> exact ⟨_, _, rfl⟩
  obtain ⟨after, count, isRun⟩ := ran
  exact ⟨after, writePacket_ok_iff.mpr ⟨_, count, rfl, isRun⟩⟩

theorem exists_urisWritten (runtime : Runtime) (tables : Tables)
    (events : List UriUpdatedEvent) :
    ∃ after, UrisWritten runtime tables events after := by
  induction events generalizing tables with
  | nil => exact ⟨tables, .nil tables⟩
  | cons e events induction =>
      obtain ⟨middle, written⟩ :=
        uriUpdated_accepted runtime "" "" .identity tables e
      obtain ⟨after, rest⟩ := induction middle
      exact ⟨after, .cons "" "" .identity written rest⟩

/-! ## One update -/

/-- A row that is not ahead of an update has its ledger and URI after it. -/
theorem updatedRow_uri {now : String}
    (due : notAfter row.uriUpdatedLedger e.ledger = true) :
    (updatedRow now e row).uriUpdatedLedger = some e.ledger ∧
      (updatedRow now e row).agentUri = some e.newUri := by
  unfold updatedRow
  split
  · exact ⟨rfl, rfl⟩
  · rename_i skipped
    rw [not_and, not_not] at skipped
    exact skipped due

/-- An older update, or one to the URI of the row, is skipped. -/
theorem updatedRow_skipped {now : String} {ledger : Nat} {uri : String}
    (isLedger : row.uriUpdatedLedger = some ledger)
    (isUri : row.agentUri = some uri) (old : e.ledger ≤ ledger)
    (same : e.ledger = ledger → e.newUri = uri) :
    updatedRow now e row = row := by
  unfold updatedRow
  apply if_neg
  rintro ⟨due, new⟩
  rw [isLedger, notAfter, Option.all_some, decide_eq_true_iff] at due
  have level : e.ledger = ledger := Nat.le_antisymm old due
  apply new
  rw [isLedger, isUri, level, same level]
  exact ⟨rfl, rfl⟩

/-- An update in the ledger of the row, to another URI, drops the document. -/
theorem updatedRow_cleared {now uri : String}
    (isLedger : row.uriUpdatedLedger = some e.ledger)
    (isUri : row.agentUri = some uri) (other : e.newUri ≠ uri) :
    (updatedRow now e row).agentUriData = none := by
  unfold updatedRow
  rw [if_pos]
  · rfl
  · rw [isLedger, isUri]
    constructor
    · simp [notAfter]
    · intro ⟨_, same⟩
      exact other (Option.some.inj same).symm

/-- A row without a document stays without one. -/
theorem updatedRow_undocumented {now : String}
    (none : row.agentUriData = none) :
    (updatedRow now e row).agentUriData = Option.none := by
  unfold updatedRow
  split
  · rfl
  · exact none

/-! ## Many updates -/

/-- The row holds the last of the updates. -/
theorem UrisWritten.last (written : UrisWritten runtime tables events after)
    {id : Nat} (mine : ∀ e ∈ events, e.agentId = id)
    (ordered : events.Pairwise fun first second =>
      first.ledger ≤ second.ledger)
    (found : tables.agents id = some row)
    (due : ∀ e ∈ events, notAfter row.uriUpdatedLedger e.ledger = true)
    {last : UriUpdatedEvent} (isLast : events.getLast? = some last) :
    ∃ final, after.agents id = some final ∧
      final.uriUpdatedLedger = some last.ledger ∧
      final.agentUri = some last.newUri := by
  induction written generalizing row with
  | nil tables => cases isLast
  | @cons tables middle after e events now eventId contract written rest
      induction =>
      obtain rfl := mine e List.mem_cons_self
      have isRow := uriUpdated_row written found
      obtain ⟨isLedger, isUri⟩ :=
        @updatedRow_uri e row now (due e List.mem_cons_self)
      cases events with
      | nil =>
          cases rest
          obtain rfl := Option.some.inj isLast
          exact ⟨_, isRow, isLedger, isUri⟩
      | cons next events =>
          rw [List.pairwise_cons] at ordered
          apply induction (fun other member =>
            mine other (List.mem_cons_of_mem _ member)) ordered.2 isRow
          · intro other member
            rw [isLedger, notAfter, Option.all_some, decide_eq_true_iff]
            exact ordered.1 other member
          · rw [List.getLast?_cons_cons] at isLast
            exact isLast

/-- Updates that are all skipped leave the row. -/
theorem UrisWritten.skipped
    (written : UrisWritten runtime tables events after) {id ledger : Nat}
    {uri : String} (mine : ∀ e ∈ events, e.agentId = id)
    (found : tables.agents id = some row)
    (isLedger : row.uriUpdatedLedger = some ledger)
    (isUri : row.agentUri = some uri)
    (old : ∀ e ∈ events, e.ledger ≤ ledger)
    (same : ∀ e ∈ events, e.ledger = ledger → e.newUri = uri) :
    after.agents id = some row := by
  induction written with
  | nil tables => exact found
  | @cons tables middle after e events now eventId contract written rest
      induction =>
      obtain rfl := mine e List.mem_cons_self
      have isRow := uriUpdated_row written found
      rw [updatedRow_skipped isLedger isUri (old e List.mem_cons_self)
        (same e List.mem_cons_self)] at isRow
      exact induction
        (fun other member => mine other (List.mem_cons_of_mem _ member)) isRow
        (fun other member => old other (List.mem_cons_of_mem _ member))
        (fun other member => same other (List.mem_cons_of_mem _ member))

theorem UrisWritten.undocumented
    (written : UrisWritten runtime tables events after) {id : Nat}
    (mine : ∀ e ∈ events, e.agentId = id)
    (found : tables.agents id = some row) (none : row.agentUriData = none) :
    ∃ final, after.agents id = some final ∧ final.agentUriData = Option.none
    := by
  induction written generalizing row with
  | nil tables => exact ⟨row, found, none⟩
  | @cons tables middle after e events now eventId contract written rest
      induction =>
      obtain rfl := mine e List.mem_cons_self
      exact induction
        (fun other member => mine other (List.mem_cons_of_mem _ member))
        (uriUpdated_row written found) (updatedRow_undocumented none)

/-- Updates that begin with one to another URI, in the ledger of the row, drop
the document. -/
theorem UrisWritten.cleared
    (written : UrisWritten runtime tables (e :: events) after) {id : Nat}
    (mine : ∀ other ∈ e :: events, other.agentId = id)
    (found : tables.agents id = some row) {uri : String}
    (isLedger : row.uriUpdatedLedger = some e.ledger)
    (isUri : row.agentUri = some uri) (other : e.newUri ≠ uri) :
    ∃ final, after.agents id = some final ∧ final.agentUriData = none := by
  obtain rfl := mine e List.mem_cons_self
  cases written with
  | cons now eventId contract first rest =>
      exact rest.undocumented
        (fun other member => mine other (List.mem_cons_of_mem _ member))
        (uriUpdated_row first found)
        (updatedRow_cleared isLedger isUri other)

/-! ## Replays -/

open Resolver

/-- A document is stored in the row that is there. -/
theorem storeColumns_row {agent : PendingAgent} {columns : StoredDocument}
    {now : String} {stored : Tables}
    (isStored : storeColumns agent columns now tables = (stored, 1))
    (found : tables.agents agent.id = some row) :
    ∃ documented, stored.agents agent.id = some documented ∧
      documented.agentUriData ≠ none ∧
      documented.agentUri = row.agentUri ∧
      documented.uriUpdatedLedger = row.uriUpdatedLedger := by
  unfold storeColumns at isStored
  simp only [found] at isStored
  split at isStored
  · cases isStored
    exact ⟨_, Function.update_self _ _ _, Option.some_ne_none _, rfl, rfl⟩
  · cases isStored

/-- Writing the updates of a suffix again, in order, leaves the agent's URI
and its document. -/
def ReplaysKeep (runtime : Runtime) (id : Nat)
    (events : List UriUpdatedEvent) (stored : Tables) : Prop :=
  ∀ again, again <:+ events → ∀ replayed,
    UrisWritten runtime stored again replayed →
      (replayed.agents id).map documentColumns =
        (stored.agents id).map documentColumns

/-- After updates in chain order and the store of a document for the URI they
lead to, replays keep it exactly when the updates of the last ledger are all to
one URI. -/
theorem uri_replays_keep_iff {id : Nat}
    (mine : ∀ e ∈ events, e.agentId = id)
    (ordered : events.Pairwise fun first second =>
      first.ledger ≤ second.ledger)
    (found : tables.agents id = some row)
    (due : ∀ e ∈ events, notAfter row.uriUpdatedLedger e.ledger = true)
    {updated stored : Tables}
    (written : UrisWritten runtime tables events updated)
    {agent : PendingAgent} (isAgent : agent.id = id)
    {columns : StoredDocument} {now : String}
    (isStored : storeColumns agent columns now updated = (stored, 1)) :
    ReplaysKeep runtime id events stored ↔
      ∀ e ∈ events, ∀ last, events.getLast? = some last →
        e.ledger = last.ledger → e.newUri = last.newUri := by
  subst isAgent
  constructor
  · intro keeps e member last isLast level
    by_contra other
    obtain ⟨final, isFinal, isLedger, isUri⟩ :=
      written.last mine ordered found due isLast
    obtain ⟨documented, isRow, isData, sameUri, sameLedger⟩ :=
      storeColumns_row isStored isFinal
    -- the suffix from this update on writes again and clears the document
    obtain ⟨before, later, rfl⟩ := List.append_of_mem member
    obtain ⟨replayed, again⟩ :=
      exists_urisWritten runtime stored (e :: later)
    have kept := keeps (e :: later) (List.suffix_append _ _) replayed again
    obtain ⟨ended, isEnded, without⟩ := again.cleared
      (fun other member => mine other (List.mem_append_right _ member)) isRow
      (sameLedger.trans (isLedger.trans (congrArg some level.symm)))
      (sameUri.trans isUri) other
    rw [isRow, isEnded] at kept
    have data := congrArg (fun columns => columns.2.1) (Option.some.inj kept)
    exact isData (data.symm.trans without)
  · intro same again isSuffix replayed rewritten
    cases isLast : events.getLast? with
    | none =>
        rw [List.getLast?_eq_none_iff] at isLast
        rw [isLast] at isSuffix
        cases List.suffix_nil.mp isSuffix
        cases rewritten
        rfl
    | some last =>
        obtain ⟨final, isFinal, isLedger, isUri⟩ :=
          written.last mine ordered found due isLast
        obtain ⟨documented, isRow, -, sameUri, sameLedger⟩ :=
          storeColumns_row isStored isFinal
        have inside : ∀ e ∈ again, e ∈ events := fun e => isSuffix.mem
        have kept := rewritten.skipped
          (fun e member => mine e (inside e member)) isRow
          (sameLedger.trans isLedger) (sameUri.trans isUri)
          (fun e member => Replay.le_getLast (fun e => e.ledger) ordered
            (inside e member) isLast)
          (fun e member level => same e (inside e member) last isLast level)
        rw [kept, isRow]

end

/-- An update in ledger five. -/
def updateTo (newUri : String) : UriUpdatedEvent :=
  { ledger := 5, ledgerClosedAt := "", txHash := "", agentId := 0
    updatedBy := "G", newUri }

/-- The agent before any update. -/
def unnamedTables : Tables :=
  Tables.empty.setAgent 0 (Tables.newAgent "G" "" false "t" 1 "tx" "t")

def anyRuntime : Runtime :=
  { parseDate := fun _ => none, callDepth := 0 }

def fetchedColumns : StoredDocument :=
  { data := "\x7b\x7d", trust := "[]", services := "[]", x402 := false
    mpp := false }

theorem uri_replays_keep_same :
    ∃ updated stored, UrisWritten anyRuntime unnamedTables
        [updateTo "a", updateTo "a"] updated ∧
      Resolver.storeColumns ⟨0, "a", 1⟩ fetchedColumns "t" updated =
        (stored, 1) ∧
      ReplaysKeep anyRuntime 0 [updateTo "a", updateTo "a"] stored := by
  have written : UrisWritten anyRuntime unnamedTables
      [updateTo "a", updateTo "a"] _ :=
    .cons "t" "1" .identity rfl (.cons "t" "2" .identity rfl (.nil _))
  refine ⟨_, _, written, rfl, ?_⟩
  have mine : ∀ e ∈ [updateTo "a", updateTo "a"], e.agentId = 0 := by
    simp [updateTo]
  have due : ∀ e ∈ [updateTo "a", updateTo "a"],
      notAfter none e.ledger = true := fun _ _ => rfl
  apply (uri_replays_keep_iff mine (by simp) rfl due written rfl
    (show Resolver.storeColumns ⟨0, "a", 1⟩ fetchedColumns "t" _ = (_, 1)
      from rfl)).mpr
  simp

/-- Both updates of the ledger are written again, and with them the document
is gone. -/
theorem uri_replay_clears_document :
    ∃ updated stored, UrisWritten anyRuntime unnamedTables
        [updateTo "a", updateTo "b"] updated ∧
      Resolver.storeColumns ⟨0, "b", 1⟩ fetchedColumns "t" updated =
        (stored, 1) ∧
      ¬ ReplaysKeep anyRuntime 0 [updateTo "a", updateTo "b"] stored := by
  have written : UrisWritten anyRuntime unnamedTables
      [updateTo "a", updateTo "b"] _ :=
    .cons "t" "1" .identity rfl (.cons "t" "2" .identity rfl (.nil _))
  refine ⟨_, _, written, rfl, ?_⟩
  intro keeps
  have kept := keeps _ (List.suffix_refl _) _
    (.cons "t" "1" .identity rfl (.cons "t" "2" .identity rfl (.nil _)))
  have data := congrArg (Option.map fun columns => columns.2.1) kept
  exact absurd data (by decide)

end Stellar8004.Indexer
