import Stellar8004.Contracts.Packets
import Stellar8004.Indexer.LateWrites

/-!
# Indexing a run again

What the indexer's replays do to the tables of a run of the three contracts:
attempts that stop half way and start again converge, and a late write of a
single event changes a row exactly where the later history has not settled it.
-/

namespace Stellar8004.Contracts

open Stellar8004.Indexer

/-! ## Crash and retry -/

/-- A registration in ledger 7 and the transfer of its agent in ledger 8. -/
def transferLog : List (ContractEvent × Stamp) :=
  [(.identity (.mint firstOwner 0), stampAt 7 "7-0"),
    (.identity (.metadataSet 0 agentWalletKey
      (addressToStrkeyBytes firstOwner)), stampAt 7 "7-1"),
    (.identity (.registered 0 firstOwner ByteArray.empty), stampAt 7 "7-2"),
    (.identity (.metadataSet 0 agentWalletKey ByteArray.empty),
      stampAt 8 "8-0"),
    (.identity (.transfer firstOwner secondOwner 0), stampAt 8 "8-1")]

theorem transferLog_run :
    ∃ chain, Run Chain.Step Chain.initial chain transferLog := by
  have registered : Run Chain.Step Chain.initial _ (transferLog.take 3) :=
    .call .start 7 ((transferLog.take 3).map Prod.fst)
      ((transferLog.take 3).map Prod.snd)
      ⟨noApprovals, .identity (.register firstOwner), rfl⟩ rfl
      ⟨by decide, by decide, by decide, by decide, by decide⟩
  exact ⟨_, .call registered 8 ((transferLog.drop 3).map Prod.fst)
    ((transferLog.drop 3).map Prod.snd)
    ⟨noApprovals, .identity (.transfer firstOwner secondOwner 0), rfl⟩ rfl
    ⟨by decide, by decide, by decide, by decide, by decide⟩⟩

private theorem packets_within {log : List (ContractEvent × Stamp)}
    {origin head : Nat}
    (within : ∀ entry ∈ log,
      origin < entry.2.ledger ∧ entry.2.ledger ≤ head) :
    ∀ packet ∈ Chain.packets log,
      origin < packet.ledger ∧ packet.ledger ≤ head := by
  intro packet member
  obtain ⟨entry, isEntry, read⟩ := mem_packets.mp member
  rw [(readFrom_of_packet? read).2.2.2]
  exact within entry isEntry

/-- A pass over a run from the beginning. -/
theorem Run.exists_pass (runtime : Runtime) {chain : Chain}
    {log : List (ContractEvent × Stamp)} {origin head : Nat}
    (run : Run Chain.Step Chain.initial chain log)
    (within : ∀ entry ∈ log,
      origin < entry.2.ledger ∧ entry.2.ledger ≤ head) (now : String) :
    ∃ pass passed, writeAll runtime (remaining now (Chain.packets log)
        (fun _ => origin) head) Tables.empty = .ok pass ∧
      Indexes runtime (Chain.packets log) origin passed pass ∧
      (∀ packet ∈ Chain.packets log, origin < packet.ledger) ∧
      ∀ packet ∈ Chain.packets log,
        packet.ledger ≤ passed packet.contract := by
  have inside := packets_within within
  have later : ∀ packet ∈ Chain.packets log, origin < packet.ledger :=
    fun packet member => (inside packet member).1
  have started : Indexes runtime (Chain.packets log) origin
      (fun _ => origin) Tables.empty := .start
  obtain ⟨pass, written, passed, reached, indexed⟩ :=
    started.finish (run.wellFormed runtime) later now head
  exact ⟨pass, passed, written, indexed, later, fun packet member =>
    Nat.le_trans (inside packet member).2 (reached packet.contract)⟩

/-- However often attempts to index a run of the contracts stop half way, and
wherever their checkpoints stand, reading the rest gives the rows of one
uninterrupted pass.  So do attempts that have reached the end, and a pass over
any end of the chain changes no row any more. -/
theorem retries_converge (runtime : Runtime) {chain : Chain}
    {log : List (ContractEvent × Stamp)} {origin head : Nat}
    (run : Run Chain.Step Chain.initial chain log)
    (within : ∀ entry ∈ log,
      origin < entry.2.ledger ∧ entry.2.ledger ≤ head) (now : String) :
    ∃ pass, writeAll runtime (remaining now (Chain.packets log)
        (fun _ => origin) head) Tables.empty = .ok pass ∧
      (∀ checkpoints tables,
        Indexes runtime (Chain.packets log) origin checkpoints tables →
        (∀ again, ∃ final, writeAll runtime (remaining again
            (Chain.packets log) checkpoints head) tables = .ok final ∧
          final.SameRows pass) ∧
        ((∀ packet ∈ Chain.packets log,
            packet.ledger ≤ checkpoints packet.contract) →
          tables.SameRows pass)) ∧
      ∀ start again, ∃ replayed, writeAll runtime (remaining again
          ((Chain.packets log).drop start) (fun _ => origin) head) pass =
            .ok replayed ∧
        replayed.SameRows pass := by
  have wellFormed := run.wellFormed runtime
  have inside := packets_within within
  obtain ⟨pass, passed, written, indexed, later, done⟩ :=
    run.exists_pass runtime within now
  refine ⟨pass, written, ?_, ?_⟩
  · intro checkpoints tables attempted
    refine ⟨?_, ?_⟩
    · intro again
      obtain ⟨final, finished, finishedAt, reached, indexedAgain⟩ :=
        attempted.finish wellFormed later again head
      refine ⟨final, finished, indexedAgain.sameRows indexed wellFormed later
        ?_ done⟩
      intro packet member
      exact Nat.le_trans (inside packet member).2 (reached packet.contract)
    · intro complete
      exact attempted.sameRows indexed wellFormed later complete done
  · intro start again
    exact indexed.replay_suffix wellFormed inside done start again

/-- The batch of both calls. -/
def transferBatch : Batch :=
  { now := "2026-01-01T00:00:00.000+00:00"
    packets := between (Chain.packets transferLog) .identity 6 8 }

/-- An attempt that stops after two statements, the next one, and a replay of
the transfer. -/
theorem retries_converge_transferLog :
    ∃ pass crashed final replayed,
      writeAll { parseDate := fun _ => none, callDepth := 0 }
        (remaining "2026-01-01T00:00:00.000+00:00" (Chain.packets transferLog)
          (fun _ => 6) 8) Tables.empty = .ok pass ∧
      writeAll { parseDate := fun _ => none, callDepth := 0 }
        (transferBatch.ordered.take 2) Tables.empty = .ok crashed ∧
      writeAll { parseDate := fun _ => none, callDepth := 0 }
        (remaining "2026-01-01T00:01:00.000+00:00" (Chain.packets transferLog)
          (Function.update (fun _ => 6) .identity 6) 8) crashed = .ok final ∧
      final.SameRows pass ∧
      writeAll { parseDate := fun _ => none, callDepth := 0 }
        (remaining "2026-01-01T00:02:00.000+00:00"
          ((Chain.packets transferLog).drop 2) (fun _ => 6) 8) pass =
            .ok replayed ∧
      replayed.SameRows pass := by
  obtain ⟨chain, run⟩ := transferLog_run
  obtain ⟨pass, written, attempts, replays⟩ := retries_converge
    { parseDate := fun _ => none, callDepth := 0 } run
    (show ∀ entry ∈ transferLog, 6 < entry.2.ledger ∧ entry.2.ledger ≤ 8 by
      decide) "2026-01-01T00:00:00.000+00:00"
  have whole : remaining "2026-01-01T00:00:00.000+00:00"
      (Chain.packets transferLog) (fun _ => 6) 8 =
        transferBatch.ordered.take 2 ++ (transferBatch.ordered.drop 2 ++
          [ContractName.reputation, .validation].flatMap fun contract =>
            Batch.ordered
              { now := "2026-01-01T00:00:00.000+00:00"
                packets :=
                  between (Chain.packets transferLog) contract 6 8 }) := by
    rw [← List.append_assoc, List.take_append_drop]
    rfl
  have ran := written
  rw [whole, writeAll_append] at ran
  cases stopped : writeAll { parseDate := fun _ => none, callDepth := 0 }
      (transferBatch.ordered.take 2) Tables.empty with
  | error failure =>
      rw [stopped] at ran
      cases ran
  | ok crashed =>
      have attempted : Indexes { parseDate := fun _ => none, callDepth := 0 }
          (Chain.packets transferLog) 6
          (Function.update (fun _ => 6) .identity 6) crashed := by
        apply Indexes.start.attempt .identity 8 6 2 [] [] transferBatch
        · exact fun other => absurd rfl other
        · simp [transferBatch]
        · exact List.pairwise_singleton _ _
        · rw [List.flatMap_nil, List.nil_append]
          exact stopped
        · exact Nat.le_refl _
        · decide
        · intro batch isBatch packet member
          cases List.mem_singleton.mp isBatch
          simp only [transferBatch, between, List.mem_filter,
            Bool.and_eq_true, decide_eq_true_eq] at member
          exact member.2.2.1
      obtain ⟨final, finished, same⟩ :=
        (attempts _ _ attempted).1 "2026-01-01T00:01:00.000+00:00"
      obtain ⟨replayed, again, kept⟩ :=
        replays 2 "2026-01-01T00:02:00.000+00:00"
      exact ⟨pass, crashed, final, replayed, written, rfl, finished, same,
        again, kept⟩

/-! ## Late writes -/

/-- After a pass over a run of the contracts, writing one of its events again
succeeds and changes no row exactly when the run has settled the event. -/
theorem late_write_unchanged_iff (runtime : Runtime) {chain : Chain}
    {log : List (ContractEvent × Stamp)} {origin head : Nat}
    (run : Run Chain.Step Chain.initial chain log)
    (within : ∀ entry ∈ log,
      origin < entry.2.ledger ∧ entry.2.ledger ≤ head) (now again : String) :
    ∃ pass, writeAll runtime (remaining now (Chain.packets log)
        (fun _ => origin) head) Tables.empty = .ok pass ∧
      ∀ packet ∈ Chain.packets log,
        ∃ after, writePacket runtime again pass packet = .ok after ∧
          (after.SameRows pass ↔ packet.data.Settled runtime
            ((Chain.packets log).map EventPacket.data)) := by
  obtain ⟨pass, passed, written, indexed, later, done⟩ :=
    run.exists_pass runtime within now
  exact ⟨pass, written, fun packet member =>
    indexed.late_write (run.wellFormed runtime) later done member again⟩

/-- What the indexer reads of the registration and the transfer. -/
theorem packets_transferLog :
    (Chain.packets transferLog).map (fun packet => (packet.id, packet.data)) =
      [("7-1", .agentWalletSet
          { (stampAt 7 "7-1").base with
            agentId := 0, newWallet := StrKey.encode firstOwner }),
        ("7-2", .registered
          { (stampAt 7 "7-2").base with
            agentId := 0, owner := StrKey.encode firstOwner
            agentUri := decodeText ByteArray.empty }),
        ("8-0", .agentWalletUnset
          { (stampAt 8 "8-0").base with agentId := 0 }),
        ("8-1", .agentTransferred
          { (stampAt 8 "8-1").base with
            agentId := 0, «from» := StrKey.encode firstOwner
            «to» := StrKey.encode secondOwner })] := by
  have zero : 0 < 2 ^ 32 := by decide
  simp only [Chain.packets, packetsOf, transferLog, List.filterMap_cons,
    List.filterMap_nil, ContractEvent.contract, ContractEvent.publish,
    packetOf, interpret_mint, interpret_walletSet zero,
    interpret_registered zero, interpret_walletUnset zero,
    interpret_transfer zero, List.map_cons, List.map_nil]
  rfl

/-- The old wallet, written late, comes back after the transfer. -/
theorem late_wallet_comes_back :
    ∃ chain pass after, ∃ packet ∈ Chain.packets transferLog,
      Run Chain.Step Chain.initial chain transferLog ∧ packet.id = "7-1" ∧
        writeAll { parseDate := fun _ => none, callDepth := 0 }
          (remaining "2026-01-01T00:00:00.000+00:00"
            (Chain.packets transferLog) (fun _ => 6) 8) Tables.empty =
              .ok pass ∧
        writePacket { parseDate := fun _ => none, callDepth := 0 }
          "2026-01-01T00:03:00.000+00:00" pass packet = .ok after ∧
        ¬ after.SameRows pass := by
  obtain ⟨chain, run⟩ := transferLog_run
  have within : ∀ entry ∈ transferLog,
      6 < entry.2.ledger ∧ entry.2.ledger ≤ 8 := by decide
  obtain ⟨pass, passed, written, indexed, later, done⟩ := run.exists_pass
    { parseDate := fun _ => none, callDepth := 0 } within
    "2026-01-01T00:00:00.000+00:00"
  have read := packets_transferLog
  obtain ⟨packet, others, isCons, isFirst, _⟩ := List.map_eq_cons_iff.mp read
  have member : packet ∈ Chain.packets transferLog := by
    rw [isCons]
    exact List.mem_cons_self
  have events := congrArg (List.map Prod.snd) read
  rw [List.map_map] at events
  obtain ⟨after, rewritten, unchanged⟩ := indexed.late_write
    (run.wellFormed _) later done member "2026-01-01T00:03:00.000+00:00"
  obtain ⟨isId, isData⟩ := Prod.mk.injEq .. ▸ isFirst
  refine ⟨chain, pass, after, packet, member, run, isId, written, rewritten,
    ?_⟩
  rw [unchanged, isData]
  have unset : lastWrite? ((Chain.packets transferLog).map
      EventPacket.data) 0 .wallet = some none := by
    rw [show (Chain.packets transferLog).map EventPacket.data = _
      from events]
    rfl
  intro settled
  cases unset.symm.trans settled

theorem late_write_transferLog :
    ∃ pass, writeAll { parseDate := fun _ => none, callDepth := 0 }
        (remaining "2026-01-01T00:00:00.000+00:00" (Chain.packets transferLog)
          (fun _ => 6) 8) Tables.empty = .ok pass ∧
      ∀ packet ∈ Chain.packets transferLog,
        ∃ after, writePacket { parseDate := fun _ => none, callDepth := 0 }
            "2026-01-01T00:03:00.000+00:00" pass packet = .ok after ∧
          (after.SameRows pass ↔ packet.data.Settled
            { parseDate := fun _ => none, callDepth := 0 }
            ((Chain.packets transferLog).map EventPacket.data)) := by
  obtain ⟨chain, run⟩ := transferLog_run
  exact late_write_unchanged_iff
    { parseDate := fun _ => none, callDepth := 0 } run
    (show ∀ entry ∈ transferLog, 6 < entry.2.ledger ∧ entry.2.ledger ≤ 8 by
      decide) "2026-01-01T00:00:00.000+00:00" "2026-01-01T00:03:00.000+00:00"

end Stellar8004.Contracts
