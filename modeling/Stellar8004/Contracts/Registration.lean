import Stellar8004.Contracts.IdentityStorage

/-!
# Registering at once and step by step

`register_full` checks its entries in a loop of asserts, `set_metadata` checks
one entry with errors.  The two agree on every list but for the empty key,
which only `set_metadata` refuses.
-/

namespace Stellar8004.Contracts.IdentityState

/-- `set_metadata` for one entry. -/
def setEntry (approvals : Approvals) (caller : Address) (agentId : UInt32)
    (state : IdentityState) (entry : MetadataEntry) :
    Except IdentityError IdentityState := do
  let (after, _) ← state.call approvals
    (.setMetadata caller agentId entry.key entry.value)
  return after

/-- `register_with_uri`, then `set_metadata` for each entry in order. -/
def registerStepwise (state : IdentityState) (approvals : Approvals)
    (caller : Address) (agentUri : Bytes) (metadata : List MetadataEntry) :
    Except IdentityError IdentityState := do
  let (registered, _) ← state.call approvals
    (.registerWithUri caller agentUri)
  metadata.foldlM
    (setEntry approvals caller (UInt32.ofNat state.nextTokenId)) registered

section

variable {state : IdentityState} {approvals : Approvals} {caller : Address}
  {agentId : UInt32}

/-- An owner's `set_metadata` with room for the key. -/
theorem setEntry_of_owner {entry : MetadataEntry}
    (owned : state.owner agentId.toNat = some caller)
    (storable : Storable entry.key entry.value)
    (room : (state.metadataKeys agentId.toNat).length < MAX_METADATA_KEYS) :
    setEntry approvals caller agentId state entry =
      if entry.key.size = 0 then .error .emptyValue
      else .ok (state.setMetadata agentId.toNat entry.key entry.value) := by
  obtain ⟨shortKey, shortValue, ordinary⟩ := storable
  have allowed : state.requireOwnerOrApproved approvals caller agentId.toNat =
      .ok () := by
    simp [requireOwnerOrApproved, findOwner, owned]
  by_cases empty : entry.key.size = 0
  · rw [if_pos empty]
    simp only [setEntry, call, if_pos empty]
    rfl
  · have few : ¬ (state.metadata agentId.toNat entry.key = none ∧
        MAX_METADATA_KEYS ≤ (state.metadataKeys agentId.toNat).length) :=
      fun both => Nat.not_le_of_lt room both.2
    simp only [setEntry, call, if_neg empty, if_neg (Nat.not_lt.mpr shortKey),
      if_neg (Nat.not_lt.mpr shortValue), if_neg ordinary, allowed,
      if_neg few]
    rfl

/-- The entries of an owner, one after another. -/
theorem foldlM_setEntry_ok_iff {after : IdentityState}
    {entries : List MetadataEntry}
    (owned : state.owner agentId.toNat = some caller)
    (storable : ∀ entry ∈ entries, Storable entry.key entry.value)
    (room : (state.metadataKeys agentId.toNat).length + entries.length ≤
      MAX_METADATA_KEYS) :
    entries.foldlM (setEntry approvals caller agentId) state = .ok after ↔
      (∀ entry ∈ entries, entry.key.size ≠ 0) ∧
        state.setEntries agentId.toNat entries = after := by
  induction entries generalizing state with
  | nil =>
      have done : ([].foldlM (setEntry approvals caller agentId) state :
          Except IdentityError IdentityState) = .ok state := rfl
      rw [done, Except.ok.injEq]
      simp [setEntries]
  | cons entry entries induction =>
      rw [List.length_cons] at room
      have first : setEntry approvals caller agentId state entry =
          if entry.key.size = 0 then .error .emptyValue
          else .ok (state.setMetadata agentId.toNat entry.key entry.value) :=
        setEntry_of_owner owned (storable entry List.mem_cons_self) (by omega)
      rw [List.foldlM_cons, first]
      by_cases empty : entry.key.size = 0
      · rw [if_pos empty]
        constructor
        · intro impossible
          cases impossible
        · intro accepted
          exact absurd empty (accepted.1 entry List.mem_cons_self)
      · rw [if_neg empty]
        have still : (state.setMetadata agentId.toNat entry.key
            entry.value).owner agentId.toNat = some caller := by
          rw [(state.setMetadata_keeps _ _ _).1]
          exact owned
        have fewer : ((state.setMetadata agentId.toNat entry.key
            entry.value).metadataKeys agentId.toNat).length ≤
            (state.metadataKeys agentId.toNat).length + 1 :=
          (state.setEntries_metadataKeys agentId.toNat [entry]).1
        have rest := induction still
          (fun other member => storable other (List.mem_cons_of_mem _ member))
          (by omega)
        refine rest.trans ?_
        rw [List.forall_mem_cons]
        constructor
        · intro accepted
          exact ⟨⟨empty, accepted.1⟩, accepted.2⟩
        · intro accepted
          exact ⟨accepted.1.2, accepted.2⟩

/-- In a reached state, what `register_full` accepts can be registered step by
step with the same result exactly when no entry has the empty key. -/
theorem registerFull_stepwise_iff {history : List IdentityAction}
    (run : Accepted step .initial history state) {agentUri : Bytes}
    {metadata : List MetadataEntry} {full : IdentityState}
    {events : List IdentityEvent}
    (success : state.call approvals
      (.registerFull caller agentUri metadata) = .ok (full, events)) :
    (∃ after, state.registerStepwise approvals caller agentUri metadata =
        .ok after ∧
      ∀ agent, after.entriesOf agent = full.entriesOf agent) ↔
      ∀ entry ∈ metadata, entry.key.size ≠ 0 := by
  have consistent := Consistent.run run
  cases (call_ok success).1 with
  | registerFull _ _ _ few storable room =>
      have isId : (UInt32.ofNat state.nextTokenId).toNat =
          state.nextTokenId := by
        rw [UInt32.toNat_ofNat']
        exact Nat.mod_eq_of_lt (by omega)
      have stepwise : state.registerStepwise approvals caller agentUri
          metadata = metadata.foldlM
            (setEntry approvals caller (UInt32.ofNat state.nextTokenId))
            (state.registered caller (some agentUri) []) := by
        simp only [registerStepwise, call, sequentialMint, if_pos room]
        rfl
      have owned : (state.registered caller (some agentUri) []).owner
          (UInt32.ofNat state.nextTokenId).toNat = some caller := by
        rw [isId, (state.registered_keeps caller (some agentUri) []).1,
          Function.update_self]
      have none : ((state.registered caller (some agentUri) []).metadataKeys
          (UInt32.ofNat state.nextTokenId).toNat).length = 0 := by
        rw [isId]
        exact congrArg List.length consistent.fresh_metadataKeys
      have entered : ∀ after, metadata.foldlM
          (setEntry approvals caller (UInt32.ofNat state.nextTokenId))
          (state.registered caller (some agentUri) []) = .ok after ↔
          (∀ entry ∈ metadata, entry.key.size ≠ 0) ∧
            state.registered caller (some agentUri) metadata = after := by
        intro after
        rw [foldlM_setEntry_ok_iff owned storable (by omega), isId]
        rfl
      rw [stepwise]
      constructor
      · rintro ⟨after, registered, _⟩
        exact ((entered after).mp registered).1
      · intro nonempty
        exact ⟨_, (entered _).mpr ⟨nonempty, rfl⟩, fun _ => rfl⟩

end

theorem registerFull_stepwise_named :
    ∃ full after events, IdentityState.initial.call noApprovals
        (.registerFull firstOwner ⟨#[]⟩ [⟨utf8 "k", utf8 "v"⟩]) =
          .ok (full, events) ∧
      IdentityState.initial.registerStepwise noApprovals firstOwner ⟨#[]⟩
        [⟨utf8 "k", utf8 "v"⟩] = .ok after ∧
      ∀ agent, after.entriesOf agent = full.entriesOf agent := by
  have success : IdentityState.initial.call noApprovals
      (.registerFull firstOwner ⟨#[]⟩ [⟨utf8 "k", utf8 "v"⟩]) =
        .ok (_, _) := rfl
  obtain ⟨after, registered, same⟩ :=
    (registerFull_stepwise_iff .start success).mpr (by decide)
  exact ⟨_, after, _, success, registered, same⟩

/-- `register_full` stores the empty key, which `set_metadata` refuses. -/
theorem registerFull_empty_key :
    ∃ full events, IdentityState.initial.call noApprovals
        (.registerFull firstOwner ⟨#[]⟩ [⟨⟨#[]⟩, utf8 "v"⟩]) =
          .ok (full, events) ∧
      full.metadata 0 ⟨#[]⟩ = some (utf8 "v") ∧
      IdentityState.initial.registerStepwise noApprovals firstOwner ⟨#[]⟩
        [⟨⟨#[]⟩, utf8 "v"⟩] = .error .emptyValue :=
  ⟨_, _, rfl, rfl, rfl⟩

end Stellar8004.Contracts.IdentityState
