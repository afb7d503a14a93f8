import Stellar8004.Indexer.Constraints

/-!
# Parents come first

`parentsFirst` moves registrations to the front of a batch and keeps the order
of everything else.  Where a batch holds complete ledgers, every row its
statements refer to is inserted before it is needed.
-/

namespace Stellar8004.Indexer

/-- A batch's packet finds its parent in the tables, or registered anywhere in
the batch no later than itself, or created by an earlier packet. -/
def Parented (has : Parent → Prop) (packets : List EventPacket) : Prop :=
  ∀ before packet after, packets = before ++ packet :: after →
    ∀ parent, packet.data.parent? = some parent →
      has parent ∨
      (∃ creator ∈ packets, creator.data.isRegistered = true ∧
        creator.data.creates? = some parent ∧
        creator.ledger ≤ packet.ledger) ∨
      ∃ creator ∈ before, creator.data.isRegistered = false ∧
        creator.data.creates? = some parent

theorem Supplied.append {has : Parent → Prop}
    {first second : List ParsedEvent} (early : Supplied has first)
    (late : Supplied (fun parent => has parent ∨
      ∃ creator ∈ first, creator.creates? = some parent) second) :
    Supplied has (first ++ second) := by
  intro before event after split parent isParent
  rcases List.append_eq_append_iff.mp split with
    ⟨middle, isBefore, rest⟩ | ⟨middle, isFirst, rest⟩
  · rcases late middle event after rest parent isParent with
      (known | ⟨creator, member, creates⟩) | ⟨creator, member, creates⟩
    · exact .inl known
    · exact .inr ⟨creator, isBefore ▸ List.mem_append_left _ member, creates⟩
    · exact .inr ⟨creator, isBefore ▸ List.mem_append_right _ member, creates⟩
  · cases middle with
    | nil =>
        rw [List.append_nil] at isFirst
        rw [List.nil_append] at rest
        rcases late [] event after rest.symm parent isParent with
          (known | ⟨creator, member, creates⟩) | ⟨_, member, _⟩
        · exact .inl known
        · exact .inr ⟨creator, isFirst ▸ member, creates⟩
        · cases member
    | cons head middle =>
        rw [List.cons_append] at rest
        obtain ⟨rfl, -⟩ := List.cons.inj rest
        exact early before event middle isFirst parent isParent

theorem ParsedEvent.parent?_of_registered {event : ParsedEvent}
    (isRegistered : event.isRegistered = true) : event.parent? = none := by
  cases event <;> first | rfl | cases isRegistered

/-- In a batch ordered by `parentsFirst` every parent comes first. -/
theorem Parented.supplied {has : Parent → Prop}
    {packets : List EventPacket} (parented : Parented has packets) :
    Supplied has ((parentsFirst packets).map EventPacket.data) := by
  unfold parentsFirst
  rw [List.map_append]
  apply Supplied.append
  · intro before event after split parent isParent
    have member : event ∈ (packets.filter
        fun packet => packet.data.isRegistered).map EventPacket.data := by
      rw [split]
      exact List.mem_append_right _ List.mem_cons_self
    obtain ⟨packet, inside, rfl⟩ := List.mem_map.mp member
    rw [ParsedEvent.parent?_of_registered (List.mem_filter.mp inside).2]
      at isParent
    cases isParent
  · intro before event after split parent isParent
    obtain ⟨first, second, others, isBefore, rest⟩ :=
      List.map_eq_append_iff.mp split
    obtain ⟨packet, later, isSecond, rfl, isAfter⟩ :=
      List.map_eq_cons_iff.mp rest
    subst isSecond
    obtain ⟨front, back, whole, isFirst, isRest⟩ :=
      List.filter_eq_append_iff.mp others
    obtain ⟨skipped, remaining, isBack, allRegistered, _, _⟩ :=
      List.filter_eq_cons_iff.mp isRest
    rcases parented (front ++ skipped) packet remaining
      (by rw [whole, isBack, List.append_assoc]) parent isParent with
      known | ⟨creator, member, isRegistered, creates, _⟩ |
        ⟨creator, member, unregistered, creates⟩
    · exact .inl (.inl known)
    · refine .inl (.inr ⟨creator.data, ?_, creates⟩)
      exact List.mem_map_of_mem (List.mem_filter.mpr ⟨member, isRegistered⟩)
    · rcases List.mem_append.mp member with early | moved
      · refine .inr ⟨creator.data, ?_, creates⟩
        rw [← isBefore, ← isFirst]
        exact List.mem_map_of_mem
          (List.mem_filter.mpr ⟨early, by simp [unregistered]⟩)
      · exact absurd (by simp [unregistered]) (allRegistered creator moved)

/-- Batches of complete ledgers, written one after another, supply every
parent. -/
theorem Parented.supplied_batches {has : Parent → Prop}
    (batches : List (List EventPacket))
    (apart : batches.Pairwise fun early late =>
      ∀ first ∈ early, ∀ second ∈ late, first.ledger < second.ledger)
    (parented : Parented has batches.flatten) :
    Supplied has (batches.flatMap fun batch =>
      (parentsFirst batch).map EventPacket.data) := by
  induction batches generalizing has with
  | nil =>
      intro before event after split
      simp at split
  | cons batch batches induction =>
      have bounds := List.pairwise_cons.mp apart
      rw [List.flatMap_cons]
      rw [List.flatten_cons] at parented
      apply Supplied.append
      · apply Parented.supplied
        intro before packet after split parent isParent
        have inside : packet ∈ batch := by
          rw [split]
          exact List.mem_append_right _ List.mem_cons_self
        rcases parented before packet (after ++ batches.flatten)
          (by rw [split, List.append_assoc, List.cons_append]) parent
          isParent with
          known | ⟨creator, member, isRegistered, creates, early⟩ | created
        · exact .inl known
        · refine .inr (.inl ⟨creator, ?_, isRegistered, creates, early⟩)
          rcases List.mem_append.mp member with here | later
          · exact here
          · obtain ⟨other, isBatch, holds⟩ := List.mem_flatten.mp later
            exact absurd (bounds.1 other isBatch packet inside creator holds)
              (Nat.not_lt.mpr early)
        · exact .inr (.inr created)
      · apply induction bounds.2
        intro before packet after split parent isParent
        have written : ∀ creator ∈ batch,
            creator.data.creates? = some parent →
            ∃ event ∈ (parentsFirst batch).map EventPacket.data,
              event.creates? = some parent := by
          intro creator member creates
          refine ⟨creator.data, List.mem_map_of_mem ?_, creates⟩
          cases isRegistered : creator.data.isRegistered with
          | true =>
              exact List.mem_append_left _
                (List.mem_filter.mpr ⟨member, isRegistered⟩)
          | false =>
              exact List.mem_append_right _
                (List.mem_filter.mpr ⟨member, by simp [isRegistered]⟩)
        rcases parented (batch ++ before) packet after
          (by rw [split, List.append_assoc]) parent isParent with
          known | ⟨creator, member, isRegistered, creates, early⟩ |
            ⟨creator, member, unregistered, creates⟩
        · exact .inl (.inl known)
        · rcases List.mem_append.mp member with here | later
          · exact .inl (.inr (written creator here creates))
          · exact .inr (.inl ⟨creator, later, isRegistered, creates, early⟩)
        · rcases List.mem_append.mp member with here | later
          · exact .inl (.inr (written creator here creates))
          · exact .inr (.inr ⟨creator, later, unregistered, creates⟩)

end Stellar8004.Indexer
