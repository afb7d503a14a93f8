import Stellar8004.Web.FeedbackReplies

/-!
# The answer about one agent

`handleAgentDetail` of `apps/web/src/lib/server/api/handlers.ts`, up to the
presentation of the row.
-/

namespace Stellar8004.Web

open Stellar8004.Indexer

/-! ## `handleAgentDetail` -/

/-- A row of `agent_metadata`. -/
structure MetadataItem where
  agentId : Nat
  key : String
  value : Option String

structure DetailDb extends ReplyDb where
  metadata : List MetadataItem
  metadataUnique :
    (metadata.map fun item => (item.agentId, item.key)).Nodup

/-- The number a key is an array index of: decimal without a leading zero, and
less than `2 ^ 32 - 1`. -/
def arrayIndex (key : String) : Option Nat :=
  match key.toNat? with
  | some index =>
      if toString index = key ∧ index < 2 ^ 32 - 1 then some index else none
  | none => none

/-- Sets a property, in its place if there is one of that name. -/
def setProperty (fields : List (String × String)) (entry : String × String) :
    List (String × String) :=
  if fields.any fun field => field.1 == entry.1 then
    fields.map fun field => if field.1 = entry.1 then entry else field
  else fields ++ [entry]

/-- The properties of an object in their order: array indices by number, and
then the other keys as they were set. -/
def propertyOrder (fields : List (String × String)) : List (String × String) :=
  ordered (ascending fun field : String × String =>
      (arrayIndex field.1).getD 0)
    (fields.filter fun field => (arrayIndex field.1).isSome) ++
    fields.filter fun field => (arrayIndex field.1).isNone

/-- `Object.fromEntries`, as the properties of the object. -/
def fromEntries (entries : List (String × String)) : List (String × String) :=
  propertyOrder (entries.foldl setProperty [])

/-- The row the answer is built from, and the properties of its metadata. -/
structure AgentAnswer where
  row : AgentScores
  metadata : List (String × String)

/-- `ORDER BY key`. -/
def metadataRows (db : DetailDb) (agentId : Int) : List (String × String) :=
  (ordered (ascending MetadataItem.key)
    (db.metadata.filter fun item => (item.agentId : Int) = agentId)).map
      fun item => (item.key, item.value.getD "")

def invalidId : ApiError :=
  { code := "INVALID_ID", message := "Agent ID must be a number"
    status := 400 }

def agentNotFound : ApiError :=
  { code := "NOT_FOUND", message := "Agent not found", status := 404 }

def handleAgentDetail (db : DetailDb) (id : String) :
    Except ApiError AgentAnswer :=
  match parseInt id with
  | none => .error invalidId
  | some agentId =>
      match db.rows.find? fun row => (row.id : Int) = agentId with
      | none => .error agentNotFound
      | some row =>
          .ok { row, metadata := fromEntries (metadataRows db agentId) }

/-! ## Objects -/

/-- Entries with keys of their own are all set. -/
theorem setProperties_eq {entries : List (String × String)}
    (own : (entries.map Prod.fst).Nodup) :
    entries.foldl setProperty [] = entries := by
  induction entries using List.reverseRecOn with
  | nil => rfl
  | append_singleton entries entry induction =>
      rw [List.map_append, List.nodup_append] at own
      obtain ⟨before, -, apart⟩ := own
      have isNew : (entries.any fun field => field.1 == entry.1) = false := by
        rw [List.any_eq_false]
        intro field member same
        exact apart field.1 (List.mem_map_of_mem member) entry.1 (by simp)
          (beq_iff_eq.mp same)
      rw [List.foldl_append, induction before, List.foldl_cons,
        List.foldl_nil, setProperty, isNew]
      rfl

theorem propertyOrder_perm (fields : List (String × String)) :
    (propertyOrder fields).Perm fields := by
  have split := List.filter_append_perm
    (fun field : String × String => (arrayIndex field.1).isSome) fields
  have others : (fields.filter fun field => (arrayIndex field.1).isNone) =
      fields.filter fun field => !(arrayIndex field.1).isSome := by
    apply List.filter_congr
    intro field _
    cases arrayIndex field.1 <;> rfl
  unfold propertyOrder
  rw [others]
  exact ((List.mergeSort_perm _ _).append_right _).trans split

theorem fromEntries_perm {entries : List (String × String)}
    (own : (entries.map Prod.fst).Nodup) :
    (fromEntries entries).Perm entries := by
  rw [fromEntries, setProperties_eq own]
  exact propertyOrder_perm entries

/-! ## Metadata rows -/

theorem ascending_isLE {α β : Type} [LinearOrder β] (column : α → β)
    (first second : α) : (ascending column first second).isLE = true ↔
      column first ≤ column second := by
  unfold ascending
  rw [Ordering.isLE_iff_ne_gt, compare_gt_iff_gt, not_lt]

/-- Rows with columns of their own are strictly ordered by them. -/
theorem ordered_strict {α β : Type} [LinearOrder β] {column : α → β}
    {rows : List α} (own : (rows.map column).Nodup) :
    (ordered (ascending column) rows).Pairwise fun first second =>
      column first < column second := by
  have sorted : (ordered (ascending column) rows).Pairwise
      fun first second => (ascending column first second).isLE = true := by
    apply List.pairwise_mergeSort
    · intro first second third left right
      rw [ascending_isLE] at left right ⊢
      exact left.trans right
    · intro first second
      rw [Bool.or_eq_true, ascending_isLE, ascending_isLE]
      exact le_total _ _
  have perm : (ordered (ascending column) rows).Perm rows :=
    List.mergeSort_perm rows _
  have apart : (ordered (ascending column) rows).Pairwise
      fun first second => column first ≠ column second :=
    List.pairwise_map.mp ((perm.map column).nodup_iff.mpr own)
  apply (sorted.and apart).imp
  rintro first second ⟨before, different⟩
  rw [ascending_isLE] at before
  exact lt_of_le_of_ne before different

theorem mem_metadataRows {db : DetailDb} {agentId : Nat} {key value : String} :
    (key, value) ∈ metadataRows db agentId ↔
      ∃ item ∈ db.metadata, item.agentId = agentId ∧ item.key = key ∧
        item.value.getD "" = value := by
  have same : ∀ rows : List MetadataItem,
      (ordered (ascending MetadataItem.key) rows).Perm rows :=
    fun rows => List.mergeSort_perm rows _
  unfold metadataRows
  rw [((same _).map _).mem_iff, List.mem_map]
  constructor
  · rintro ⟨item, member, isPair⟩
    obtain ⟨inside, isAgent⟩ := List.mem_filter.mp member
    exact ⟨item, inside, Int.ofNat_inj.mp (of_decide_eq_true isAgent),
      congrArg Prod.fst isPair, congrArg Prod.snd isPair⟩
  · rintro ⟨item, inside, rfl, rfl, rfl⟩
    exact ⟨item, List.mem_filter.mpr ⟨inside, decide_eq_true rfl⟩, rfl⟩

theorem metadataRows_sorted (db : DetailDb) (agentId : Nat) :
    (metadataRows db agentId).Pairwise fun first second =>
      first.1 < second.1 := by
  have own : ((db.metadata.filter fun item =>
      (item.agentId : Int) = agentId).map MetadataItem.key).Nodup := by
    apply List.pairwise_map.mpr
    apply (List.pairwise_map.mp (db.metadataUnique.sublist
      (List.filter_sublist.map _))).imp_of_mem
    intro first second isFirst isSecond different same
    have firstId := of_decide_eq_true (List.mem_filter.mp isFirst).2
    have secondId := of_decide_eq_true (List.mem_filter.mp isSecond).2
    exact different
      (Prod.ext (Int.ofNat_inj.mp (firstId.trans secondId.symm)) same)
  exact List.pairwise_map.mpr (ordered_strict own)

theorem metadataRows_own (db : DetailDb) (agentId : Nat) :
    ((metadataRows db agentId).map Prod.fst).Nodup :=
  List.pairwise_map.mpr ((metadataRows_sorted db agentId).imp fun less =>
    ne_of_lt less)

end Stellar8004.Web
