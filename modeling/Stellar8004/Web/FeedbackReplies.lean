import Stellar8004.Library.Groups
import Stellar8004.Web.ListPages

/-!
# Feedback with its replies

The whole of `handleAgentFeedback`: the feedback of a page, joined with the
responses to it in a third statement and grouped by client and index.
-/

namespace Stellar8004.Web

open Stellar8004.Indexer
open Groups (groupBy get get_groupBy)

/-- A row of `feedback_responses` with its `id`. -/
structure ReplyItem where
  id : Nat
  row : ResponseRow

/-- The tables with the primary key of the responses and the unique key of the
feedback. -/
structure ReplyDb extends ListDb where
  responses : List ReplyItem
  responsesUnique : (responses.map ReplyItem.id).Nodup
  keysUnique : (feedback.map FeedbackItem.key).Nodup

/-- Newest first. -/
def replyOrder : ReplyItem → ReplyItem → Ordering :=
  columnOrder (·.row.createdAt) ReplyItem.id .descending

/-- `feedback_responses r JOIN f USING (agent_id, client_address,
feedback_index)`, where `f` is the page. -/
def joinedReplies (page : List FeedbackItem) (responses : List ReplyItem) :
    List ReplyItem :=
  ordered replyOrder (responses.flatMap fun reply =>
    (page.filter fun item => item.key = reply.row.key).map fun _ => reply)

/-- An integer of the database as the text of the number it is read as. -/
def numberText (value : Nat) : String :=
  toString (roundDouble value).num.toNat

/-- The key of `Map.groupBy`. -/
def groupKey (key : FeedbackKey) : String :=
  key.clientAddress ++ ":" ++ numberText key.feedbackIndex

/-- `Number(value)` of the column `value`, which names no infinity. -/
def feedbackNumber (value : String) : ParsedFloat :=
  match number value with
  | some rounded => overflowing rounded
  | none => .nan

/-- An entry of the answer: its value as a number, and the other columns. -/
structure AnsweredFeedback where
  item : FeedbackItem
  value : ParsedFloat
  responses : List ReplyItem

def handleFeedback (db : ReplyDb) (id : String) (params : Params) :
    Except ApiError (ListPage AnsweredFeedback) :=
  match handleAgentFeedback db.toListDb id params with
  | .error error => .error error
  | .ok page =>
      let replies := groupBy (fun reply : ReplyItem => groupKey reply.row.key)
        (joinedReplies page.items db.responses)
      .ok { page with
        items := page.items.map fun item =>
          { item, value := feedbackNumber item.row.value
            responses := get replies (groupKey item.key) } }

/-! ## Values -/

theorem trim_eq {text : List Char}
    (plain : ∀ char ∈ text, isWhiteSpace char = false) : trim text = text := by
  have kept : ∀ chars : List Char, (∀ char ∈ chars, isWhiteSpace char = false) →
      chars.dropWhile isWhiteSpace = chars := by
    intro chars all
    cases chars with
    | nil => rfl
    | cons first rest =>
        apply List.dropWhile_cons_of_neg
        simp [all first List.mem_cons_self]
  unfold trim List.rdropWhile
  rw [kept text plain, kept text.reverse fun char member =>
    plain char (List.mem_reverse.mp member), List.reverse_reverse]

theorem digit_plain {digit : Char} (isDigit : digit.isDigit = true) :
    isWhiteSpace digit = false := by
  have bounds : 48 ≤ digit.toNat ∧ digit.toNat ≤ 57 :=
    Char.isDigit_iff_toNat.mp isDigit
  simp only [isWhiteSpace, Bool.or_eq_false_iff, Bool.and_eq_false_iff,
    decide_eq_false_iff_not]
  omega

theorem unsignedDecimal_toDigits (value : Nat) :
    unsignedDecimal (Nat.toDigits 10 value) = some (value : ℚ) := by
  have isDigits : ∀ char ∈ Nat.toDigits 10 value, char.isDigit = true :=
    fun char member => Nat.isDigit_of_mem_toDigits (by omega) (by omega) member
  have same : digitsValue (Nat.toDigits 10 value) = value :=
    Nat.ofDigitChars_ten_toDigits
  have none : (Nat.toDigits 10 value).dropWhile Char.isDigit = [] :=
    List.dropWhile_eq_nil_iff.mpr isDigits
  simp [unsignedDecimal, none, List.takeWhile_eq_self_iff.mpr isDigits,
    Nat.toDigits_ne_nil, exponentPart, same]

/-- The text of an integer is read as the double next to it. -/
theorem number_toString (value : Int) :
    number (toString value) = some (roundDouble value) := by
  have plain : ∀ char ∈ (toString value).toList, isWhiteSpace char = false := by
    intro char member
    rcases integer_chars value char member with rfl | isDigit
    · decide
    · exact digit_plain isDigit
  have signed : signedDecimal (toString value).toList = some (value : ℚ) := by
    cases value with
    | ofNat value =>
        have read := unsignedDecimal_toDigits value
        rw [toList_toString_ofNat]
        unfold signedDecimal
        split
        · rename_i rest isText
          have isDigit := Nat.isDigit_of_mem_toDigits (b := 10) (n := value)
            (by omega) (by omega) (isText ▸ List.mem_cons_self)
          exact absurd isDigit (by decide)
        · rename_i rest isText
          have isDigit := Nat.isDigit_of_mem_toDigits (b := 10) (n := value)
            (by omega) (by omega) (isText ▸ List.mem_cons_self)
          exact absurd isDigit (by decide)
        · rw [read]
          rfl
    | negSucc value =>
        rw [toList_toString_negSucc, signedDecimal,
          unsignedDecimal_toDigits, Option.map_some, Int.cast_negSucc]
  unfold number
  rw [trim_eq plain]
  split
  · rename_i empty
    rw [empty] at signed
    cases signed
  · rename_i mark rest isText
    have notMark : mark = '-' ∨ mark.isDigit = true :=
      integer_chars value mark (by rw [isText]; simp)
    rw [isText] at signed
    split_ifs with hex octal binary
    · rcases hex with rfl | rfl <;> exact absurd notMark (by decide)
    · rcases octal with rfl | rfl <;> exact absurd notMark (by decide)
    · rcases binary with rfl | rfl <;> exact absurd notMark (by decide)
    · rw [signed, Option.map_some]
  · rw [signed, Option.map_some]

/-- An integer below `2 ^ 53` is answered as it is. -/
theorem feedbackNumber_exact {value : Int} (small : value.natAbs < 2 ^ 53) :
    feedbackNumber (toString value) = .finite value := by
  have rounded : roundDouble (value : ℚ) = value := isDouble_intCast small
  have size : |(value : ℚ)| < 2 ^ 1024 := by
    have bound : ((value.natAbs : Nat) : ℚ) < ((2 ^ 53 : Nat) : ℚ) :=
      Nat.cast_lt.mpr small
    have power : (2 : ℚ) ^ 53 ≤ 2 ^ 1024 :=
      pow_le_pow_right₀ one_le_two (by decide)
    rw [Nat.cast_natAbs] at bound
    push_cast at bound
    exact bound.trans_le power
  unfold feedbackNumber
  rw [number_toString, rounded]
  exact if_neg (not_le.mpr size)

/-! ## Keys of groups -/

theorem numberText_eq {value : Nat} (small : value < 2 ^ 53) :
    numberText value = toString value := by
  unfold numberText
  rw [show roundDouble value = value from isDouble_natCast small]
  rfl

/-- Digits end where the text before them ends in no digit. -/
theorem digits_append_injective {front other left right : List Char}
    (mark : Char) (unlike : mark.isDigit = false)
    (leftDigits : ∀ char ∈ left, char.isDigit = true)
    (rightDigits : ∀ char ∈ right, char.isDigit = true)
    (same : front ++ mark :: left = other ++ mark :: right) :
    front = other ∧ left = right := by
  have turned : left.reverse ++ mark :: front.reverse =
      right.reverse ++ mark :: other.reverse := by
    have mirrored := congrArg List.reverse same
    simpa using mirrored
  have ends : ∀ (digits rest : List Char),
      (∀ char ∈ digits, char.isDigit = true) →
      (digits.reverse ++ mark :: rest).takeWhile Char.isDigit =
        digits.reverse := by
    intro digits rest all
    rw [List.takeWhile_append_of_pos
      (fun char member => all char (List.mem_reverse.mp member)),
      List.takeWhile_cons_of_neg (by simp [unlike]), List.append_nil]
  have equal : left.reverse = right.reverse := by
    rw [← ends left front.reverse leftDigits, turned,
      ends right other.reverse rightDigits]
  have isRight := List.reverse_injective equal
  subst isRight
  exact ⟨List.append_cancel_right same, rfl⟩

theorem groupKey_injective {first second : FeedbackKey}
    (firstSmall : first.feedbackIndex < 2 ^ 53)
    (secondSmall : second.feedbackIndex < 2 ^ 53)
    (sameAgent : first.agentId = second.agentId)
    (same : groupKey first = groupKey second) : first = second := by
  have digits : ∀ value : Nat, (toString value).toList.all Char.isDigit =
      true := by
    intro value
    rw [List.all_eq_true]
    intro char member
    rw [show (toString value).toList = Nat.toDigits 10 value from
      Nat.toList_repr] at member
    exact Nat.isDigit_of_mem_toDigits (by decide) (by decide) member
  unfold groupKey at same
  rw [numberText_eq firstSmall, numberText_eq secondSmall] at same
  have texts := congrArg String.toList same
  simp only [String.toList_append, List.append_assoc] at texts
  obtain ⟨clients, indexes⟩ := digits_append_injective ':' rfl
    (List.all_eq_true.mp (digits _)) (List.all_eq_true.mp (digits _)) texts
  obtain ⟨agentId, client, index⟩ := first
  obtain ⟨otherAgent, otherClient, otherIndex⟩ := second
  cases sameAgent
  cases String.toList_injective clients
  have isIndex : index = otherIndex := by
    apply Nat.repr_injective
    exact String.toList_injective indexes
  cases isIndex
  rfl

/-! ## Filtered orders -/

/-- A part of the ordered rows is that part, ordered. -/
theorem ordered_filter {α β : Type} [LinearOrder β] {column : α → β}
    {id : α → Nat} {direction : Direction} {rows : List α}
    (apart : ∀ first ∈ rows, ∀ second ∈ rows, id first = id second →
      first = second) (keep : α → Bool) :
    (ordered (columnOrder column id direction) rows).filter keep =
      ordered (columnOrder column id direction) (rows.filter keep) := by
  have sorted : ∀ items : List α,
      (ordered (columnOrder column id direction) items).Pairwise
        fun first second =>
          (columnOrder column id direction first second).isLE = true :=
    fun items => List.pairwise_mergeSort columnOrder_trans columnOrder_total
      items
  have perm : ∀ items : List α,
      (ordered (columnOrder column id direction) items).Perm items :=
    fun items => List.mergeSort_perm items _
  have same := ((perm rows).filter keep).trans (perm (rows.filter keep)).symm
  refine List.Perm.eq_of_pairwise ?_ ((sorted rows).filter keep)
    (sorted (rows.filter keep)) same
  intro first second isFirst isSecond before behind
  have inside := (List.mem_filter.mp isFirst).1
  have other := (List.mem_filter.mp ((perm _).mem_iff.mp isSecond)).1
  apply apart first ((perm rows).mem_iff.mp inside) second other
  rw [columnOrder_isLE] at before behind
  have places : place column id first = place column id second := by
    cases direction with
    | ascending => exact le_antisymm before behind
    | descending => exact le_antisymm behind before
  exact congrArg (fun both => (ofLex both).2) places

/-! ## Replies -/

section

variable {db : ReplyDb}

theorem eq_of_key {page : List FeedbackItem}
    (keys : (page.map FeedbackItem.key).Nodup) {item : FeedbackItem}
    (member : item ∈ page) :
    page.filter (fun other => other.key = item.key) = [item] := by
  induction page with
  | nil => cases member
  | cons first page induction =>
      rw [List.map_cons, List.nodup_cons] at keys
      rcases List.mem_cons.mp member with rfl | later
      · have none : page.filter (fun other => other.key = item.key) = [] := by
          apply List.filter_eq_nil_iff.mpr
          intro other inside same
          apply keys.1
          exact of_decide_eq_true same ▸ List.mem_map_of_mem inside
        rw [List.filter_cons_of_pos (by simp), none]
      · have different : first.key ≠ item.key := by
          intro same
          exact keys.1 (same ▸ List.mem_map_of_mem later)
        rw [List.filter_cons_of_neg (by simpa using different),
          induction keys.2 later]

/-- The join has the replies to an item of the page once. -/
theorem filter_joined {page : List FeedbackItem}
    (keys : (page.map FeedbackItem.key).Nodup) {item : FeedbackItem}
    (member : item ∈ page) (responses : List ReplyItem) :
    (responses.flatMap fun reply =>
        (page.filter fun other => other.key = reply.row.key).map
          fun _ => reply).filter (fun reply => reply.row.key = item.key) =
      responses.filter fun reply => reply.row.key = item.key := by
  induction responses with
  | nil => rfl
  | cons reply responses induction =>
      rw [List.flatMap_cons, List.filter_append, induction]
      by_cases same : reply.row.key = item.key
      · rw [same, eq_of_key keys member,
          List.filter_cons_of_pos (by simpa using same)]
        simp [same]
      · rw [List.filter_cons_of_neg (by simpa using same)]
        have none : ((page.filter fun other => other.key = reply.row.key).map
            fun _ => reply).filter (fun reply => reply.row.key = item.key) =
              [] := by
          apply List.filter_eq_nil_iff.mpr
          intro other inside
          obtain ⟨_, _, rfl⟩ := List.mem_map.mp inside
          simpa using same
        rw [none]
        rfl

theorem mem_joinedReplies {page : List FeedbackItem} {responses : List ReplyItem}
    {reply : ReplyItem} (member : reply ∈ responses.flatMap fun reply =>
      (page.filter fun other => other.key = reply.row.key).map
        fun _ => reply) :
    reply ∈ responses ∧ ∃ item ∈ page, item.key = reply.row.key := by
  obtain ⟨source, isSource, inside⟩ := List.mem_flatMap.mp member
  obtain ⟨item, isItem, rfl⟩ := List.mem_map.mp inside
  obtain ⟨onPage, same⟩ := List.mem_filter.mp isItem
  exact ⟨isSource, item, onPage, of_decide_eq_true same⟩

/-- An item with all its replies. -/
def answered (db : ReplyDb) (item : FeedbackItem) : AnsweredFeedback :=
  { item
    value := feedbackNumber item.row.value
    responses := ordered replyOrder
      (db.responses.filter fun reply => reply.row.key = item.key) }

/-- The groups of a page give each of its items its replies. -/
theorem grouped_replies {page : List FeedbackItem} {agentId : Nat}
    (keys : (page.map FeedbackItem.key).Nodup)
    (about : ∀ item ∈ page, item.key.agentId = agentId)
    (small : ∀ item ∈ page, item.key.feedbackIndex < 2 ^ 53)
    {item : FeedbackItem} (member : item ∈ page) :
    get (groupBy (fun reply : ReplyItem => groupKey reply.row.key)
        (joinedReplies page db.responses)) (groupKey item.key) =
      (answered db item).responses := by
  have apart : ∀ first ∈ db.responses, ∀ second ∈ db.responses,
      first.id = second.id → first = second := by
    intro first isFirst second isSecond same
    exact List.inj_on_of_nodup_map db.responsesUnique isFirst isSecond same
  rw [get_groupBy]
  have exact_keys : ∀ reply ∈ joinedReplies page db.responses,
      (groupKey reply.row.key = groupKey item.key ↔
        reply.row.key = item.key) := by
    intro reply inside
    have joined := (List.mergeSort_perm _ _).mem_iff.mp inside
    obtain ⟨_, other, onPage, same⟩ := mem_joinedReplies joined
    constructor
    · intro equal
      rw [← same] at equal ⊢
      apply groupKey_injective (small other onPage) (small item member)
      · rw [about other onPage, about item member]
      · exact equal
    · intro equal
      rw [equal]
  have filtered := List.filter_congr
    (p := fun reply : ReplyItem => groupKey reply.row.key = groupKey item.key)
    (q := fun reply : ReplyItem => reply.row.key = item.key)
    fun reply inside => decide_eq_decide.mpr (exact_keys reply inside)
  refine filtered.trans ?_
  unfold joinedReplies replyOrder answered
  rw [ordered_filter, filter_joined keys member]
  · rfl
  · intro first isFirst second isSecond same
    exact apart first (mem_joinedReplies isFirst).1 second (mem_joinedReplies isSecond).1
      same

theorem mem_of_mem_listPage {α : Type} {order : α → α → Ordering}
    {rows : List α} {params : Params} {row : α}
    (member : row ∈ (listPage order rows params).items) : row ∈ rows := by
  have kept := List.mem_of_mem_drop (List.mem_of_mem_take member)
  exact (List.mergeSort_perm _ _).mem_iff.mp kept

theorem listPage_nodup {α κ : Type} {order : α → α → Ordering}
    {rows : List α} {params : Params} {key : α → κ}
    (unique : (rows.map key).Nodup) :
    ((listPage order rows params).items.map key).Nodup := by
  have sorted : ((ordered order rows).map key).Nodup :=
    ((List.mergeSort_perm rows _).map key).nodup_iff.mpr unique
  exact sorted.sublist
    (((List.take_sublist _ _).trans (List.drop_sublist _ _)).map key)

/-- Every page answers each of its items with all the replies to it, newest
first, and with no other. -/
theorem handleFeedback_eq
    (small : ∀ item ∈ db.feedback, item.key.feedbackIndex < 2 ^ 53)
    (id : String) (params : Params) :
    handleFeedback db id params =
      (handleAgentFeedback db.toListDb id params).map fun page =>
        { page with items := page.items.map (answered db) } := by
  unfold handleFeedback handleAgentFeedback
  cases parseInt id with
  | none => rfl
  | some agentId =>
      have keys : ((listedFeedback db.toListDb agentId params).map
          FeedbackItem.key).Nodup :=
        db.keysUnique.sublist (List.filter_sublist.map _)
      simp only [Except.map]
      congr 3
      apply List.map_congr_left
      intro item member
      have about : ∀ other ∈ (listPage feedbackOrder
          (listedFeedback db.toListDb agentId params) params).items,
          other.key.agentId = agentId.toNat := by
        intro other inside
        have matching := (List.mem_filter.mp (mem_of_mem_listPage inside)).2
        have same := (of_decide_eq_true matching).1
        omega
      have few : ∀ other ∈ (listPage feedbackOrder
          (listedFeedback db.toListDb agentId params) params).items,
          other.key.feedbackIndex < 2 ^ 53 := by
        intro other inside
        exact small other (List.mem_of_mem_filter (mem_of_mem_listPage inside))
      rw [grouped_replies (listPage_nodup keys) about few member]
      rfl

end

end Stellar8004.Web
