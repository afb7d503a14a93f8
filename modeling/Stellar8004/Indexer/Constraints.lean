import Stellar8004.Indexer.CellRefinement
import Stellar8004.Indexer.Parsers

/-!
# When a statement runs

A statement fails only on a CHECK or on a missing parent row.  Events the
parsers return pass every CHECK, so a parsed event whose parent is indexed is
always written, and a list of them is written whenever each parent is indexed
before its child.
-/

namespace Stellar8004.Indexer

/-! ## Parents -/

/-- A row other rows refer to. -/
inductive Parent where
  | agent (id : Nat)
  | feedback (key : FeedbackKey)
  deriving DecidableEq

namespace ParsedEvent

/-- The row the statement of an event refers to by a foreign key. -/
def parent? : ParsedEvent → Option Parent
  | metadataSet e => some (.agent e.agentId)
  | newFeedback e => some (.agent e.agentId)
  | responseAppended e =>
      some (.feedback
        (feedbackKey e.agentId e.clientAddress e.feedbackIndex))
  | validationRequest e => some (.agent e.agentId)
  | _ => none

/-- The parent row an event inserts. -/
def creates? : ParsedEvent → Option Parent
  | registered e => some (.agent e.agentId)
  | newFeedback e =>
      some (.feedback
        (feedbackKey e.agentId e.clientAddress e.feedbackIndex))
  | _ => none

/-- The CHECKs on the columns an event writes. -/
def Checked : ParsedEvent → Prop
  | registered e => sqlLength e.owner ≤ 256
  | agentWalletSet e => sqlLength e.newWallet ≤ 256
  | agentTransferred e => sqlLength e.to ≤ 256
  | newFeedback e =>
      sqlLength e.clientAddress ≤ 256 ∧ 1 ≤ e.feedbackIndex ∧
        e.valueDecimals ≤ 18
  | responseAppended e =>
      sqlLength e.clientAddress ≤ 256 ∧ sqlLength e.responder ≤ 256
  | validationRequest e => sqlLength e.validatorAddress ≤ 256
  | validationResponse e => e.response ≤ 100
  | _ => True

/-- The closing time of an event's ledger can be stored. -/
def Timed (runtime : Runtime) (event : ParsedEvent) : Prop :=
  ∃ time, pgTime runtime (.text event.base.ledgerClosedAt) = .ok time

end ParsedEvent

def Tables.Has (tables : Tables) : Parent → Prop
  | .agent id => (tables.agents id).isSome = true
  | .feedback key => (tables.feedback key).isSome = true

/-! ## Numbers -/

theorem integerAffinity_pos {number : Nat} (positive : 1 ≤ number) :
    1 ≤ integerAffinity number := by
  unfold integerAffinity
  split
  · exact positive
  · have bound : 2 ^ (Nat.log2 number - 52) ≤ number :=
      (Nat.pow_le_pow_right (by decide) (Nat.sub_le _ _)).trans
        (Nat.log2_self_le (by omega))
    have unit : 0 < 2 ^ (Nat.log2 number - 52) := Nat.two_pow_pos _
    have quotient : 1 ≤ number / 2 ^ (Nat.log2 number - 52) :=
      (Nat.one_le_div_iff unit).mpr bound
    simp only []
    split
    · exact Nat.mul_pos quotient unit
    · exact Nat.mul_pos (Nat.succ_pos _) unit

/-- A list of digits passes the CHECKs on `feedback.value`, with or without a
sign before it. -/
private theorem digits_decimal {digits : List Char}
    (nonempty : digits ≠ []) (all : digits.all Char.isDigit = true) :
    isDecimalText (String.ofList digits) = true ∧
      isDecimalText (String.ofList ('-' :: digits)) = true := by
  have visible : digits.takeWhile (· ≠ Char.ofNat 0) = digits := by
    apply List.takeWhile_eq_self_iff.mpr
    intro digit member
    have isDigit := List.all_eq_true.mp all digit member
    rw [decide_eq_true_eq]
    rintro rfl
    exact absurd isDigit (by decide)
  cases digits with
  | nil => exact absurd rfl nonempty
  | cons first rest =>
      have isDigit : first.isDigit = true := by
        rw [List.all_cons, Bool.and_eq_true] at all
        exact all.1
      have unsigned : first ≠ '-' := by
        rintro rfl
        exact absurd isDigit (by decide)
      constructor
      · unfold isDecimalText
        simp only [String.toList_ofList]
        rw [List.dropWhile_cons_of_neg (by simpa using unsigned)]
        simp only [visible]
        split
        · rename_i same
          exact absurd (List.cons.inj same).1 unsigned
        · rename_i same
          cases same
          simp [isDigit, all]
        · rename_i same
          cases same
      · unfold isDecimalText
        simp only [String.toList_ofList, isDigit, Bool.true_and]
        rw [List.dropWhile_cons_of_pos (by decide),
          List.dropWhile_cons_of_neg (by simpa using unsigned)]
        simp only [visible]
        simp [all]

theorem isDecimalText_toString (value : Int) :
    isDecimalText (toString value) = true := by
  have digits (number : Nat) := digits_decimal
    (Nat.toDigits_ne_nil (b := 10) (n := number))
    (List.all_eq_true.mpr fun char member =>
      Nat.isDigit_of_mem_toDigits (by decide) (by decide) member)
  cases value with
  | ofNat number =>
      have text : toString (Int.ofNat number) =
          String.ofList (Nat.toDigits 10 number) := by
        rw [← Nat.repr_eq_ofList_toDigits]
        rfl
      rw [text]
      exact (digits number).1
  | negSucc number =>
      have text : toString (Int.negSucc number) =
          String.ofList ('-' :: Nat.toDigits 10 (number + 1)) := by
        have shape : toString (Int.negSucc number) =
            "-" ++ (number + 1).repr := rfl
        rw [shape, Nat.repr_eq_ofList_toDigits]
        apply String.toList_inj.mp
        simp
      rw [text]
      exact (digits (number + 1)).2

/-! ## Writing one packet -/

section

variable {runtime : Runtime} {now : String} {tables after : Tables}
  {packet : EventPacket}

private theorem bound_of_time {iso time : String}
    {next : String → Except String Statement}
    (isTime : pgTime runtime (.text iso) = .ok time) :
    (pgTime runtime (.text iso) >>= next) = next time := by
  rw [isTime]
  rfl

/-- The statement of a timed event is bound. -/
theorem eventStatement_ok (now : String)
    (timed : packet.data.Timed runtime) :
    ∃ statement, eventStatement runtime packet now = .ok statement := by
  obtain ⟨id, contract, data⟩ := packet
  obtain ⟨time, isTime⟩ := timed
  cases data with
  | registered e => exact ⟨_, bound_of_time isTime⟩
  | newFeedback e => exact ⟨_, bound_of_time isTime⟩
  | responseAppended e => exact ⟨_, bound_of_time isTime⟩
  | validationRequest e => exact ⟨_, bound_of_time isTime⟩
  | validationResponse e => exact ⟨_, bound_of_time isTime⟩
  | _ => exact ⟨_, rfl⟩

/-- The statement of a checked event whose parent is indexed runs. -/
theorem Tables.exec_ok {statement : Statement}
    (bound : eventStatement runtime packet now = .ok statement)
    (checked : packet.data.Checked)
    (supplied : ∀ parent, packet.data.parent? = some parent →
      tables.Has parent) (defaultTime : String) :
    ∃ result, tables.exec defaultTime statement = .ok result := by
  obtain ⟨id, contract, data⟩ := packet
  cases data with
  | registered e =>
      have short : ¬ 256 < sqlLength e.owner := Nat.not_lt.mpr checked
      obtain ⟨time, _, rest⟩ := bind_ok_iff.mp bound
      cases rest
      simp only [Tables.exec, short, if_false]
      split <;> exact ⟨_, rfl⟩
  | uriUpdated e =>
      cases bound
      simp only [Tables.exec]
      split
      · exact ⟨_, rfl⟩
      · split <;> exact ⟨_, rfl⟩
  | metadataSet e =>
      cases bound
      have present := supplied _ rfl
      obtain ⟨row, found⟩ := Option.isSome_iff_exists.mp present
      simp only [Tables.exec, found]
      exact ⟨_, rfl⟩
  | agentWalletSet e =>
      cases bound
      have short : ¬ 256 < sqlLength e.newWallet := Nat.not_lt.mpr checked
      simp only [Tables.exec, Option.map_some, Option.getD_some, short,
        if_false]
      split <;> exact ⟨_, rfl⟩
  | agentWalletUnset e =>
      cases bound
      simp only [Tables.exec]
      split <;> exact ⟨_, rfl⟩
  | agentTransferred e =>
      cases bound
      have short : ¬ 256 < sqlLength e.to := Nat.not_lt.mpr checked
      simp only [Tables.exec, short, if_false]
      split
      · exact ⟨_, rfl⟩
      · split <;> exact ⟨_, rfl⟩
  | newFeedback e =>
      obtain ⟨client, index, scale⟩ := checked
      have short : ¬ 256 < sqlLength e.clientAddress := Nat.not_lt.mpr client
      have positive : ¬ integerAffinity e.feedbackIndex < 1 :=
        Nat.not_lt.mpr (integerAffinity_pos index)
      have small : ¬ 18 < e.valueDecimals := Nat.not_lt.mpr scale
      have present := supplied _ rfl
      obtain ⟨row, found⟩ := Option.isSome_iff_exists.mp present
      obtain ⟨time, _, rest⟩ := bind_ok_iff.mp bound
      cases rest
      simp only [Tables.exec, short, positive, isDecimalText_toString, small,
        Bool.not_true, Bool.false_eq_true, if_false, found]
      split <;> exact ⟨_, rfl⟩
  | feedbackRevoked e =>
      cases bound
      simp only [Tables.exec]
      split
      · exact ⟨_, rfl⟩
      · split <;> exact ⟨_, rfl⟩
  | responseAppended e =>
      obtain ⟨client, responder⟩ := checked
      have short : ¬ 256 < sqlLength e.clientAddress := Nat.not_lt.mpr client
      have brief : ¬ 256 < sqlLength e.responder := Nat.not_lt.mpr responder
      have present := supplied _ rfl
      obtain ⟨row, found⟩ := Option.isSome_iff_exists.mp present
      simp only [feedbackKey] at found
      obtain ⟨time, _, rest⟩ := bind_ok_iff.mp bound
      cases rest
      simp only [Tables.exec, short, brief, if_false, found]
      split <;> exact ⟨_, rfl⟩
  | validationRequest e =>
      have short : ¬ 256 < sqlLength e.validatorAddress :=
        Nat.not_lt.mpr checked
      have present := supplied _ rfl
      obtain ⟨row, found⟩ := Option.isSome_iff_exists.mp present
      obtain ⟨time, _, rest⟩ := bind_ok_iff.mp bound
      cases rest
      simp only [Tables.exec, short, if_false, found]
      split <;> exact ⟨_, rfl⟩
  | validationResponse e =>
      have small : ¬ 100 < e.response := Nat.not_lt.mpr checked
      obtain ⟨time, _, rest⟩ := bind_ok_iff.mp bound
      cases rest
      simp only [Tables.exec, small, if_false]
      split
      · exact ⟨_, rfl⟩
      · split <;> exact ⟨_, rfl⟩

/-- A timed, checked event whose parent is indexed is written. -/
theorem writePacket_ok (now : String) (timed : packet.data.Timed runtime)
    (checked : packet.data.Checked)
    (supplied : ∀ parent, packet.data.parent? = some parent →
      tables.Has parent) :
    ∃ after, writePacket runtime now tables packet = .ok after := by
  obtain ⟨statement, bound⟩ := eventStatement_ok now timed
  obtain ⟨⟨after, count⟩, ran⟩ := Tables.exec_ok bound checked supplied now
  exact ⟨after, writePacket_ok_iff.mpr ⟨statement, count, bound, ran⟩⟩

theorem Tables.Has.setAgent {parent : Parent} (has : tables.Has parent)
    (agent : Nat) (row : AgentRow) :
    (tables.setAgent agent row).Has parent := by
  cases parent with
  | agent id =>
      simp only [Has, agents_setAgent]
      split
      · rfl
      · exact has
  | feedback key => exact has

theorem Tables.Has.setFeedback {parent : Parent} (has : tables.Has parent)
    (key : FeedbackKey) (row : FeedbackRow) :
    (tables.setFeedback key row).Has parent := by
  cases parent with
  | agent id => exact has
  | feedback other =>
      simp only [Has, Tables.setFeedback, Function.update_apply]
      split
      · rfl
      · exact has

theorem Tables.Has.of_eq {parent : Parent} (has : tables.Has parent)
    (agents : after.agents = tables.agents)
    (feedback : after.feedback = tables.feedback) : after.Has parent := by
  cases parent with
  | agent id =>
      simp only [Has, agents]
      exact has
  | feedback key =>
      simp only [Has, feedback]
      exact has

/-- Rows that others refer to are never removed. -/
theorem Tables.Has.written {parent : Parent} (has : tables.Has parent)
    (written : writePacket runtime now tables packet = .ok after) :
    after.Has parent := by
  obtain ⟨id, contract, data⟩ := packet
  cases data with
  | registered e =>
      rw [writePacket_registered written]
      split
      · exact has
      · exact has.setAgent _ _
  | uriUpdated e =>
      rw [writePacket_uriUpdated written]
      split
      · exact has
      · split
        · exact has.setAgent _ _
        · exact has
  | metadataSet e =>
      obtain ⟨_, rfl⟩ := writePacket_metadataSet written
      exact has.of_eq rfl rfl
  | agentWalletSet e =>
      rw [writePacket_agentWalletSet written]
      split
      · exact has
      · exact has.setAgent _ _
  | agentWalletUnset e =>
      rw [writePacket_agentWalletUnset written]
      split
      · exact has
      · exact has.setAgent _ _
  | agentTransferred e =>
      rw [writePacket_agentTransferred written]
      split
      · exact has
      · split
        · exact (has.setAgent _ _).of_eq rfl rfl
        · exact has
  | newFeedback e =>
      rw [writePacket_newFeedback written]
      split
      · exact has
      · exact has.setFeedback _ _
  | feedbackRevoked e =>
      rw [writePacket_feedbackRevoked written]
      split
      · exact has
      · split
        · exact has.setFeedback _ _
        · exact has
  | responseAppended e =>
      rcases writePacket_responseAppended written with
        ⟨_, rfl⟩ | ⟨_, _, rfl⟩
      · exact has
      · exact has.of_eq rfl rfl
  | validationRequest e =>
      rw [writePacket_validationRequest written]
      split
      · exact has
      · exact has.of_eq rfl rfl
  | validationResponse e =>
      rw [writePacket_validationResponse written]
      split
      · exact has
      · split
        · exact has.of_eq rfl rfl
        · exact has

/-- The parent row an event inserts is there once it is written. -/
theorem Tables.Has.created {parent : Parent}
    (written : writePacket runtime now tables packet = .ok after)
    (creates : packet.data.creates? = some parent) : after.Has parent := by
  obtain ⟨id, contract, data⟩ := packet
  cases data with
  | registered e =>
      cases creates
      rw [writePacket_registered written]
      split
      · rename_i found
        simp [Has, found]
      · simp [Has]
  | newFeedback e =>
      cases creates
      rw [writePacket_newFeedback written]
      split
      · rename_i found
        simp [Has, found]
      · simp [Has, Tables.setFeedback]
  | _ => cases creates

end

/-! ## Writing a list -/

/-- Every parent an event of the list refers to is there already or created
earlier in the list. -/
def Supplied (has : Parent → Prop) (events : List ParsedEvent) : Prop :=
  ∀ before event after, events = before ++ event :: after →
    ∀ parent, event.parent? = some parent →
      has parent ∨ ∃ creator ∈ before, creator.creates? = some parent

theorem Supplied.tail {has : Parent → Prop} {event : ParsedEvent}
    {events : List ParsedEvent} (supplied : Supplied has (event :: events)) :
    Supplied (fun parent => has parent ∨ event.creates? = some parent)
      events := by
  intro before child after split parent isParent
  rcases supplied (event :: before) child after
    (by rw [split, List.cons_append]) parent isParent with
    known | ⟨creator, member, creates⟩
  · exact .inl (.inl known)
  · rcases List.mem_cons.mp member with rfl | earlier
    · exact .inl (.inr creates)
    · exact .inr ⟨creator, earlier, creates⟩

theorem Supplied.mono {has more : Parent → Prop} {events : List ParsedEvent}
    (supplied : Supplied has events)
    (grows : ∀ parent, has parent → more parent) : Supplied more events := by
  intro before event after split parent isParent
  exact (supplied before event after split parent isParent).imp
    (grows parent) id

section

variable {runtime : Runtime} {tables after : Tables}
  {writes : List (String × EventPacket)}

/-- Timed, checked events are all written when each parent comes first. -/
theorem writeAll_ok
    (timed : ∀ event ∈ writtenEvents writes, event.Timed runtime)
    (checked : ∀ event ∈ writtenEvents writes, event.Checked)
    (supplied : Supplied tables.Has (writtenEvents writes)) :
    ∃ after, writeAll runtime writes tables = .ok after := by
  induction writes generalizing tables with
  | nil => exact ⟨tables, rfl⟩
  | cons write writes induction =>
      obtain ⟨now, packet⟩ := write
      have parents : ∀ parent, packet.data.parent? = some parent →
          tables.Has parent := by
        intro parent isParent
        rcases supplied [] packet.data (writtenEvents writes) rfl parent
          isParent with known | ⟨_, member, _⟩
        · exact known
        · cases member
      obtain ⟨middle, first⟩ := writePacket_ok now
        (timed _ List.mem_cons_self) (checked _ List.mem_cons_self) parents
      have rest : Supplied middle.Has (writtenEvents writes) := by
        refine supplied.tail.mono ?_
        rintro parent (known | created)
        · exact known.written first
        · exact Tables.Has.created first created
      obtain ⟨final, ran⟩ := induction
        (fun event member => timed event (List.mem_cons_of_mem _ member))
        (fun event member => checked event (List.mem_cons_of_mem _ member))
        rest
      refine ⟨final, ?_⟩
      simp only [writeAll, first, ran]

theorem Tables.Has.writtenAll {parent : Parent} (has : tables.Has parent)
    (written : writeAll runtime writes tables = .ok after) :
    after.Has parent := by
  induction writes generalizing tables with
  | nil =>
      cases written
      exact has
  | cons write writes induction =>
      obtain ⟨now, packet⟩ := write
      obtain ⟨middle, first, rest⟩ := writeAll_cons_ok written
      exact induction (has.written first) rest

/-- Every parent row the events of a run insert is there after it. -/
theorem Tables.Has.createdAll {parent : Parent}
    (written : writeAll runtime writes tables = .ok after)
    (event : ParsedEvent) (member : event ∈ writtenEvents writes)
    (creates : event.creates? = some parent) : after.Has parent := by
  induction writes generalizing tables with
  | nil => cases member
  | cons write writes induction =>
      obtain ⟨now, packet⟩ := write
      obtain ⟨middle, first, rest⟩ := writeAll_cons_ok written
      rcases List.mem_cons.mp member with rfl | later
      · exact (Tables.Has.created first creates).writtenAll rest
      · exact induction rest later

end

end Stellar8004.Indexer
