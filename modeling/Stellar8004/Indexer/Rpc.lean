import Stellar8004.Indexer.Events

/-!
# Event pages

How an RPC node answers `getEvents` for one contract, as `fakeRpc` of
`test-helpers.ts` describes it.  A node knows the contract's events up to its
own latest ledger, scans at most 10,000 ledgers in one call and returns at most
`limit` events.  A call whose first ledger the node does not hold throws.
-/

namespace Stellar8004.Indexer

/-- `event:3` and `ledger:7`.  The indexer only tests that a cursor is
there. -/
inductive Cursor where
  | event (index : Nat)
  | ledger (ledger : Nat)
  deriving DecidableEq, Repr

/-- `rpc.Api.GetEventsRequest` for one contract.  `endLedger` is exclusive. -/
inductive EventsRequest where
  | after (cursor : Cursor) (limit : Nat)
  | range (startLedger endLedger limit : Nat)
  deriving DecidableEq, Repr

/-- `rpc.Api.GetEventsResponse`. -/
structure Page where
  events : List EventResponse
  cursor : Cursor
  latestLedger : Nat

/-- `rpc.Api.GetHealthResponse`. -/
structure Health where
  latestLedger : Nat
  oldestLedger : Nat
  deriving DecidableEq, Repr

/-- The ledgers one RPC node holds. -/
structure Node where
  latest : Nat
  oldest : Nat
  deriving DecidableEq, Repr

/-- Ledgers scanned by one call. -/
def ledgerScanLimit : Nat := 10000

/-- The events at or after position `skip` with a ledger in
`start, …, stop - 1`, at most `limit` of them, with their positions. -/
def found (stream : List EventResponse) (skip start stop limit : Nat) :
    List (EventResponse × Nat) :=
  ((stream.zipIdx.drop skip).filter fun entry =>
    start ≤ entry.1.ledger ∧ entry.1.ledger < stop).take limit

def pageOf (stream : List EventResponse) (node : Node)
    (skip start stop limit : Nat) : Option Page :=
  if start < node.oldest ∨ node.latest < start then none
  else
    let events := found stream skip start stop limit
    some
      { events := events.map Prod.fst
        cursor :=
          match events.getLast? with
          | some last =>
              if events.length = limit then .event last.2
              else .ledger (stop - 1)
          | none => .ledger (stop - 1)
        latestLedger := node.latest }

/-- `none` when the call throws. -/
def getEvents (stream : List EventResponse) (node : Node) :
    EventsRequest → Option Page
  | .after (.event index) limit =>
      match stream[index]? with
      | none => none
      | some last =>
          pageOf stream node (index + 1) last.ledger
            (min (last.ledger + ledgerScanLimit) (node.latest + 1)) limit
  | .after (.ledger ledger) limit =>
      pageOf stream node (stream.countP (·.ledger ≤ ledger)) ledger
        (min (ledger + ledgerScanLimit) (node.latest + 1)) limit
  | .range startLedger endLedger limit =>
      pageOf stream node 0 startLedger
        (min (min (startLedger + ledgerScanLimit) (node.latest + 1))
          endLedger) limit

/-- Events in chain order. -/
def ChainOrdered (stream : List EventResponse) : Prop :=
  stream.Pairwise fun first second => first.ledger ≤ second.ledger

theorem ChainOrdered.takeWhile_eq_filter {stream : List EventResponse}
    (ordered : ChainOrdered stream) (stop : Nat) :
    stream.takeWhile (·.ledger < stop) =
      stream.filter (·.ledger < stop) := by
  induction stream with
  | nil => rfl
  | cons first stream induction =>
      rw [ChainOrdered, List.pairwise_cons] at ordered
      by_cases early : first.ledger < stop
      · simp [early, induction ordered.2]
      · have none : ∀ later ∈ stream, ¬ later.ledger < stop :=
          fun later member =>
            have after := ordered.1 later member
            by omega
        have empty : stream.filter (·.ledger < stop) = [] :=
          List.filter_eq_nil_iff.mpr (by simpa using none)
        simp [early, empty]

/-- The positions of a page follow one another. -/
private theorem filter_zipIdx {rest : List EventResponse}
    (ordered : ChainOrdered rest) (offset start stop : Nat)
    (above : ∀ event ∈ rest, start ≤ event.ledger) :
    (rest.zipIdx offset).filter (fun entry =>
        start ≤ entry.1.ledger ∧ entry.1.ledger < stop) =
      (rest.takeWhile (·.ledger < stop)).zipIdx offset := by
  induction rest generalizing offset with
  | nil => rfl
  | cons first rest induction =>
      have tail := List.pairwise_cons.mp ordered
      have later := induction tail.2 (offset + 1) fun event member =>
        above event (List.mem_cons_of_mem _ member)
      have within := above first List.mem_cons_self
      by_cases early : first.ledger < stop
      · rw [List.zipIdx_cons, List.filter_cons_of_pos (by simp [early, within]),
          later, List.takeWhile_cons_of_pos (by simpa using early),
          List.zipIdx_cons]
      · have empty : rest.takeWhile (·.ledger < stop) = [] := by
          rw [ChainOrdered.takeWhile_eq_filter tail.2,
            List.filter_eq_nil_iff]
          intro event member
          have after := tail.1 event member
          simp only [decide_eq_true_eq]
          omega
        rw [List.zipIdx_cons, List.filter_cons_of_neg (by simp [early]),
          later, empty, List.takeWhile_cons_of_neg (by simpa using early)]
        rfl

private theorem take_zipIdx (events : List EventResponse)
    (limit offset : Nat) :
    (events.zipIdx offset).take limit = (events.take limit).zipIdx offset := by
  induction events generalizing limit offset with
  | nil => simp
  | cons event events induction =>
      cases limit with
      | zero => rfl
      | succ limit => simp [List.zipIdx_cons, induction]

/-- A page of a stream cut at the position the scan continues from. -/
structure PageFrom (low rest : List EventResponse) (node : Node)
    (stop limit : Nat) (page : Page) : Prop where
  events : page.events = (rest.takeWhile (·.ledger < stop)).take limit
  cursor : page.events.length = limit → 0 < limit →
    page.cursor = .event (low.length + limit - 1)
  latest : page.latestLedger = node.latest

theorem pageFrom_of_pageOf {low rest : List EventResponse} {node : Node}
    {skip start stop limit : Nat} {page : Page}
    (ordered : ChainOrdered (low ++ rest))
    (above : ∀ event ∈ rest, start ≤ event.ledger)
    (skipped : skip = low.length ∨
      skip = 0 ∧ ∀ event ∈ low, event.ledger < start)
    (answered : pageOf (low ++ rest) node skip start stop limit =
      some page) :
    PageFrom low rest node stop limit page ∧
      node.oldest ≤ start ∧ start ≤ node.latest := by
  have positions : found (low ++ rest) skip start stop limit =
      ((rest.takeWhile (·.ledger < stop)).take limit).zipIdx low.length := by
    have tail : ChainOrdered rest := (List.pairwise_append.mp ordered).2.1
    have kept := filter_zipIdx tail low.length start stop above
    unfold found
    rcases skipped with rfl | ⟨rfl, below⟩
    · rw [List.zipIdx_append, List.drop_left' (by simp), Nat.zero_add, kept,
        take_zipIdx]
    · have dropped : (low.zipIdx).filter (fun entry =>
          start ≤ entry.1.ledger ∧ entry.1.ledger < stop) = [] := by
        rw [List.filter_eq_nil_iff]
        intro entry member
        have early := below entry.1 (List.fst_mem_of_mem_zipIdx member)
        simp only [decide_eq_true_eq]
        omega
      rw [List.drop_zero, List.zipIdx_append, List.filter_append, dropped,
        Nat.zero_add, kept, List.nil_append, take_zipIdx]
  unfold pageOf at answered
  split at answered
  · cases answered
  · rename_i held
    rw [positions] at answered
    cases answered
    refine ⟨⟨?_, ?_, rfl⟩, by omega, by omega⟩
    · simp
    · intro full positive
      simp only [List.zipIdx_map_fst] at full
      generalize taken : (rest.takeWhile (·.ledger < stop)).take limit =
        events at full ⊢
      have last : (events.zipIdx low.length).getLast? =
          (events.getLast?).map fun event =>
            (event, low.length + events.length - 1) := by
        cases events using List.reverseRecOn with
        | nil => rfl
        | append_singleton init event => simp [List.zipIdx_append]
      rw [last]
      cases final : events.getLast? with
      | none =>
          rw [List.getLast?_eq_none_iff] at final
          simp [final] at full
          omega
      | some event => simp [full]

/-- A request for a range of ledgers, of a stream cut at its start. -/
theorem pageFrom_range {low rest : List EventResponse} {node : Node}
    {start stop limit : Nat} {page : Page}
    (ordered : ChainOrdered (low ++ rest))
    (below : ∀ event ∈ low, event.ledger < start)
    (above : ∀ event ∈ rest, start ≤ event.ledger)
    (answered : getEvents (low ++ rest) node (.range start stop limit) =
      some page) :
    PageFrom low rest node
        (min (min (start + ledgerScanLimit) (node.latest + 1)) stop) limit
        page ∧ node.oldest ≤ start ∧ start ≤ node.latest :=
  pageFrom_of_pageOf ordered above (.inr ⟨rfl, below⟩) answered

/-- A request after an event, of a stream cut there. -/
theorem pageFrom_after {low rest : List EventResponse} {node : Node}
    {last : EventResponse} {limit : Nat} {page : Page}
    (ordered : ChainOrdered (low ++ last :: rest))
    (answered : getEvents (low ++ last :: rest) node
      (.after (.event low.length) limit) = some page) :
    PageFrom (low ++ [last]) rest node
        (min (last.ledger + ledgerScanLimit) (node.latest + 1)) limit page ∧
      node.oldest ≤ last.ledger ∧ last.ledger ≤ node.latest := by
  have cut : low ++ last :: rest = (low ++ [last]) ++ rest := by simp
  have here : (low ++ last :: rest)[low.length]? = some last := by simp
  simp only [getEvents, here] at answered
  rw [cut] at answered ordered
  refine pageFrom_of_pageOf ordered ?_ (.inl (by simp)) answered
  intro event member
  exact (List.pairwise_append.mp ordered).2.2 last (by simp) event member

end Stellar8004.Indexer
