import Stellar8004.Indexer.Pages

/-!
# Windows and cursors

Between two rounds a scan either opens a window right after its checkpoint or
resumes at the last event it holds back.  Either way the next page, from
whatever node, continues the stream where the scan stands.
-/

namespace Stellar8004.Indexer

/-- What holds of the scan's variables between two rounds. -/
structure Window (scan : Scan) (stream done rest : List EventResponse)
    (loop : ScanState) : Prop where
  position : Position stream done loop.held rest loop.state.lastLedger
  reach : loop.to ≤ loop.state.lastLedger + SCAN_LIMIT
  ahead : loop.state.lastLedger < scan.head →
    loop.state.lastLedger < loop.to
  head : loop.to ≤ scan.head
  opened : loop.cursor = none →
    loop.held = [] ∧ loop.from = loop.state.lastLedger + 1
  resumed : ∀ cursor, loop.cursor = some cursor → loop.held ≠ [] ∧
    cursor = .event (done.length + loop.held.length - 1)

/-- The page a node answers a scan's request with. -/
structure NextPage (loop : ScanState) (done rest : List EventResponse)
    (node : Node) (page : Page) (stop : Nat) : Prop where
  events : page.events = nextEvents rest stop
  reaches : min loop.to page.latestLedger < stop
  bounded : stop ≤ page.latestLedger + 1
  ahead : loop.state.lastLedger < page.latestLedger
  latest : page.latestLedger = node.latest
  cursor : page.events.length = PAGE_LIMIT →
    page.cursor = .event (done.length + loop.held.length + PAGE_LIMIT - 1)

theorem Window.nextPage {scan : Scan} {stream done rest : List EventResponse}
    {loop : ScanState} {node : Node} {page : Page}
    (ordered : ChainOrdered stream)
    (window : Window scan stream done rest loop)
    (answered : getEvents stream node loop.request = some page) :
    ∃ stop, NextPage loop done rest node page stop := by
  have split := window.position.split
  have reach := window.reach
  have limit : SCAN_LIMIT = ledgerScanLimit := rfl
  cases cursor : loop.cursor with
  | none =>
      obtain ⟨nothing, start⟩ := window.opened cursor
      rw [nothing, List.append_nil] at split
      subst split
      have below : ∀ event ∈ done, event.ledger < loop.from := by
        intro event member
        have early := window.position.done event member
        omega
      have above : ∀ event ∈ rest, loop.from ≤ event.ledger := by
        intro event member
        have late := window.position.rest event member
        omega
      simp only [ScanState.request, cursor] at answered
      obtain ⟨page', _, latest⟩ := pageFrom_range ordered below above answered
      refine ⟨_, page'.events, ?_, ?_, ?_, page'.latest, ?_⟩
      · rw [page'.latest]
        omega
      · rw [page'.latest]
        omega
      · rw [page'.latest]
        omega
      · intro full
        rw [page'.cursor full (by decide), nothing]
        rfl
  | some cursor' =>
      obtain ⟨something, isCursor⟩ := window.resumed cursor' cursor
      cases kept : loop.held.getLast? with
      | none => exact absurd (List.getLast?_eq_none_iff.mp kept) something
      | some last =>
          obtain ⟨front, isHeld⟩ := List.getLast?_eq_some_iff.mp kept
          have next := window.position.held last (List.mem_of_getLast? kept)
          have cut : stream = (done ++ front) ++ last :: rest := by
            rw [split, isHeld]
            simp
          have index : done.length + loop.held.length - 1 =
              (done ++ front).length := by
            rw [isHeld]
            simp
          simp only [ScanState.request, cursor, isCursor, index] at answered
          subst cut
          obtain ⟨page', _, latest⟩ := pageFrom_after ordered answered
          refine ⟨_, page'.events, ?_, ?_, ?_, page'.latest, ?_⟩
          · rw [page'.latest]
            omega
          · rw [page'.latest]
            omega
          · rw [page'.latest]
            omega
          · intro full
            rw [page'.cursor full (by decide), isHeld]
            simp [Nat.add_assoc]

/-- A written page leaves the scan between rounds again. -/
theorem Window.following {scan : Scan}
    {stream done rest later : List EventResponse} {loop after : ScanState}
    {node : Node} {page : Page} {stop : Nat} {round : ScanState}
    (window : Window scan stream done rest loop)
    (next : NextPage loop done rest node page stop)
    (unfinished : loop.state.lastLedger < scan.head)
    (adds : PageAdds stream done loop page (loop.read page) later)
    (held : after.held = (loop.read page).held)
    (ledger : after.state.lastLedger =
      max loop.state.lastLedger (loop.read page).reached)
    (sameTo : after.to = loop.to)
    (goesOn : after.following scan page (loop.read page).scanned =
      .next round) :
    Window scan stream (done ++ (loop.read page).ready) later round := by
  have inWindow := window.ahead unfinished
  have inHead := window.head
  have reach := window.reach
  have known := next.ahead
  have position := adds.position
  rw [← held, ← ledger] at position
  unfold ScanState.following at goesOn
  by_cases full : (loop.read page).scanned = false
  · rw [if_pos full] at goesOn
    cases goesOn
    obtain ⟨something, bound, whole, lengths⟩ := adds.full full
    refine ⟨position, ?_, ?_, ?_, fun none => (nomatch none), ?_⟩
    · simp only [sameTo, ledger]
      omega
    · simp only [sameTo, ledger]
      omega
    · simp only [sameTo]
      omega
    · rintro cursor ⟨⟩
      refine ⟨by rwa [held], ?_⟩
      rw [next.cursor whole, held, List.length_append]
      congr 1
      omega
  · rw [if_neg full] at goesOn
    have scanned : (loop.read page).scanned = true := by
      simpa using full
    obtain ⟨nothing, reached⟩ := adds.scanned scanned
    by_cases lagging : page.latestLedger < after.to
    · rw [if_pos lagging] at goesOn
      cases goesOn
    · rw [if_neg lagging] at goesOn
      cases goesOn
      have atTo : after.state.lastLedger = loop.to := by
        rw [ledger, reached]
        omega
      refine ⟨position, ?_, ?_, ?_, fun _ => ⟨by rw [held, nothing], ?_⟩,
        fun cursor some => nomatch some⟩
      · simp only [atTo, sameTo]
        omega
      · simp only [atTo, sameTo, SCAN_LIMIT]
        omega
      · exact Nat.min_le_left _ _
      · simp only [atTo, sameTo]

/-- The first window. -/
theorem Window.first {scan : Scan} {stream : List EventResponse}
    (ordered : ChainOrdered stream) {loop : ScanState}
    (opened : loop.from = loop.state.lastLedger + 1)
    (isTo : loop.to = min scan.head (loop.from + SCAN_LIMIT - 1))
    (cursor : loop.cursor = none) (held : loop.held = []) :
    Window scan stream
      (stream.filter (·.ledger ≤ loop.state.lastLedger))
      (stream.filter (loop.state.lastLedger < ·.ledger)) loop where
  position :=
    { split := by rw [held, List.append_nil]; exact ordered.split _
      done := fun event member => by simpa using (List.mem_filter.mp member).2
      held := fun event member => by
        rw [held] at member
        cases member
      rest := fun event member => by
        simpa using (List.mem_filter.mp member).2 }
  reach := by
    rw [isTo, opened]
    omega
  ahead := by
    rw [isTo, opened]
    simp only [SCAN_LIMIT]
    omega
  head := by
    rw [isTo]
    exact Nat.min_le_left _ _
  opened := fun _ => ⟨held, opened⟩
  resumed := fun other some => by
    rw [cursor] at some
    cases some

end Stellar8004.Indexer
