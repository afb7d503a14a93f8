import Stellar8004.Indexer.Scan

/-!
# What one page adds

A scan has read a beginning of the stream: the events up to its checkpoint are
done, the ones held back lie in the next ledger.  Whatever page an RPC node
answers with, the events of complete ledgers move over to what is done and the
checkpoint reaches the last of these ledgers.
-/

namespace Stellar8004.Indexer

/-- Where a scan stands in a contract's events. -/
structure Position (stream done held rest : List EventResponse)
    (ledger : Nat) : Prop where
  split : stream = done ++ held ++ rest
  done : ∀ event ∈ done, event.ledger ≤ ledger
  held : ∀ event ∈ held, event.ledger = ledger + 1
  rest : ∀ event ∈ rest, ledger < event.ledger

theorem ChainOrdered.split {events : List EventResponse}
    (ordered : ChainOrdered events) (ledger : Nat) :
    events = events.filter (·.ledger ≤ ledger) ++
      events.filter (ledger < ·.ledger) := by
  induction events with
  | nil => rfl
  | cons event events induction =>
      rw [ChainOrdered, List.pairwise_cons] at ordered
      by_cases early : event.ledger ≤ ledger
      · have late : ¬ ledger < event.ledger := by omega
        simp only [early, late, List.filter_cons, decide_true, decide_false,
          if_true, List.cons_append]
        rw [if_neg (by simp)]
        exact congrArg (event :: ·) (induction ordered.2)
      · have none : events.filter (·.ledger ≤ ledger) = [] := by
          rw [List.filter_eq_nil_iff]
          intro later member
          have after := ordered.1 later member
          simp only [decide_eq_true_eq]
          omega
        have all : events.filter (ledger < ·.ledger) = events := by
          rw [List.filter_eq_self]
          intro later member
          have after := ordered.1 later member
          simp only [decide_eq_true_eq]
          omega
        have late : ledger < event.ledger := by omega
        simp [early, late, none, all]

/-- The events of a page: the next ones, below `stop`. -/
def nextEvents (rest : List EventResponse) (stop : Nat) :
    List EventResponse :=
  (rest.takeWhile (·.ledger < stop)).take PAGE_LIMIT

theorem nextEvents_isPrefix (rest : List EventResponse) (stop : Nat) :
    nextEvents rest stop <+: rest :=
  (List.take_prefix _ _).trans (List.takeWhile_prefix _)

theorem mem_nextEvents_lt {rest : List EventResponse} {stop : Nat}
    {event : EventResponse} (member : event ∈ nextEvents rest stop) :
    event.ledger < stop := by
  have taken := List.mem_of_mem_take member
  simpa using List.mem_takeWhile_imp taken

/-- A page that proves its window was scanned holds every event of the
window. -/
theorem filter_nextEvents {rest : List EventResponse} {stop «to» latest : Nat}
    (ordered : ChainOrdered rest) (reaches : min «to» latest < stop)
    (bounded : stop ≤ latest + 1)
    (scanned : (nextEvents rest stop).length < PAGE_LIMIT ∨
      ((nextEvents rest stop).filter (·.ledger ≤ «to»)).length <
        (nextEvents rest stop).length) :
    (nextEvents rest stop).filter (·.ledger ≤ «to») =
      rest.filter (·.ledger ≤ min «to» latest) := by
  rcases scanned with short | overran
  · have all : nextEvents rest stop = rest.filter (·.ledger < stop) := by
      have whole : nextEvents rest stop =
          rest.takeWhile (·.ledger < stop) := by
        unfold nextEvents at short ⊢
        rw [List.length_take] at short
        exact List.take_of_length_le (by omega)
      rw [whole, ordered.takeWhile_eq_filter]
    rw [all, List.filter_filter]
    apply List.filter_congr
    intro event _
    rw [← Bool.decide_and, decide_eq_decide]
    omega
  · obtain ⟨later, isRest⟩ := nextEvents_isPrefix rest stop
    obtain ⟨event, member, beyond⟩ : ∃ event ∈ nextEvents rest stop,
        «to» < event.ledger := by
      by_contra none
      have same : (nextEvents rest stop).filter (·.ledger ≤ «to») =
          nextEvents rest stop := by
        rw [List.filter_eq_self]
        intro event member
        have inside := not_exists.mp none event
        simp only [decide_eq_true_eq]
        by_contra outside
        exact inside ⟨member, by omega⟩
      rw [same] at overran
      exact Nat.lt_irrefl _ overran
    have below := mem_nextEvents_lt member
    have isTo : min «to» latest = «to» := by omega
    have nothing : later.filter (·.ledger ≤ «to») = [] := by
      rw [List.filter_eq_nil_iff]
      intro other inside
      have after := (List.pairwise_append.mp (isRest ▸ ordered)).2.2 event
        member other inside
      simp only [decide_eq_true_eq]
      omega
    rw [isTo]
    conv_rhs => rw [← isRest]
    rw [List.filter_append, nothing, List.append_nil]

/-- The events of a scanned window, all of them ready. -/
theorem Position.scan {stream done held rest : List EventResponse}
    {ledger : Nat} (ordered : ChainOrdered rest)
    (position : Position stream done held rest ledger) {reached : Nat}
    (ahead : ledger < reached) :
    Position stream
      (done ++ (held ++ rest.filter (·.ledger ≤ reached))) []
      (rest.filter (reached < ·.ledger)) reached where
  split := by
    rw [position.split]
    conv_lhs => rw [ordered.split reached]
    simp
  done := by
    intro event member
    rw [List.mem_append, List.mem_append, List.mem_filter] at member
    rcases member with old | kept | ⟨_, inside⟩
    · exact (position.done event old).trans (Nat.le_of_lt ahead)
    · have next := position.held event kept
      omega
    · simpa using inside
  held := fun event member => nomatch member
  rest := fun event member => by
    simpa using (List.mem_filter.mp member).2

/-- The events of a full page inside its window, its last ledger held
back. -/
theorem Position.hold {stream done held page later : List EventResponse}
    {ledger last : Nat} (ordered : ChainOrdered stream)
    (position : Position stream done held (page ++ later) ledger)
    {final : EventResponse} (isLast : page.getLast? = some final)
    (lastLedger : final.ledger = last) :
    Position stream
      (done ++ (held ++ page).filter (·.ledger < last))
      ((held ++ page).filter (·.ledger = last)) later (last - 1) ∧
      ledger ≤ last - 1 ∧ 0 < last := by
  have member : final ∈ page := List.mem_of_getLast? isLast
  have beyond : ledger < last := lastLedger ▸
    position.rest final (List.mem_append_left _ member)
  obtain ⟨front, isPage⟩ := List.getLast?_eq_some_iff.mp isLast
  have sorted := ordered
  rw [position.split, isPage] at sorted
  have upTo : ∀ event ∈ held ++ page, event.ledger ≤ last := by
    intro event inside
    rw [isPage] at inside
    rcases List.mem_append.mp inside with kept | read
    · have next := position.held event kept
      omega
    · rcases List.mem_append.mp read with early | here
      · have before : ChainOrdered (front ++ [final]) :=
          (List.pairwise_append.mp
            (List.pairwise_append.mp sorted).2.1).1
        exact lastLedger ▸ (List.pairwise_append.mp before).2.2 event early
          final List.mem_cons_self
      · rw [List.mem_singleton.mp here, lastLedger]
  have ready : ChainOrdered (held ++ page) := by
    have whole := ordered
    rw [position.split, List.append_assoc, ← List.append_assoc held] at whole
    exact (List.pairwise_append.mp (List.pairwise_append.mp whole).2.1).1
  have below : (held ++ page).filter (·.ledger < last) =
      (held ++ page).filter (·.ledger ≤ last - 1) := by
    apply List.filter_congr
    intro event _
    rw [decide_eq_decide]
    omega
  have equal : (held ++ page).filter (·.ledger = last) =
      (held ++ page).filter (last - 1 < ·.ledger) := by
    apply List.filter_congr
    intro event inside
    have bound := upTo event inside
    rw [decide_eq_decide]
    omega
  refine ⟨⟨?_, ?_, ?_, ?_⟩, by omega, by omega⟩
  · have whole : (held ++ page).filter (·.ledger < last) ++
        (held ++ page).filter (·.ledger = last) = held ++ page := by
      rw [below, equal, ← ready.split (last - 1)]
    calc stream = done ++ (held ++ page) ++ later := by
          rw [position.split]
          simp
      _ = _ := by
          conv_lhs => rw [← whole]
          simp only [List.append_assoc]
  · intro event inside
    rcases List.mem_append.mp inside with old | read
    · have early := position.done event old
      omega
    · have early : event.ledger < last := by
        simpa using (List.mem_filter.mp read).2
      omega
  · intro event inside
    have same : event.ledger = last := by
      simpa using (List.mem_filter.mp inside).2
    omega
  · intro event inside
    rw [← isPage] at sorted
    have after := (List.pairwise_append.mp
      (List.pairwise_append.mp sorted).2.1).2.2 final member event inside
    omega

/-- A page read by a scan that stands at a position. -/
structure PageAdds (stream done : List EventResponse) (loop : ScanState)
    (page : Page) (read : PageRead) (later : List EventResponse) : Prop where
  position : Position stream (done ++ read.ready) read.held later
    (max loop.state.lastLedger read.reached)
  fresh : ∀ event ∈ read.ready, loop.state.lastLedger < event.ledger
  keeps : loop.held.length ≤ read.ready.length + read.held.length
  scanned : read.scanned = true → read.held = [] ∧
    read.reached = min loop.to page.latestLedger
  full : read.scanned = false → read.held ≠ [] ∧
    max loop.state.lastLedger read.reached + 1 ≤ loop.to ∧
    page.events.length = PAGE_LIMIT ∧
    read.ready.length + read.held.length = loop.held.length + PAGE_LIMIT

theorem ScanState.pageAdds {loop : ScanState} {page : Page}
    {stream done rest : List EventResponse} {stop : Nat}
    (ordered : ChainOrdered stream)
    (position : Position stream done loop.held rest loop.state.lastLedger)
    (events : page.events = nextEvents rest stop)
    (reaches : min loop.to page.latestLedger < stop)
    (bounded : stop ≤ page.latestLedger + 1)
    (ahead : loop.state.lastLedger < min loop.to page.latestLedger) :
    ∃ later, PageAdds stream done loop page (loop.read page) later := by
  have restOrdered : ChainOrdered rest :=
    (List.pairwise_append.mp (position.split ▸ ordered)).2.1
  unfold ScanState.read
  by_cases scanned : page.events.length < PAGE_LIMIT ∨
      (page.events.filter (·.ledger ≤ loop.to)).length < page.events.length
  · rw [if_pos scanned]
    have window : page.events.filter (·.ledger ≤ loop.to) =
        rest.filter (·.ledger ≤ min loop.to page.latestLedger) := by
      rw [events] at scanned ⊢
      exact filter_nextEvents restOrdered reaches bounded scanned
    refine ⟨rest.filter (min loop.to page.latestLedger < ·.ledger),
      ?_, ?_, by simp, fun _ => ⟨rfl, rfl⟩, fun never => nomatch never⟩
    · rw [Nat.max_eq_right (Nat.le_of_lt ahead), window]
      exact position.scan restOrdered ahead
    · intro event member
      rcases List.mem_append.mp member with kept | read
      · have next := position.held event kept
        omega
      · rw [window] at read
        exact position.rest event (List.mem_of_mem_filter read)
  · rw [if_neg scanned]
    rw [not_or, Nat.not_lt, Nat.not_lt] at scanned
    have inside : page.events.filter (·.ledger ≤ loop.to) = page.events :=
      List.filter_sublist.eq_of_length_le scanned.2
    have exactly : page.events.length = PAGE_LIMIT := by
      have atMost : page.events.length ≤ PAGE_LIMIT := by
        rw [events, nextEvents, List.length_take]
        exact Nat.min_le_left _ _
      exact Nat.le_antisymm atMost scanned.1
    obtain ⟨later, isRest⟩ := nextEvents_isPrefix rest stop
    rw [← events] at isRest
    cases isLast : page.events.getLast? with
    | none =>
        rw [List.getLast?_eq_none_iff] at isLast
        rw [isLast] at exactly
        cases exactly
    | some final =>
        have ready : (loop.held ++ page.events).getLast? = some final := by
          rw [List.getLast?_append, isLast]
          rfl
        rw [← isRest] at position
        obtain ⟨moved, grows, positive⟩ := position.hold ordered isLast rfl
        have isMax : max loop.state.lastLedger (final.ledger - 1) =
            final.ledger - 1 := Nat.max_eq_right grows
        have lengths := congrArg List.length
          (position.split.symm.trans moved.split)
        simp only [List.length_append, exactly] at lengths
        simp only [inside, ready, Option.map_some, Option.getD_some]
        refine ⟨later, ?_, ?_, ?_, fun never => (nomatch never),
          fun _ => ?_⟩
        · rw [isMax]
          exact moved
        · intro event member
          rcases List.mem_append.mp (List.mem_of_mem_filter member) with
            kept | read
          · have next := position.held event kept
            omega
          · exact position.rest event (List.mem_append_left _ read)
        · dsimp only
          omega
        · have member : final ∈ page.events := List.mem_of_getLast? isLast
          have inWindow : final.ledger ≤ loop.to := by
            rw [← inside] at member
            simpa using (List.mem_filter.mp member).2
          rw [isMax]
          refine ⟨?_, by omega, exactly, ?_⟩
          · exact List.ne_nil_of_mem (List.mem_filter.mpr
              ⟨List.mem_append_right _ member, by simp⟩)
          · dsimp only
            omega

/-- Ready events come with all others of their ledgers. -/
theorem PageAdds.whole {stream done rest later : List EventResponse}
    {loop : ScanState} {page : Page} {read : PageRead}
    (adds : PageAdds stream done loop page read later)
    (position : Position stream done loop.held rest loop.state.lastLedger)
    {event : EventResponse} (member : event ∈ read.ready) :
    read.ready.filter (·.ledger = event.ledger) =
      stream.filter (·.ledger = event.ledger) := by
  have fresh := adds.fresh event member
  have reached := adds.position.done event (List.mem_append_right _ member)
  have none : ∀ others : List EventResponse,
      (∀ other ∈ others, other.ledger ≠ event.ledger) →
      others.filter (·.ledger = event.ledger) = [] := by
    intro others apart
    rw [List.filter_eq_nil_iff]
    intro other inside
    simpa using apart other inside
  conv_rhs => rw [adds.position.split]
  simp only [List.filter_append]
  rw [none done, none read.held, none later]
  · simp
  · intro other inside
    have after := adds.position.rest other inside
    omega
  · intro other inside
    have after := adds.position.held other inside
    omega
  · intro other inside
    have before := position.done other inside
    omega

/-- The events up to the ledger reached are the ones done and ready. -/
theorem PageAdds.mem_ready {stream done rest later : List EventResponse}
    {loop : ScanState} {page : Page} {read : PageRead}
    (adds : PageAdds stream done loop page read later)
    (position : Position stream done loop.held rest loop.state.lastLedger)
    {event : EventResponse} (member : event ∈ stream)
    (above : loop.state.lastLedger < event.ledger)
    (below : event.ledger ≤ max loop.state.lastLedger read.reached) :
    event ∈ read.ready := by
  rw [adds.position.split] at member
  simp only [List.mem_append] at member
  rcases member with ((old | ready) | held) | later
  · have early := position.done event old
    omega
  · exact ready
  · have after := adds.position.held event held
    omega
  · have after := adds.position.rest event later
    omega

end Stellar8004.Indexer
