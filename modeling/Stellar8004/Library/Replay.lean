import Mathlib

/-!
# Checkpointed replay of an event list

A consumer folds a fixed event list into a state.  It may stop anywhere, and
its next attempt starts again from the last checkpoint it saved, which may lie
before the point it had reached.  The state comes to life by the first event;
if contiguous segments of the list are idempotent on living states, the
attempts converge: a consumer whose checkpoint has reached the end holds
exactly the state of one uninterrupted fold.
-/

namespace Replay

variable {ε σ : Type*}

/-! ## Segments -/

/-- The events at the positions `start, …, finish - 1`. -/
def segment (events : List ε) (start finish : Nat) : List ε :=
  (events.take finish).drop start

theorem segment_append (events : List ε) {start middle finish : Nat}
    (first : start ≤ middle) (second : middle ≤ finish) :
    segment events start middle ++ segment events middle finish =
      segment events start finish := by
  have split : events.take finish =
      events.take middle ++ (events.take finish).drop middle := by
    have taken : (events.take finish).take middle = events.take middle := by
      rw [List.take_take, Nat.min_eq_left second]
    rw [← taken, List.take_append_drop]
  unfold segment
  by_cases short : start ≤ (events.take middle).length
  · conv_rhs => rw [split]
    rw [List.drop_append_of_le_length short]
  · have exhausted : events.length ≤ middle := by
      rw [List.length_take] at short
      omega
    have beyond : events.length ≤ start := by
      rw [List.length_take] at short
      omega
    rw [List.take_of_length_le exhausted,
      List.take_of_length_le (exhausted.trans second),
      List.drop_eq_nil_of_le beyond,
      List.drop_eq_nil_of_le exhausted, List.nil_append]

theorem segment_isInfix (events : List ε) (start finish : Nat) :
    segment events start finish <:+: events :=
  ((List.drop_suffix _ _).isInfix).trans (List.take_prefix _ _).isInfix

@[simp] theorem segment_self (events : List ε) (position : Nat) :
    segment events position position = [] :=
  List.drop_eq_nil_of_le (List.length_take_le _ _)

/-- A beginning of a segment is a segment from the same start. -/
theorem eq_segment_of_prefix {events beginning : List ε} {start finish : Nat}
    (isPrefix : beginning <+: segment events start finish) :
    beginning = segment events start (start + beginning.length) := by
  have bound := isPrefix.length_le
  have length : (segment events start finish).length =
      min finish events.length - start := by
    simp [segment]
  rcases Nat.eq_zero_or_pos beginning.length with empty | positive
  · rw [empty, Nat.add_zero, segment_self]
    exact List.length_eq_zero_iff.mp empty
  · have within : start + beginning.length ≤ finish := by omega
    have taken := List.prefix_iff_eq_take.mp isPrefix
    unfold segment at taken ⊢
    rw [List.take_drop, List.take_take, Nat.min_eq_left within] at taken
    exact taken

@[simp] theorem segment_zero (events : List ε) (finish : Nat) :
    segment events 0 finish = events.take finish := rfl

/-! ## States that come to life -/

/-- A state that comes to life by one kind of event.  Before its birth nothing
else affects it, and a second birth changes nothing. -/
structure Births (step : σ → ε → σ) (alive : σ → Prop) (birth : ε → Prop) :
    Prop where
  stays : ∀ state event, alive state → alive (step state event)
  dormant : ∀ state event, ¬ alive state → ¬ birth event →
    step state event = state
  born : ∀ state event, ¬ alive state → birth event →
    alive (step state event)
  reborn : ∀ state event, alive state → birth event →
    step state event = state

/-- The first event of a history, if there is one, is a birth. -/
def Begins (birth : ε → Prop) (events : List ε) : Prop :=
  ∀ first rest, events = first :: rest → birth first

/-- Applying a contiguous segment of `events` twice in a row is the same as
applying it once, from every living state. -/
def SegmentIdempotent (step : σ → ε → σ) (alive : σ → Prop)
    (events : List ε) : Prop :=
  ∀ segment : List ε, segment <:+: events → ∀ state, alive state →
    segment.foldl step (segment.foldl step state) = segment.foldl step state

namespace Births

variable {step : σ → ε → σ} {alive : σ → Prop} {birth : ε → Prop}
  {events : List ε}

theorem foldl_stays (births : Births step alive birth) (events : List ε)
    {state : σ} (living : alive state) : alive (events.foldl step state) := by
  induction events generalizing state with
  | nil => exact living
  | cons event events induction =>
      exact induction (births.stays state event living)

/-- Births change no living state. -/
theorem foldl_reborn (births : Births step alive birth) (events : List ε)
    {state : σ} (living : alive state)
    (all : ∀ event ∈ events, birth event) :
    events.foldl step state = state := by
  induction events with
  | nil => rfl
  | cons event events induction =>
      rw [List.foldl_cons,
        births.reborn state event living (all event List.mem_cons_self)]
      exact induction fun other member =>
        all other (List.mem_cons_of_mem _ member)

/-- A nonempty beginning of a history leaves a living state. -/
theorem foldl_take_alive (births : Births step alive birth)
    (begins : Begins birth events) (nonempty : events ≠ [])
    {finish : Nat} (positive : 0 < finish) (state : σ) :
    alive ((events.take finish).foldl step state) := by
  cases events with
  | nil => exact absurd rfl nonempty
  | cons first rest =>
      cases finish with
      | zero => exact absurd positive (Nat.lt_irrefl 0)
      | succ finish =>
          rw [List.take_succ_cons, List.foldl_cons]
          apply births.foldl_stays
          by_cases living : alive state
          · exact births.stays state first living
          · exact births.born state first living (begins first rest rfl)

/-- A beginning of a history is idempotent from every state. -/
theorem foldl_take_idempotent (births : Births step alive birth)
    (begins : Begins birth events)
    (settled : SegmentIdempotent step alive events) (finish : Nat)
    (state : σ) :
    (events.take finish).foldl step ((events.take finish).foldl step state) =
      (events.take finish).foldl step state := by
  by_cases living : alive state
  · exact settled _ (List.take_prefix _ _).isInfix state living
  · cases events with
    | nil => simp
    | cons first rest =>
        cases finish with
        | zero => rfl
        | succ finish =>
            have isBirth := begins first rest rfl
            have born := births.born state first living isBirth
            have restInfix : rest.take finish <:+: first :: rest :=
              (List.take_prefix _ _).isInfix.trans
                (List.suffix_cons first rest).isInfix
            rw [List.take_succ_cons, List.foldl_cons, List.foldl_cons,
              births.reborn _ first
                (births.foldl_stays (rest.take finish) born) isBirth]
            exact settled _ restInfix _ born

/-- Applying the end of a history again changes nothing. -/
theorem foldl_drop_again (births : Births step alive birth)
    (begins : Begins birth events)
    (settled : SegmentIdempotent step alive events) (start : Nat)
    (state : σ) :
    (events.drop start).foldl step (events.foldl step state) =
      events.foldl step state := by
  by_cases empty : events = []
  · subst empty
    simp
  · cases start with
    | zero =>
        have whole := births.foldl_take_idempotent begins settled
          events.length state
        rwa [List.take_length] at whole
    | succ start =>
        have living := births.foldl_take_alive begins empty
          (Nat.succ_pos start) state
        have split : events.foldl step state =
            (events.drop (start + 1)).foldl step
              ((events.take (start + 1)).foldl step state) := by
          rw [← List.foldl_append, List.take_append_drop]
        rw [split]
        exact settled _ (List.drop_suffix _ _).isInfix _ living

end Births

/-! ## Attempts -/

/-- States a checkpointed consumer can be in.  `checkpoint` is the position
its next attempt starts from and `furthest` the last position any attempt has
reached.  An attempt may end anywhere at or after its start, and may save any
checkpoint it has passed, or none. -/
inductive Reached (step : σ → ε → σ) (events : List ε) (initial : σ) :
    Nat → Nat → σ → Prop where
  | start : Reached step events initial 0 0 initial
  | attempt {checkpoint furthest : Nat} {state : σ}
      (prior : Reached step events initial checkpoint furthest state)
      (finish saved : Nat)
      (forward : checkpoint ≤ saved) (passed : saved ≤ finish) :
      Reached step events initial saved (max furthest finish)
        ((segment events checkpoint finish).foldl step state)

namespace Reached

variable {step : σ → ε → σ} {events : List ε} {initial : σ}
  {checkpoint furthest : Nat} {state : σ}

theorem checkpoint_le
    (reached : Reached step events initial checkpoint furthest state) :
    checkpoint ≤ furthest := by
  induction reached with
  | start => exact Nat.le_refl 0
  | attempt _ finish saved _ passed _ =>
      exact passed.trans (Nat.le_max_right _ _)

/-- A consumer that has applied an event holds a living state. -/
theorem alive_of_pos {alive : σ → Prop} {birth : ε → Prop}
    (reached : Reached step events initial checkpoint furthest state)
    (births : Births step alive birth) (begins : Begins birth events)
    (nonempty : events ≠ []) (positive : 0 < furthest) : alive state := by
  induction reached with
  | start => exact absurd positive (Nat.lt_irrefl 0)
  | @attempt checkpoint furthest state prior finish saved forward passed
      induction =>
      by_cases advanced : 0 < furthest
      · exact births.foldl_stays _ (induction advanced)
      · have origin : checkpoint = 0 := by
          have bound := prior.checkpoint_le
          omega
        have moved : 0 < finish := by
          rcases Nat.lt_or_ge 0 finish with moved | stuck
          · exact moved
          · exact absurd (Nat.max_le.mpr
              ⟨Nat.not_lt.mp advanced, stuck⟩) (Nat.not_le.mpr positive)
        rw [origin]
        exact births.foldl_take_alive begins nonempty moved state

/-- Replaying from the checkpoint to the furthest position any attempt has
reached restores the state of the uninterrupted fold up to there. -/
theorem settles {alive : σ → Prop} {birth : ε → Prop}
    (reached : Reached step events initial checkpoint furthest state)
    (births : Births step alive birth) (begins : Begins birth events)
    (settled : SegmentIdempotent step alive events) :
    (segment events checkpoint furthest).foldl step state =
      (events.take furthest).foldl step initial := by
  induction reached with
  | start => simp
  | @attempt checkpoint furthest state prior finish saved forward passed
      induction =>
      have again :
          (segment events saved finish).foldl step
              ((segment events checkpoint finish).foldl step state) =
            (segment events checkpoint finish).foldl step state := by
        by_cases empty : events = []
        · subst empty
          simp [segment]
        rcases Nat.eq_zero_or_pos saved with origin | moved
        · have same : checkpoint = 0 := Nat.le_zero.mp (origin ▸ forward)
          rw [origin, same]
          exact births.foldl_take_idempotent begins settled finish state
        · rw [← segment_append events forward passed, List.foldl_append]
          apply settled _ (segment_isInfix events saved finish)
          rcases Nat.eq_zero_or_pos checkpoint with first | later
          · rw [first]
            exact births.foldl_take_alive begins empty moved state
          · exact births.foldl_stays _ (prior.alive_of_pos births begins empty
              (later.trans_le prior.checkpoint_le))
      have startBound : checkpoint ≤ finish := forward.trans passed
      have priorBound : checkpoint ≤ furthest := prior.checkpoint_le
      rcases Nat.le_total furthest finish with extended | stopped
      · rw [Nat.max_eq_right extended, again,
          ← segment_append events priorBound extended, List.foldl_append,
          induction, ← List.foldl_append, ← segment_zero events furthest,
          segment_append events (Nat.zero_le furthest) extended, segment_zero]
      · rw [Nat.max_eq_left stopped,
          ← segment_append events passed stopped, List.foldl_append, again,
          ← List.foldl_append, segment_append events startBound stopped,
          induction]

/-- Once the checkpoint has passed every event, the state is that of one
uninterrupted fold. -/
theorem converges {alive : σ → Prop} {birth : ε → Prop}
    (reached : Reached step events initial checkpoint furthest state)
    (births : Births step alive birth) (begins : Begins birth events)
    (settled : SegmentIdempotent step alive events)
    (complete : events.length ≤ checkpoint) :
    state = events.foldl step initial := by
  have replayed := reached.settles births begins settled
  have finished : events.length ≤ furthest :=
    complete.trans reached.checkpoint_le
  rw [List.take_of_length_le finished] at replayed
  have nothing : segment events checkpoint furthest = [] := by
    unfold segment
    rw [List.take_of_length_le finished]
    exact List.drop_eq_nil_of_le complete
  simpa [nothing] using replayed

end Reached

/-! ## Stamped lists -/

/-- The number of events stamped at or below a bound. -/
def position (stamp : ε → Nat) (events : List ε) (bound : Nat) : Nat :=
  events.countP fun event => stamp event ≤ bound

section

variable {stamp : ε → Nat} {events : List ε}

theorem position_mono {low high : Nat} (ordered : low ≤ high) :
    position stamp events low ≤ position stamp events high := by
  apply List.countP_mono_left
  intro event _ below
  simp only [decide_eq_true_eq] at below ⊢
  exact below.trans ordered

/-- In a list ordered by stamp, the events up to a bound come first. -/
theorem take_position (bound : Nat)
    (sorted : events.Pairwise fun left right => stamp left ≤ stamp right) :
    events.take (position stamp events bound) =
      events.filter fun event => stamp event ≤ bound := by
  induction events with
  | nil => rfl
  | cons event events induction =>
      have bounds := List.pairwise_cons.mp sorted
      by_cases below : stamp event ≤ bound
      · simpa [position, List.countP_cons, below] using induction bounds.2
      · have none : ∀ other ∈ events, ¬ stamp other ≤ bound := by
          intro other member lower
          exact below ((bounds.1 other member).trans lower)
        have empty : events.filter (fun event => stamp event ≤ bound) = [] :=
          List.filter_eq_nil_iff.mpr (by simpa using none)
        have zero : position stamp events bound = 0 :=
          List.countP_eq_zero.mpr (by simpa using none)
        rw [List.filter_cons_of_neg (by simpa using below), empty]
        have shape : position stamp (event :: events) bound = 0 := by
          simpa [position, List.countP_cons, below] using zero
        rw [shape, List.take_zero]

variable (stamp events) in
theorem position_le_length (bound : Nat) :
    position stamp events bound ≤ events.length :=
  List.countP_le_length

/-- In a list ordered by stamp, the events in a range are a segment. -/
theorem segment_position {low high : Nat} (ordered : low ≤ high)
    (sorted : events.Pairwise fun left right => stamp left ≤ stamp right) :
    segment events (position stamp events low)
        (position stamp events high) =
      events.filter fun event =>
        low < stamp event && stamp event ≤ high := by
  have whole : events.filter (fun event => stamp event ≤ high) =
      events.filter (fun event => stamp event ≤ low) ++
        events.filter (fun event =>
          low < stamp event && stamp event ≤ high) := by
    induction events with
    | nil => rfl
    | cons event events induction =>
        have bounds := List.pairwise_cons.mp sorted
        have rest := induction bounds.2
        by_cases below : stamp event ≤ low
        · have within : stamp event ≤ high := below.trans ordered
          simp [below, within, rest]
        · have none : events.filter (fun event => stamp event ≤ low) = [] := by
            apply List.filter_eq_nil_iff.mpr
            intro other member lower
            exact below ((bounds.1 other member).trans
              (of_decide_eq_true lower))
          rw [none, List.nil_append] at rest
          by_cases within : stamp event ≤ high
          · simp [below, within, rest, none, Nat.not_le.mp below]
          · simp [below, within, rest, none]
  have length : position stamp events low =
      (events.filter fun event => stamp event ≤ low).length :=
    List.countP_eq_length_filter
  unfold segment
  rw [take_position high sorted, whole, length, List.drop_left]

/-- Where the events of a range beyond `front` are stamped above a bound, the
bound's position lies within `front`. -/
theorem position_le_of_front {low bound high : Nat} {front back : List ε}
    (above : low ≤ bound) (below : bound ≤ high)
    (sorted : events.Pairwise fun left right => stamp left ≤ stamp right)
    (range : segment events (position stamp events low)
      (position stamp events high) = front ++ back)
    (later : ∀ event ∈ back, bound < stamp event) :
    position stamp events bound ≤
      position stamp events low + front.length := by
  have narrowed : segment events (position stamp events low)
      (position stamp events bound) =
        front.filter fun event => stamp event ≤ bound := by
    have dropped : back.filter (fun event => stamp event ≤ bound) = [] := by
      apply List.filter_eq_nil_iff.mpr
      intro event member
      simpa using later event member
    have selected : events.filter
        (fun event => low < stamp event && stamp event ≤ bound) =
          (events.filter fun event =>
            low < stamp event && stamp event ≤ high).filter
              fun event => stamp event ≤ bound := by
      rw [List.filter_filter]
      apply List.filter_congr
      intro event _
      by_cases within : stamp event ≤ bound
      · simp [within, within.trans below]
      · simp [within]
    rw [segment_position above sorted, selected,
      ← segment_position (above.trans below) sorted, range,
      List.filter_append, dropped, List.append_nil]
  have length : (segment events (position stamp events low)
      (position stamp events bound)).length =
        position stamp events bound - position stamp events low := by
    have inside := position_le_length stamp events bound
    simp only [segment, List.length_drop, List.length_take]
    omega
  have shorter := List.length_filter_le
    (fun event => decide (stamp event ≤ bound)) front
  rw [← narrowed, length] at shorter
  omega

/-- Every list with a member has a last one. -/
theorem exists_getLast {event : ε} (member : event ∈ events) :
    ∃ last, events.getLast? = some last := by
  cases found : events.getLast? with
  | none =>
      rw [List.getLast?_eq_none_iff.mp found] at member
      cases member
  | some last => exact ⟨last, rfl⟩

/-- A member of an ordered list does not come after the last one. -/
theorem le_getLast (stamp : ε → Nat) {event last : ε}
    (ordered : events.Pairwise fun left right => stamp left ≤ stamp right)
    (member : event ∈ events) (isLast : events.getLast? = some last) :
    stamp event ≤ stamp last := by
  obtain ⟨front, rfl⟩ := List.getLast?_eq_some_iff.mp isLast
  rcases List.mem_append.mp member with early | here
  · exact (List.pairwise_append.mp ordered).2.2 event early last
      List.mem_cons_self
  · rw [List.mem_singleton.mp here]

end

end Replay
