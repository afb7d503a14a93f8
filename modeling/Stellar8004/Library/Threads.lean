import Stellar8004.Library.Program

/-!
# Programs that share a state

Any number of programs ask one host.  Their requests are served one at a time,
in any order, and change the host's state; between two requests the state may
move by itself.  A program that was killed asks nothing any more.
-/

/-- The exchanges of one thread in a log of all. -/
def ofThread {ι : Type*} [DecidableEq ι] {host : Interface} (thread : ι)
    (log : List (ι × Exchange host)) : List (Exchange host) :=
  log.filterMap fun entry =>
    if entry.1 = thread then some entry.2 else none

theorem mem_of_mem_ofThread {ι : Type*} [DecidableEq ι] {host : Interface}
    {thread : ι} {log : List (ι × Exchange host)} {exchange : Exchange host}
    (member : exchange ∈ ofThread thread log) : (thread, exchange) ∈ log := by
  obtain ⟨⟨other, found⟩, inside, isFound⟩ := List.mem_filterMap.mp member
  simp only [Option.ite_none_right_eq_some, Option.some.injEq] at isFound
  obtain ⟨rfl, rfl⟩ := isFound
  exact inside

theorem mem_ofThread {ι : Type*} [DecidableEq ι] {host : Interface}
    {thread : ι} {log : List (ι × Exchange host)} {exchange : Exchange host}
    (member : (thread, exchange) ∈ log) : exchange ∈ ofThread thread log :=
  List.mem_filterMap.mpr ⟨(thread, exchange), member, if_pos rfl⟩

/-- The logs of all exchanges so far and the states they lead to.  What a
thread asks follows from its program and its own exchanges. -/
inductive Interleaved {ι σ : Type*} {α : Type} [DecidableEq ι]
    {host : Interface}
    (programs : ι → Program host α)
    (serves : σ → Exchange host → σ → Prop) (moves : σ → σ → Prop)
    (start : σ) : List (ι × Exchange host) → σ → Prop where
  | start : Interleaved programs serves moves start [] start
  | exchanged {log : List (ι × Exchange host)} {state after : σ}
      (earlier : Interleaved programs serves moves start log state)
      (thread : ι) (exchange : Exchange host)
      (asked : (programs thread).Yields (ofThread thread log ++ [exchange])
        none)
      (served : serves state exchange after) :
      Interleaved programs serves moves start (log ++ [(thread, exchange)])
        after
  | moved {log : List (ι × Exchange host)} {state after : σ}
      (earlier : Interleaved programs serves moves start log state)
      (moved : moves state after) :
      Interleaved programs serves moves start log after

/-- Exchanges that are served one after another. -/
inductive Served {σ : Type*} {host : Interface}
    (serves : σ → Exchange host → σ → Prop) :
    σ → List (Exchange host) → σ → Prop where
  | nil (state : σ) : Served serves state [] state
  | cons {state middle after : σ} {exchange : Exchange host}
      {trace : List (Exchange host)}
      (first : serves state exchange middle)
      (rest : Served serves middle trace after) :
      Served serves state (exchange :: trace) after

section

variable {ι σ : Type*} {α : Type} [DecidableEq ι] {host : Interface}
  {programs : ι → Program host α} {serves : σ → Exchange host → σ → Prop}
  {moves : σ → σ → Prop} {start state : σ} {log : List (ι × Exchange host)}

/-- What one thread goes on to exchange. -/
theorem Interleaved.extend {trace : List (Exchange host)} {after : σ}
    (run : Interleaved programs serves moves start log state) (thread : ι)
    (yields : (programs thread).Yields (ofThread thread log ++ trace) none)
    (served : Served serves state trace after) :
    Interleaved programs serves moves start
      (log ++ trace.map fun exchange => (thread, exchange)) after := by
  induction served generalizing log with
  | nil state =>
      rw [List.map_nil, List.append_nil]
      exact run
  | @cons state middle after exchange trace first rest induction =>
      have split : ofThread thread log ++ exchange :: trace =
        ofThread thread (log ++ [(thread, exchange)]) ++ trace := by
          simp [ofThread]
      have asked : (programs thread).Yields
          (ofThread thread log ++ [exchange]) none := by
        rw [← List.singleton_append, ← List.append_assoc] at yields
        exact yields.of_append
      rw [split] at yields
      have extended := induction (run.exchanged thread exchange asked first)
        yields
      rw [List.append_assoc] at extended
      exact extended

theorem Interleaved.allowed {allows : Exchange host → Prop}
    (admitted : ∀ {state exchange after}, serves state exchange after →
      allows exchange)
    (run : Interleaved programs serves moves start log state) :
    ∀ entry ∈ log, allows entry.2 := by
  induction run with
  | start => exact fun _ member => nomatch member
  | exchanged earlier thread exchange asked served induction =>
      intro entry member
      rcases List.mem_append.mp member with old | new
      · exact induction entry old
      · cases List.mem_singleton.mp new
        exact admitted served
  | moved earlier isMove induction => exact induction

/-- What a thread asks next is what its program permits. -/
theorem Interleaved.permitted {allows : Exchange host → Prop}
    {thread : ι} {permits : List (Exchange host) → Exchange host → Prop}
    (ensures : (programs thread).Ensures (fun _ => allows) permits []
      fun _ _ => True)
    (admitted : ∀ {state exchange after}, serves state exchange after →
      allows exchange)
    (run : Interleaved programs serves moves start log state)
    {exchange : Exchange host} {after : σ}
    (asked : (programs thread).Yields (ofThread thread log ++ [exchange])
      none)
    (served : serves state exchange after) :
    permits (ofThread thread log) exchange := by
  have earlier : ∀ entry ∈ log, allows entry.2 := run.allowed admitted
  have all : ∀ other ∈ ofThread thread log ++ [exchange], allows other := by
    intro other member
    rcases List.mem_append.mp member with old | new
    · exact earlier _ (mem_of_mem_ofThread old)
    · cases List.mem_singleton.mp new
      exact admitted served
  have along := ensures.along asked
    (Program.along_of_forall_mem fun _ => all)
  have permitted := along.at
  rwa [List.nil_append] at permitted

/-- The rule of invariants.  Of each thread only what its program permits it to
exchange has to be known. -/
theorem Interleaved.invariant {allows : Exchange host → Prop}
    (permits : ι → List (Exchange host) → Exchange host → Prop)
    (ensures : ∀ thread, (programs thread).Ensures (fun _ => allows)
      (permits thread) [] fun _ _ => True)
    (admitted : ∀ {state exchange after}, serves state exchange after →
      allows exchange)
    (Holds : List (ι × Exchange host) → σ → Prop)
    (initially : Holds [] start)
    (exchanged : ∀ {log state after thread exchange}, Holds log state →
      permits thread (ofThread thread log) exchange →
        serves state exchange after →
          Holds (log ++ [(thread, exchange)]) after)
    (moved : ∀ {log state after}, Holds log state → moves state after →
      Holds log after)
    (run : Interleaved programs serves moves start log state) :
    Holds log state := by
  induction run with
  | start => exact initially
  | exchanged earlier thread exchange asked served induction =>
      have permitted := earlier.permitted (ensures thread) admitted asked
        served
      exact exchanged induction permitted served
  | moved earlier isMove induction => exact moved induction isMove

end

/-! ## One after another -/

/-- Programs that run one after another, each killed anywhere: the exchanges
of the earlier runs, the latest run and its exchanges, and the state they
lead to. -/
inductive Successive {ι σ : Type*} {α : Type} {host : Interface}
    (programs : ι → Program host α)
    (serves : σ → Exchange host → σ → Prop) (start : σ) :
    List (Exchange host) → ι → List (Exchange host) → σ → Prop where
  | first (run : ι) : Successive programs serves start [] run [] start
  | next {past current : List (Exchange host)} {run : ι} {state : σ}
      (earlier : Successive programs serves start past run current state)
      (later : ι) :
      Successive programs serves start (past ++ current) later [] state
  | exchanged {past current : List (Exchange host)} {run : ι}
      {state after : σ}
      (earlier : Successive programs serves start past run current state)
      (exchange : Exchange host)
      (asked : (programs run).Yields (current ++ [exchange]) none)
      (served : serves state exchange after) :
      Successive programs serves start past run (current ++ [exchange]) after

section

variable {ι σ : Type*} {α : Type} {host : Interface}
  {programs : ι → Program host α} {serves : σ → Exchange host → σ → Prop}
  {start state : σ} {past current : List (Exchange host)} {run : ι}

/-- What a run goes on to exchange. -/
theorem Successive.extend {trace : List (Exchange host)} {after : σ}
    (runs : Successive programs serves start past run current state)
    (yields : (programs run).Yields (current ++ trace) none)
    (served : Served serves state trace after) :
    Successive programs serves start past run (current ++ trace) after := by
  induction served generalizing current with
  | nil state =>
      rw [List.append_nil]
      exact runs
  | @cons state middle after exchange trace first rest induction =>
      have split : current ++ exchange :: trace =
        (current ++ [exchange]) ++ trace := by simp
      rw [split] at yields ⊢
      exact induction (runs.exchanged exchange yields.of_append first) yields

theorem Successive.allowed {allows : Exchange host → Prop}
    (admitted : ∀ {state exchange after}, serves state exchange after →
      allows exchange)
    (runs : Successive programs serves start past run current state) :
    ∀ exchange ∈ current, allows exchange := by
  induction runs with
  | first run => exact fun _ member => nomatch member
  | next earlier later induction => exact fun _ member => nomatch member
  | exchanged earlier exchange asked served induction =>
      intro other member
      rcases List.mem_append.mp member with old | new
      · exact induction other old
      · cases List.mem_singleton.mp new
        exact admitted served

/-- What a run asks next is what its program permits. -/
theorem Successive.permitted {allows : Exchange host → Prop}
    {permits : List (Exchange host) → Exchange host → Prop}
    (ensures : (programs run).Ensures (fun _ => allows) permits []
      fun _ _ => True)
    (admitted : ∀ {state exchange after}, serves state exchange after →
      allows exchange)
    (runs : Successive programs serves start past run current state)
    {exchange : Exchange host} {after : σ}
    (asked : (programs run).Yields (current ++ [exchange]) none)
    (served : serves state exchange after) : permits current exchange := by
  have all : ∀ other ∈ current ++ [exchange], allows other :=
    (runs.exchanged exchange asked served).allowed admitted
  have along := ensures.along asked
    (Program.along_of_forall_mem fun _ => all)
  have permitted := along.at
  rwa [List.nil_append] at permitted

/-- The rule of invariants.  Of each run only what its program permits it to
exchange has to be known. -/
theorem Successive.invariant {allows : Exchange host → Prop}
    (permits : ι → List (Exchange host) → Exchange host → Prop)
    (ensures : ∀ run, (programs run).Ensures (fun _ => allows) (permits run)
      [] fun _ _ => True)
    (admitted : ∀ {state exchange after}, serves state exchange after →
      allows exchange)
    (Holds : List (Exchange host) → List (Exchange host) → σ → Prop)
    (initially : Holds [] [] start)
    (next : ∀ {past current state}, Holds past current state →
      Holds (past ++ current) [] state)
    (exchanged : ∀ {past current state after run exchange},
      Holds past current state → permits run current exchange →
        serves state exchange after →
          Holds past (current ++ [exchange]) after)
    (runs : Successive programs serves start past run current state) :
    Holds past current state := by
  induction runs with
  | first run => exact initially
  | next earlier later induction => exact next induction
  | exchanged earlier exchange asked served induction =>
      have permitted := earlier.permitted (ensures _) admitted asked served
      exact exchanged induction permitted served

end
