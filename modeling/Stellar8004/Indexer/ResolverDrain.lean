import Stellar8004.Indexer.ResolverBackoff
import Stellar8004.Library.Stateful

/-!
# The queue of the resolver drains

Runs of `resolvePending` that nothing disturbs, while no URI changes: each
tries the first twenty agents in the queue, so after enough of them every agent
has its document or all its tries.
-/

namespace Stellar8004.Indexer

open Program

namespace Resolver

/-! ## Undisturbed runs -/

/-- A row whose document is sought. -/
def Waiting (row : AgentRow) : Prop :=
  row.resolveUriPending = true ∧ row.agentUriData = none ∧
    (∃ uri, row.agentUri = some uri ∧ uri ≠ "") ∧
    row.uriResolveAttempts < MAX_ATTEMPTS

/-- The selection is answered when every waiting row is due, the tries are
recorded and the deadline is not reached. -/
def Undisturbed (waited : String → String → Nat → Bool) (tables : Tables) :
    Exchange resolverHost → Prop
  | ⟨.inTime, before⟩ => before = true
  | ⟨.selectPending now, answer⟩ =>
      (∃ agents, answer = .ok agents) ∧
        ∀ id row, tables.agents id = some row → Waiting row →
          IsPending waited now row
  | ⟨.recordTries _ _, reply⟩ => reply = .answered ()
  | _ => True

def ServesUndisturbed (waited : String → String → Nat → Bool)
    (tables : Tables) (exchange : Exchange resolverHost) (after : Tables) :
    Prop :=
  Serves waited tables exchange after ∧ Undisturbed waited tables exchange

/-! ## What is done to the agents of a list -/

/-- The rows of the agents change as `change` says and keep their URIs; all
others stay. -/
structure Changes (change : PendingAgent → AgentRow → AgentRow → Prop)
    (agents : List PendingAgent) (before after : Tables) : Prop where
  others : ∀ id, id ∉ agents.map PendingAgent.id →
    after.agents id = before.agents id
  each : ∀ agent ∈ agents, ∀ row, before.agents agent.id = some row →
    row.agentUri = some agent.agentUri →
    ∃ later, after.agents agent.id = some later ∧
      later.agentUri = row.agentUri ∧ change agent row later

section

variable {change : PendingAgent → AgentRow → AgentRow → Prop}
  {agents rest : List PendingAgent} {before middle after : Tables}

theorem Changes.nil : Changes change [] before before where
  others _ _ := rfl
  each _ member := nomatch member

theorem Changes.append (first : Changes change agents before middle)
    (second : Changes change rest middle after)
    (distinct : ((agents ++ rest).map PendingAgent.id).Nodup) :
    Changes change (agents ++ rest) before after := by
  rw [List.map_append, List.nodup_append] at distinct
  constructor
  · intro id outside
    rw [List.map_append, List.mem_append, not_or] at outside
    rw [second.others id outside.2, first.others id outside.1]
  · intro agent member row found isUri
    rcases List.mem_append.mp member with early | late
    · obtain ⟨later, isLater, changed⟩ := first.each agent early row found isUri
      refine ⟨later, ?_, changed⟩
      rw [second.others agent.id ?_, isLater]
      intro again
      exact distinct.2.2 _ (List.mem_map_of_mem early) _ again rfl
    · apply second.each agent late row ?_ isUri
      rw [first.others agent.id ?_, found]
      intro again
      exact distinct.2.2 _ again _ (List.mem_map_of_mem late) rfl

theorem Changes.trans
    {next both : PendingAgent → AgentRow → AgentRow → Prop}
    (first : Changes change agents before middle)
    (second : Changes next agents middle after)
    (compose : ∀ agent row between later, change agent row between →
      next agent between later → both agent row later) :
    Changes both agents before after := by
  constructor
  · intro id outside
    rw [second.others id outside, first.others id outside]
  · intro agent member row found isUri
    obtain ⟨between, isBetween, same, changed⟩ :=
      first.each agent member row found isUri
    obtain ⟨later, isLater, still, again⟩ :=
      second.each agent member between isBetween (same.trans isUri)
    exact ⟨later, isLater, still.trans same,
      compose agent row between later changed again⟩

end

/-! ## A round -/

/-- A document has been stored, or nothing has happened. -/
def MayStore (_ : PendingAgent) (row later : AgentRow) : Prop :=
  later = row ∨ later.agentUriData ≠ none

/-- A try has been recorded. -/
def Records (agent : PendingAgent) (row later : AgentRow) : Prop :=
  ∃ triedAt, later = triedRow agent triedAt row

/-- The agent has a document, or one try more. -/
def Tries (agent : PendingAgent) (row later : AgentRow) : Prop :=
  later.agentUriData ≠ none ∨ ∃ triedAt, later = triedRow agent triedAt row

section

variable {waited : String → String → Nat → Bool} {tables : Tables}

theorem recordTries_changes {triedAt : String} {round : List PendingAgent}
    (distinct : (round.map PendingAgent.id).Nodup) :
    Changes Records round tables
      (round.foldl (recordTry triedAt) tables) := by
  constructor
  · intro id outside
    exact recordTries_other outside
  · intro agent member row found isUri
    exact ⟨_, recordTries_mine distinct member found isUri, rfl, triedAt, rfl⟩

theorem storeColumns_changes (agent : PendingAgent)
    (columns : StoredDocument) (now : String) :
    Changes MayStore [agent] tables
      (storeColumns agent columns now tables).1 := by
  constructor
  · intro id outside
    apply storeColumns_other
    intro same
    exact outside (List.mem_singleton.mpr same.symm)
  · intro other member row found isUri
    obtain rfl := List.mem_singleton.mp member
    unfold storeColumns
    rw [found]
    simp only [if_pos isUri]
    refine ⟨_, Function.update_self _ _ _, rfl, .inr ?_⟩
    exact Option.some_ne_none _

theorem Changes.same (agents : List PendingAgent) :
    Changes MayStore agents tables tables where
  others _ _ := rfl
  each _ _ row found _ := ⟨row, found, rfl, .inl rfl⟩

theorem fetchAll_leads (round : List PendingAgent) :
    (fetchAll round).Leads (ServesUndisturbed waited) tables
      fun final after => after = tables ∧
        ∃ documents, final = .returned documents ∧
          documents.map Prod.fst = round := by
  induction round with
  | nil => exact ⟨rfl, [], rfl, rfl⟩
  | cons agent round induction =>
      rw [fetchAll, bind_eq, call_bind]
      intro (fetched : Fetched) after served
      obtain ⟨served, _⟩ := served
      cases served
      apply induction.bind
      · rintro rest later ⟨same, documents, isRest, listed⟩
        cases isRest
        exact ⟨same, _, rfl, congrArg _ listed⟩
      · rintro error later ⟨_, _, impossible, _⟩
        cases impossible
      · rintro later ⟨_, _, impossible, _⟩
        cases impossible

theorem store_leads (agent : PendingAgent) (fetched : Fetched)
    (now : String) :
    (store agent fetched now).Leads (ServesUndisturbed waited) tables
      fun final after => (∃ stored, final = .returned stored) ∧
        Changes MayStore [agent] tables after := by
  unfold store
  split
  · exact ⟨⟨_, rfl⟩, Changes.same _⟩
  · exact ⟨⟨_, rfl⟩, Changes.same _⟩
  · exact ⟨⟨_, rfl⟩, Changes.same _⟩
  · dsimp only
    split
    · exact ⟨⟨_, rfl⟩, Changes.same _⟩
    · rw [bind_eq, call_bind]
      intro (reply : Reply Nat) after served
      have changed : Changes MayStore [agent] tables after := by
        obtain ⟨served, _⟩ := served
        cases served with
        | stored => exact storeColumns_changes _ _ _
        | storeFailed => exact Changes.same _
        | storeLost => exact storeColumns_changes _ _ _
      cases answer : reply.result with
      | ok changes =>
          simp only [answer]
          exact ⟨⟨_, rfl⟩, changed⟩
      | error error =>
          simp only [answer]
          exact ⟨⟨_, rfl⟩, changed⟩

theorem storeAll_leads {documents : List (PendingAgent × Fetched)}
    (distinct : ((documents.map Prod.fst).map PendingAgent.id).Nodup)
    (result : ResolveResult) :
    (storeAll documents result).Leads (ServesUndisturbed waited) tables
      fun final after => (∃ result, final = .returned result) ∧
        Changes MayStore (documents.map Prod.fst) tables after := by
  induction documents generalizing tables result with
  | nil => exact ⟨⟨_, rfl⟩, .nil⟩
  | cons entry documents induction =>
      obtain ⟨agent, fetched⟩ := entry
      have others := (List.nodup_cons.mp distinct).2
      rw [storeAll, bind_eq, call_bind]
      intro (now : String) after served
      obtain ⟨served, _⟩ := served
      cases served
      apply (store_leads agent fetched now).bind
      · rintro stored middle ⟨_, first⟩
        have rest : ∀ result, (storeAll documents result).Leads
            (ServesUndisturbed waited) middle fun final after =>
              (∃ result, final = .returned result) ∧
                Changes MayStore (agent :: documents.map Prod.fst) tables
                  after := by
          intro result
          apply (induction others result).mono
          rintro final after ⟨returned, second⟩
          exact ⟨returned, first.append second distinct⟩
        dsimp only
        split
        · exact rest _
        · split
          · exact rest _
          · exact rest _
      · rintro error later ⟨⟨_, impossible⟩, _⟩
        cases impossible
      · rintro later ⟨⟨_, impossible⟩, _⟩
        cases impossible

theorem resolveRounds_leads (rounds : Nat) {left : List PendingAgent}
    (enough : left.length ≤ rounds)
    (distinct : (left.map PendingAgent.id).Nodup) (result : ResolveResult) :
    (resolveRounds rounds left result).Leads (ServesUndisturbed waited)
      tables fun final after => (∃ result, final = .returned result) ∧
        Changes Tries left tables after := by
  induction rounds generalizing left tables result with
  | zero =>
      obtain rfl := List.eq_nil_of_length_eq_zero (Nat.le_zero.mp enough)
      exact ⟨⟨_, rfl⟩, .nil⟩
  | succ rounds induction =>
      unfold resolveRounds
      split
      · rename_i none
        subst none
        exact ⟨⟨_, rfl⟩, .nil⟩
      rw [bind_eq, call_bind]
      intro (inTime : Bool) after served
      obtain ⟨served, early⟩ := served
      obtain rfl : inTime = true := early
      cases served
      dsimp only
      rw [if_pos rfl, bind_eq, call_bind]
      intro (triedAt : String) after served
      obtain ⟨served, _⟩ := served
      cases served
      dsimp only
      rw [bind_eq, call_bind]
      intro (reply : Reply Unit) after served
      obtain ⟨served, isReply⟩ := served
      obtain rfl : reply = .answered () := isReply
      cases served
      rw [← List.take_append_drop CONCURRENCY left] at distinct
      have halves := distinct
      rw [List.map_append, List.nodup_append] at halves
      have recorded : Changes Records (left.take CONCURRENCY) tables
          ((left.take CONCURRENCY).foldl (recordTry triedAt) tables) :=
        recordTries_changes halves.1
      apply (fetchAll_leads (left.take CONCURRENCY)).bind
      · rintro documents middle ⟨rfl, _, ⟨⟩, listed⟩
        apply (storeAll_leads (listed ▸ halves.1) result).bind
        · rintro stored later ⟨_, kept⟩
          rw [listed] at kept
          have tried : Changes Tries (left.take CONCURRENCY) tables later := by
            apply recorded.trans kept
            rintro agent row between last ⟨triedAt, isTried⟩ (rfl | has)
            · exact .inr ⟨triedAt, isTried⟩
            · exact .inl has
          have fewer : (left.drop CONCURRENCY).length ≤ rounds := by
            rw [List.length_drop]
            have positive : 0 < CONCURRENCY := by decide
            omega
          apply (induction fewer halves.2.1 stored).mono
          rintro final last ⟨returned, rest⟩
          refine ⟨returned, ?_⟩
          rw [← List.take_append_drop CONCURRENCY left]
          exact tried.append rest distinct
        · rintro error later ⟨⟨_, impossible⟩, _⟩
          cases impossible
        · rintro later ⟨⟨_, impossible⟩, _⟩
          cases impossible
      · rintro error later ⟨_, _, impossible, _⟩
        cases impossible
      · rintro later ⟨_, _, impossible, _⟩
        cases impossible

/-- A run tries the agents it selects, from all the waiting ones. -/
def TriesSelected (waited : String → String → Nat → Bool)
    (tables after : Tables) : Prop :=
  ∃ now agents, Selects waited tables now agents ∧
    (∀ id row, tables.agents id = some row → Waiting row →
      IsPending waited now row) ∧
    Changes Tries agents tables after

theorem resolvePending_leads :
    resolvePending.Leads (ServesUndisturbed waited) tables
      fun final after => (∃ result, final = .returned result) ∧
        TriesSelected waited tables after := by
  rw [resolvePending, bind_eq, call_bind]
  intro (now : String) after served
  obtain ⟨served, _⟩ := served
  cases served
  dsimp only
  rw [bind_eq, call_bind]
  intro (reply : Except Thrown (List PendingAgent)) after served
  obtain ⟨served, ⟨agents, rfl⟩, due⟩ := served
  cases served with
  | selected selects =>
      apply (resolveRounds_leads _ (Nat.le_refl _) selects.distinct _).mono
      rintro final last ⟨returned, changed⟩
      exact ⟨returned, now, agents, selects, due, changed⟩

end

/-! ## Tries that are left -/

open Classical in
/-- How many tries a waiting row has left. -/
noncomputable def triesLeft : Option AgentRow → Nat
  | some row => if Waiting row then MAX_ATTEMPTS - row.uriResolveAttempts else 0
  | none => 0

theorem triesLeft_waiting {row : AgentRow} (waiting : Waiting row) :
    triesLeft (some row) = MAX_ATTEMPTS - row.uriResolveAttempts :=
  if_pos waiting

theorem triesLeft_settled {row : AgentRow} (settled : ¬ Waiting row) :
    triesLeft (some row) = 0 :=
  if_neg settled

theorem triesLeft_le (row : Option AgentRow) :
    triesLeft row ≤ MAX_ATTEMPTS := by
  unfold triesLeft
  split
  · split <;> omega
  · exact Nat.zero_le _

theorem triesLeft_pos_iff {row : AgentRow} :
    0 < triesLeft (some row) ↔ Waiting row := by
  constructor
  · intro positive
    by_contra settled
    rw [triesLeft_settled settled] at positive
    exact Nat.lt_irrefl 0 positive
  · intro waiting
    rw [triesLeft_waiting waiting]
    exact Nat.sub_pos_of_lt waiting.2.2.2

theorem Tries.triesLeft_lt {agent : PendingAgent} {row later : AgentRow}
    (tried : Tries agent row later) (waiting : Waiting row)
    (same : row.uriResolveAttempts = agent.uriResolveAttempts) :
    triesLeft (some later) < triesLeft (some row) := by
  have before := triesLeft_waiting waiting
  have few := waiting.2.2.2
  rw [before]
  by_cases still : Waiting later
  · have after := triesLeft_waiting still
    rcases tried with has | ⟨triedAt, rfl⟩
    · exact absurd still.2.1 has
    · have more : (triedRow agent triedAt row).uriResolveAttempts =
          agent.uriResolveAttempts + 1 := rfl
      omega
  · have after := triesLeft_settled still
    omega

section

variable {waited : String → String → Nat → Bool} {tables after : Tables}
  {now : String} {agents : List PendingAgent}

theorem Changes.triesLeft_lt (changed : Changes Tries agents tables after)
    (selects : Selects waited tables now agents) {id : Nat}
    (member : id ∈ agents.map PendingAgent.id) :
    triesLeft (after.agents id) < triesLeft (tables.agents id) := by
  obtain ⟨agent, inside, rfl⟩ := List.mem_map.mp member
  obtain ⟨row, found, pending, isUri, attempts⟩ := selects.pending agent inside
  obtain ⟨later, isLater, _, tried⟩ :=
    changed.each agent inside row found isUri
  obtain ⟨isPending, none, some, few, _⟩ := pending
  rw [isLater, found]
  exact tried.triesLeft_lt ⟨isPending, none, some, few⟩ attempts

theorem Changes.triesLeft_le (changed : Changes Tries agents tables after)
    (selects : Selects waited tables now agents) (id : Nat) :
    triesLeft (after.agents id) ≤ triesLeft (tables.agents id) := by
  by_cases member : id ∈ agents.map PendingAgent.id
  · exact Nat.le_of_lt (changed.triesLeft_lt selects member)
  · rw [changed.others id member]

/-- The tries left to all agents of a set. -/
noncomputable def triesLeftOf (queue : Finset Nat) (tables : Tables) : Nat :=
  ∑ id ∈ queue, triesLeft (tables.agents id)

/-- The set holds every agent that is waiting. -/
def Queued (queue : Finset Nat) (tables : Tables) : Prop :=
  ∀ id, 0 < triesLeft (tables.agents id) → id ∈ queue

/-- Each agent that is selected spends a try. -/
theorem Changes.triesLeftOf_le (changed : Changes Tries agents tables after)
    (selects : Selects waited tables now agents) {queue : Finset Nat}
    (queued : Queued queue tables) :
    triesLeftOf queue after + agents.length ≤ triesLeftOf queue tables := by
  let selected := (agents.map PendingAgent.id).toFinset
  have inside : selected ⊆ queue := by
    intro id member
    apply queued
    exact Nat.zero_lt_of_lt
      (changed.triesLeft_lt selects (List.mem_toFinset.mp member))
  have count : ∑ id ∈ queue, (if id ∈ selected then 1 else 0) =
      agents.length := by
    rw [Finset.sum_ite_mem, Finset.inter_eq_right.mpr inside, Finset.sum_const,
      smul_eq_mul, mul_one, List.toFinset_card_of_nodup selects.distinct,
      List.length_map]
  unfold triesLeftOf
  rw [← count, ← Finset.sum_add_distrib]
  apply Finset.sum_le_sum
  intro id _
  split
  · rename_i member
    exact changed.triesLeft_lt selects (List.mem_toFinset.mp member)
  · exact changed.triesLeft_le selects id

end

/-! ## Runs -/

/-- Undisturbed runs, one after another, each to its end. -/
inductive UndisturbedRuns (waited : String → String → Nat → Bool) :
    Nat → Tables → Tables → Prop where
  | none (tables : Tables) : UndisturbedRuns waited 0 tables tables
  | next {runs : Nat} {start middle after : Tables}
      {trace : List (Exchange resolverHost)}
      {final : Final resolverHost ResolveResult}
      (ended : Yields resolvePending trace (some final))
      (served : Served (ServesUndisturbed waited) start trace middle)
      (rest : UndisturbedRuns waited runs middle after) :
      UndisturbedRuns waited (runs + 1) start after

section

variable {waited : String → String → Nat → Bool} {start final : Tables}
  {queue : Finset Nat} {runs : Nat}

/-- A run tries twenty agents, or all that are waiting.  The induction takes
from `full` for a run of twenty and from `last` for any other. -/
theorem UndisturbedRuns.drain (ran : UndisturbedRuns waited runs start final)
    {full last : Nat} (queued : Queued queue start)
    (few : triesLeftOf queue start < 20 * (full + 1))
    (left : ∀ id, triesLeft (start.agents id) ≤ last)
    (enough : full + last ≤ runs) (id : Nat) :
    triesLeft (final.agents id) = 0 := by
  induction ran generalizing full last with
  | none tables =>
      have none := left id
      omega
  | @next runs start middle after trace result ended served rest induction =>
      obtain ⟨_, now, agents, selects, due, changed⟩ :=
        resolvePending_leads.final ended served
      have spent := changed.triesLeftOf_le selects queued
      have below := changed.triesLeft_le selects
      have still : Queued queue middle := by
        intro other positive
        exact queued other (Nat.lt_of_lt_of_le positive (below other))
      by_cases whole : agents.length = RESOLVE_LIMIT
      · rw [whole, show RESOLVE_LIMIT = 20 from rfl] at spent
        have fewer : triesLeftOf queue middle < 20 * (full - 1 + 1) := by omega
        apply induction still fewer
        · exact fun other => (below other).trans (left other)
        · omega
      · have each : ∀ other, triesLeft (middle.agents other) ≤ last - 1 := by
          intro other
          cases found : start.agents other with
          | none =>
              have less := below other
              rw [found] at less
              exact less.trans (Nat.zero_le _)
          | some row =>
              by_cases waiting : Waiting row
              · have inside := (selects.complete other row found
                  (due other row found waiting)).resolve_right
                    fun full => whole full.1
                have less := changed.triesLeft_lt selects inside
                have bound := left other
                omega
              · have less := below other
                rw [found, triesLeft_settled waiting] at less
                exact less.trans (Nat.zero_le _)
        rcases Nat.eq_zero_or_pos last with rfl | some
        · have none : triesLeftOf queue middle < 20 * (0 + 1) := by
            unfold triesLeftOf
            rw [Finset.sum_eq_zero fun other _ => Nat.le_zero.mp (each other)]
            decide
          exact induction still none each (Nat.zero_le _)
        · have less : triesLeftOf queue middle < 20 * (full + 1) := by omega
          exact induction still less each (by omega)

/-- A row that wants its document is pending or has spent its tries. -/
def Accounted (tables : Tables) : Prop :=
  ∀ id row uri, tables.agents id = some row → row.agentUri = some uri →
    uri ≠ "" → row.agentUriData = none →
      row.resolveUriPending = true ∨ MAX_ATTEMPTS ≤ row.uriResolveAttempts

theorem TriesSelected.accounted {tables after : Tables}
    (tried : TriesSelected waited tables after)
    (accounted : Accounted tables) : Accounted after := by
  obtain ⟨now, agents, selects, _, changed⟩ := tried
  intro id row uri found isUri some none
  by_cases member : id ∈ agents.map PendingAgent.id
  · obtain ⟨agent, inside, rfl⟩ := List.mem_map.mp member
    obtain ⟨before, isBefore, _, same, _⟩ := selects.pending agent inside
    obtain ⟨later, isLater, _, spent⟩ :=
      changed.each agent inside before isBefore same
    rw [isLater] at found
    cases found
    rcases spent with has | ⟨triedAt, rfl⟩
    · exact absurd none has
    · by_cases more : agent.uriResolveAttempts + 1 < MAX_ATTEMPTS
      · exact .inl (decide_eq_true more)
      · exact .inr (Nat.le_of_not_lt more)
  · rw [changed.others id member] at found
    exact accounted id row uri found isUri some none

theorem UndisturbedRuns.accounted
    (ran : UndisturbedRuns waited runs start final)
    (accounted : Accounted start) : Accounted final := by
  induction ran with
  | none tables => exact accounted
  | next ended served rest induction =>
      obtain ⟨_, tried⟩ := resolvePending_leads.final ended served
      exact induction (tried.accounted accounted)

/-- Whatever runs and writes have shared the table before: after a quarter as
many undisturbed runs as agents are waiting, and five more, every agent with a
URI has a document or has spent its tries. -/
theorem queue_drains {ι : Type*} [DecidableEq ι] {runtime : Runtime}
    {log : List (ι × Exchange resolverHost)}
    (past : Interleaved (fun _ : ι => resolvePending) (Serves waited)
      (Writes runtime) Tables.empty log start)
    (queued : ∀ id row, start.agents id = some row → Waiting row → id ∈ queue)
    (enough : queue.card / 4 + 5 ≤ runs)
    (ran : UndisturbedRuns waited runs start final) :
    ∀ id row uri, final.agents id = some row → row.agentUri = some uri →
      uri ≠ "" →
      row.agentUriData ≠ none ∨ MAX_ATTEMPTS ≤ row.uriResolveAttempts := by
  have holds : Holds log start := by
    apply past.invariant (fun _ => Permitted)
      (fun _ => resolvePending_ensures) (fun _ => trivial) Holds
    · exact ⟨fun _ _ found => (nomatch found), fun _ _ _ none =>
        (nomatch none)⟩
    · exact fun holds permitted served => holds.exchange permitted served
    · exact fun holds writes => holds.write writes
  have accounted : Accounted start := by
    intro id row uri found isUri some none
    rcases (holds.rows id row found).pending uri isUri some none with
      pending | spent
    · exact .inl pending
    · exact .inr spent.ge
  have inQueue : Queued queue start := by
    intro id positive
    cases found : start.agents id with
    | none =>
        rw [found] at positive
        exact absurd positive (Nat.lt_irrefl 0)
    | some row =>
        rw [found, triesLeft_pos_iff] at positive
        exact queued id row found positive
  have few : triesLeftOf queue start < 20 * (queue.card / 4 + 1) := by
    have most := Finset.sum_le_card_nsmul queue
      (fun id => triesLeft (start.agents id)) MAX_ATTEMPTS
      fun id _ => triesLeft_le (start.agents id)
    rw [smul_eq_mul, show MAX_ATTEMPTS = 5 from rfl] at most
    unfold triesLeftOf
    omega
  intro id row uri found isUri some
  by_contra open_row
  rw [not_or, not_not] at open_row
  have drained := ran.drain inQueue few
    (fun other => triesLeft_le (start.agents other)) enough id
  rcases ran.accounted accounted id row uri found isUri some open_row.1 with
    pending | spent
  · have waiting : Waiting row :=
      ⟨pending, open_row.1, ⟨uri, isUri, some⟩, Nat.lt_of_not_le open_row.2⟩
    have positive := triesLeft_pos_iff.mpr waiting
    rw [found] at drained
    omega
  · exact open_row.2 spent

end

/-! ## An agent that spends its tries -/

def wantedPacket : EventPacket :=
  { id := "1", contract := .identity
    data := .registered
      { ledger := 1, ledgerClosedAt := "2026-01-01T00:00:00Z", txHash := "tx"
        agentId := 0, owner := "G", agentUri := "u" } }

def wantedRow : AgentRow :=
  Tables.newAgent "G" "u" true (storedTime "2026-01-01T00:00:00Z") 1 "tx" "t"

/-- The table after so many tries of its only agent. -/
def triedTables (count : Nat) : Tables :=
  (List.range count).foldl
    (fun tables tried => recordTry "t" tables (pendingAgent tried))
    (Tables.empty.setAgent 0 wantedRow)

theorem triedTables_row (count : Nat) : ∃ row,
    (triedTables count).agents 0 = some row ∧ row.agentUri = some "u" ∧
      row.agentUriData = none ∧ row.uriResolveAttempts = count ∧
      row.resolveUriPending = decide (count < MAX_ATTEMPTS) ∧
      ∀ id, id ≠ 0 → (triedTables count).agents id = none := by
  induction count with
  | zero =>
      refine ⟨wantedRow, rfl, rfl, rfl, rfl, rfl, ?_⟩
      intro id other
      exact Function.update_of_ne other _ _
  | succ count induction =>
      obtain ⟨row, found, isUri, none, _, _, alone⟩ := induction
      have again : triedTables (count + 1) =
          recordTry "t" (triedTables count) (pendingAgent count) := by
        unfold triedTables
        rw [List.range_succ, List.foldl_append]
        rfl
      rw [again]
      have tried : recordTry "t" (triedTables count) (pendingAgent count) =
          (triedTables count).setAgent 0
            (triedRow (pendingAgent count) "t" row) := by
        unfold recordTry
        rw [show (pendingAgent count).id = 0 from rfl, found]
        exact if_pos isUri
      rw [tried]
      refine ⟨triedRow (pendingAgent count) "t" row, ?_, isUri, none, rfl,
        rfl, ?_⟩
      · simp [Tables.setAgent]
      · intro id other
        simp [Tables.setAgent, other, alone id other]

theorem oneFetch_trace {count : Nat} (more : count < MAX_ATTEMPTS) :
    (resolvePending.answeredBy
      (oneFetchAnswer "t" (pendingAgent count))).1 =
        oneFetch "t" (pendingAgent count) ++ [⟨.now, "t"⟩] := by
  have few : count < 5 := more
  interval_cases count <;> rfl

theorem triedTables_runs {runs count : Nat} {final : Tables}
    (more : count < MAX_ATTEMPTS)
    (rest : UndisturbedRuns (fun _ _ _ => true) runs (triedTables (count + 1))
      final) :
    UndisturbedRuns (fun _ _ _ => true) (runs + 1) (triedTables count)
      final := by
  obtain ⟨row, found, isUri, none, attempts, pending, alone⟩ :=
    triedTables_row count
  have isPending : IsPending (fun _ _ _ => true) "t" row := by
    refine ⟨?_, none, ⟨"u", isUri, by decide⟩, ?_, ?_⟩
    · rw [pending]
      exact decide_eq_true more
    · rw [attempts]
      exact more
    · cases last : row.lastResolveAttemptAt with
      | none => exact .inr (.inl rfl)
      | some time => exact .inr (.inr ⟨time, rfl, rfl⟩)
  have again : recordTry "t" (triedTables count) (pendingAgent count) =
      triedTables (count + 1) := by
    unfold triedTables
    rw [List.range_succ, List.foldl_append]
    rfl
  have ended := yields_answeredBy (oneFetchAnswer "t" (pendingAgent count))
    resolvePending
  rw [oneFetch_trace more] at ended
  refine .next ended ?_ rest
  refine .cons ⟨.now _, trivial⟩ ?_
  refine .cons ⟨.selected (selects_alone found isPending isUri attempts
    alone), ⟨_, rfl⟩, ?_⟩ ?_
  · intro id other isOther _
    by_cases same : id = 0
    · rw [same, found] at isOther
      cases isOther
      exact isPending
    · rw [alone id same] at isOther
      cases isOther
  refine .cons ⟨.inTime true, rfl⟩ ?_
  refine .cons ⟨.now _, trivial⟩ ?_
  refine .cons ⟨.recorded _ [pendingAgent count], rfl⟩ ?_
  rw [List.foldl_cons, List.foldl_nil, again]
  refine .cons ⟨.resolved _ .nothing, trivial⟩ ?_
  refine .cons ⟨.now _, trivial⟩ ?_
  exact .nil _

/-- Five runs that fetch nothing spend the tries of the only agent. -/
theorem queue_drains_spent :
    ∃ (start final : Tables) (row : AgentRow),
      Interleaved (fun _ : Unit => resolvePending) (Serves fun _ _ _ => true)
        (Writes { parseDate := fun _ => none, callDepth := 0 })
        Tables.empty [] start ∧
      UndisturbedRuns (fun _ _ _ => true) 5 start final ∧
      final.agents 0 = some row ∧
      (row.agentUriData ≠ none ∨ MAX_ATTEMPTS ≤ row.uriResolveAttempts) := by
  have past : Interleaved (fun _ : Unit => resolvePending)
      (Serves fun _ _ _ => true)
      (Writes { parseDate := fun _ => none, callDepth := 0 })
      Tables.empty [] (triedTables 0) :=
    .moved .start ⟨"t", wantedPacket, rfl⟩
  have ran : UndisturbedRuns (fun _ _ _ => true) 5 (triedTables 0)
      (triedTables 5) := by
    apply triedTables_runs (by decide)
    apply triedTables_runs (by decide)
    apply triedTables_runs (by decide)
    apply triedTables_runs (by decide)
    apply triedTables_runs (by decide)
    exact .none _
  have queued : ∀ id row, (triedTables 0).agents id = some row →
      Waiting row → id ∈ ({0} : Finset Nat) := by
    intro id row found _
    obtain ⟨_, _, _, _, _, _, alone⟩ := triedTables_row 0
    by_contra other
    rw [alone id (by simpa using other)] at found
    cases found
  obtain ⟨row, found, isUri, _⟩ := triedTables_row 5
  exact ⟨_, _, row, past, ran, found,
    queue_drains past queued (by decide) ran 0 row "u" found isUri (by decide)⟩

end Resolver

end Stellar8004.Indexer
