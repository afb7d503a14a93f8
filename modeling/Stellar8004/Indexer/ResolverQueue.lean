import Stellar8004.Indexer.ResolverRuns

/-!
# The order within a resolver run

A run of `resolvePending` takes the agents it has selected in rounds.  The try
of each is recorded before its fetch, and nothing is stored for an agent that
is still to be tried or fetched.
-/

namespace Stellar8004.Indexer

open Program

namespace Resolver

/-- The agents selected and not yet tried, and those whose try is recorded and
whose fetch has not begun. -/
structure Queue where
  left : List PendingAgent
  waiting : List PendingAgent

namespace Queue

def empty : Queue := { left := [], waiting := [] }

/-- How an exchange moves the agents along.  A batch that was refused ends the
run. -/
def note (queue : Queue) : Exchange resolverHost → Queue
  | ⟨.selectPending _, .ok agents⟩ => { left := agents, waiting := [] }
  | ⟨.recordTries _ round, .answered _⟩ =>
      { left := queue.left.drop round.length, waiting := round }
  | ⟨.recordTries _ _, _⟩ => empty
  | ⟨.resolve _, _⟩ => { queue with waiting := queue.waiting.tail }
  | _ => queue

/-- The queue after a trace. -/
def after (trace : List (Exchange resolverHost)) : Queue :=
  trace.foldl note empty

@[simp] theorem after_snoc (trace : List (Exchange resolverHost))
    (exchange : Exchange resolverHost) :
    after (trace ++ [exchange]) = (after trace).note exchange := by
  simp [after]

end Queue

/-- The run has selected its agents. -/
def HasSelected (past : List (Exchange resolverHost)) : Prop :=
  ∃ now agents, (⟨.selectPending now, .ok agents⟩ :
    Exchange resolverHost) ∈ past

/-- A selection forgets what came before it. -/
theorem HasSelected.after_append {current : List (Exchange resolverHost)}
    (selected : HasSelected current) (past : List (Exchange resolverHost)) :
    Queue.after (past ++ current) = Queue.after current := by
  obtain ⟨now, agents, member⟩ := selected
  obtain ⟨before, later, rfl⟩ := List.append_of_mem member
  simp [Queue.after, List.foldl_append, Queue.note]

/-- What a run may exchange next. -/
def Orderly (past : List (Exchange resolverHost))
    (exchange : Exchange resolverHost) : Prop :=
  match exchange.request with
  | .selectPending now => past.getLast? = some ⟨.now, now⟩
  | .recordTries triedAt round =>
      past.getLast? = some ⟨.now, triedAt⟩ ∧ HasSelected past ∧
        round = (Queue.after past).left.take CONCURRENCY
  | .resolve uri => HasSelected past ∧ ∃ agent rest,
      (Queue.after past).waiting = agent :: rest ∧ agent.agentUri = uri
  | .store agent _ _ => HasSelected past ∧
      (Queue.after past).waiting = [] ∧
      agent.id ∉ (Queue.after past).left.map PendingAgent.id
  | _ => True

/-- A selection answers each row once. -/
def SelectsOnce (_ : List (Exchange resolverHost))
    (exchange : Exchange resolverHost) : Prop :=
  match exchange with
  | ⟨.selectPending _, .ok agents⟩ => (agents.map PendingAgent.id).Nodup
  | _ => True

/-! ## The program keeps the order -/

/-- Where a run stands. -/
structure Stands (past : List (Exchange resolverHost))
    (left waiting : List PendingAgent) : Prop where
  selected : HasSelected past
  queue : Queue.after past = { left, waiting }

section

variable {past : List (Exchange resolverHost)}
  {left waiting : List PendingAgent}

theorem Stands.snoc (stands : Stands past left waiting)
    {exchange : Exchange resolverHost} {less more : List PendingAgent}
    (noted : Queue.note { left, waiting } exchange =
      { left := less, waiting := more }) :
    Stands (past ++ [exchange]) less more := by
  obtain ⟨⟨now, agents, member⟩, queue⟩ := stands
  refine ⟨⟨now, agents, List.mem_append_left _ member⟩, ?_⟩
  rw [Queue.after_snoc, queue, noted]

theorem fetchAll_orderly (round : List PendingAgent)
    (stands : Stands past left round) :
    (fetchAll round).Ensures SelectsOnce Orderly past fun final now =>
      ∃ documents, final = .returned documents ∧
        documents.map Prod.fst = round ∧ Stands now left [] := by
  induction round generalizing past with
  | nil => exact ⟨[], rfl, rfl, stands⟩
  | cons agent round induction =>
      rw [fetchAll, bind_eq, call_bind]
      intro (fetched : Fetched) _
      have here : Orderly past ⟨.resolve agent.agentUri, fetched⟩ := by
        refine ⟨stands.selected, agent, round, ?_, rfl⟩
        rw [stands.queue]
      have popped : Stands
          (past ++ [⟨.resolve agent.agentUri, fetched⟩]) left round :=
        stands.snoc rfl
      refine ⟨here, (induction popped).bind ?_ ?_ ?_⟩
      · rintro rest later ⟨_, ⟨⟩, isRound, done⟩
        exact ⟨_, rfl, by rw [List.map_cons, isRound], done⟩
      · rintro error later ⟨_, impossible, _⟩
        cases impossible
      · rintro later ⟨_, impossible, _⟩
        cases impossible

theorem store_orderly (agent : PendingAgent) (fetched : Fetched)
    (now : String) (stands : Stands past left [])
    (done : agent.id ∉ left.map PendingAgent.id) :
    (store agent fetched now).Ensures SelectsOnce Orderly past
      fun final later => (∃ stored, final = .returned stored) ∧
        Stands later left [] := by
  unfold store
  split
  · exact ⟨⟨_, rfl⟩, stands⟩
  · exact ⟨⟨_, rfl⟩, stands⟩
  · exact ⟨⟨_, rfl⟩, stands⟩
  · dsimp only
    split
    · exact ⟨⟨_, rfl⟩, stands⟩
    · rw [bind_eq, call_bind]
      intro (reply : Reply Nat) _
      have kept : ∀ columns, Stands
          (past ++ [⟨.store agent columns now, reply⟩]) left [] :=
        fun _ => stands.snoc rfl
      refine ⟨⟨stands.selected, ?_, ?_⟩, ?_⟩
      · rw [stands.queue]
      · rw [stands.queue]
        exact done
      · cases answer : reply.result with
        | ok changes =>
            simp only [answer]
            exact ⟨⟨_, rfl⟩, kept _⟩
        | error error =>
            simp only [answer]
            exact ⟨⟨_, rfl⟩, kept _⟩

theorem storeAll_orderly (documents : List (PendingAgent × Fetched))
    (stands : Stands past left [])
    (done : ∀ entry ∈ documents,
      entry.1.id ∉ left.map PendingAgent.id) (result : ResolveResult) :
    (storeAll documents result).Ensures SelectsOnce Orderly past
      fun final now => (∃ result, final = .returned result) ∧
        Stands now left [] := by
  induction documents generalizing past result with
  | nil => exact ⟨⟨_, rfl⟩, stands⟩
  | cons entry documents induction =>
      obtain ⟨agent, fetched⟩ := entry
      rw [storeAll, bind_eq, call_bind]
      intro (now : String) _
      have timed : Stands (past ++ [⟨.now, now⟩]) left [] :=
        stands.snoc rfl
      refine ⟨trivial, ?_⟩
      refine (store_orderly agent fetched now timed
        (done _ List.mem_cons_self)).bind ?_ ?_ ?_
      · rintro stored later ⟨_, kept⟩
        have others : ∀ entry ∈ documents,
            entry.1.id ∉ left.map PendingAgent.id := fun entry member =>
          done entry (List.mem_cons_of_mem _ member)
        dsimp only
        split
        · exact induction kept others _
        · split
          · exact induction kept others _
          · exact induction kept others _
      · rintro error later ⟨⟨_, impossible⟩, _⟩
        cases impossible
      · rintro later ⟨⟨_, impossible⟩, _⟩
        cases impossible

theorem resolveRounds_orderly (rounds : Nat) (left : List PendingAgent)
    (stands : Stands past left [])
    (distinct : (left.map PendingAgent.id).Nodup) (result : ResolveResult) :
    (resolveRounds rounds left result).Ensures SelectsOnce Orderly past
      fun _ _ => True := by
  induction rounds generalizing past left result with
  | zero => trivial
  | succ rounds induction =>
      unfold resolveRounds
      split
      · trivial
      rw [bind_eq, call_bind]
      intro (inTime : Bool) _
      have asked : Stands (past ++ [⟨.inTime, inTime⟩]) left [] :=
        stands.snoc rfl
      refine ⟨trivial, ?_⟩
      dsimp only
      split
      · rw [bind_eq, call_bind]
        intro (triedAt : String) _
        have timed : Stands
            (past ++ [⟨.inTime, inTime⟩] ++ [⟨.now, triedAt⟩]) left [] :=
          asked.snoc rfl
        refine ⟨trivial, ?_⟩
        dsimp only
        rw [bind_eq, call_bind]
        intro (reply : Reply Unit) _
        refine ⟨⟨by simp, timed.selected, by rw [timed.queue]⟩, ?_⟩
        cases reply with
        | failed error => trivial
        | lost error => trivial
        | answered value =>
            have dropped : left.drop (left.take CONCURRENCY).length =
                left.drop CONCURRENCY := by
              rw [List.length_take, List.drop_eq_drop_iff]
              omega
            have recorded : Stands
                (past ++ [⟨.inTime, inTime⟩] ++ [⟨.now, triedAt⟩] ++
                  [⟨.recordTries triedAt (left.take CONCURRENCY),
                    .answered value⟩])
                (left.drop CONCURRENCY) (left.take CONCURRENCY) :=
              timed.snoc (by simp only [Queue.note, dropped])
            have apart : ((left.take CONCURRENCY).map PendingAgent.id ++
                (left.drop CONCURRENCY).map PendingAgent.id).Nodup := by
              rw [← List.map_append, List.take_append_drop]
              exact distinct
            simp only [Reply.result]
            refine (fetchAll_orderly _ recorded).bind ?_ ?_ ?_
            · rintro documents later ⟨_, ⟨⟩, isRound, fetched⟩
              refine (storeAll_orderly documents fetched ?_ result).bind
                ?_ ?_ ?_
              · intro entry member inside
                apply (List.nodup_append.mp apart).2.2 _ ?_ _ inside rfl
                rw [← isRound]
                simp only [List.map_map]
                exact List.mem_map.mpr ⟨entry, member, rfl⟩
              · rintro stored after ⟨_, kept⟩
                exact induction _ kept
                  (List.nodup_append.mp apart).2.1 stored
              · exact fun _ _ _ => trivial
              · exact fun _ _ => trivial
            · exact fun _ _ _ => trivial
            · exact fun _ _ => trivial
      · trivial

theorem resolvePending_orderly :
    resolvePending.Ensures SelectsOnce Orderly [] fun _ _ => True := by
  rw [resolvePending, bind_eq, call_bind]
  intro (now : String) _
  refine ⟨trivial, ?_⟩
  dsimp only
  rw [bind_eq, call_bind]
  intro (reply : Except Thrown (List PendingAgent)) once
  refine ⟨rfl, ?_⟩
  cases reply with
  | error error => trivial
  | ok agents =>
      apply resolveRounds_orderly _ agents ?_ once
      exact ⟨⟨now, agents, by simp⟩, rfl⟩

end

end Resolver

end Stellar8004.Indexer
