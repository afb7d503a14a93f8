import Stellar8004.Contracts.Reputation
import Stellar8004.Contracts.Runs
import Stellar8004.Library.Accepted
import Stellar8004.Library.IndexedList

/-!
# What the reputation registry stores

The six families of keys agree after every run, whatever the identity registry
answers: indexes have no gaps, the clients of an agent are listed once each in
the order of their first feedback, and every entry is the one its client gave,
revoked exactly when its client revoked it.
-/

namespace Stellar8004.Contracts

/-- A call and what the identity registry answers during it. -/
abbrev ReputationAction := IdentityAnswers × ReputationCall

/-- The feedback a call gives to an agent by a client. -/
def ReputationCall.gives (agent : Nat) (client : Address) :
    ReputationCall → Option FeedbackData
  | giveFeedback caller agentId value valueDecimals tag1 tag2 _ _ _ =>
      if agentId.toNat = agent ∧ caller = client then
        some { value, valueDecimals := valueDecimals.toNat
               isRevoked := false, tag1, tag2 }
      else none
  | _ => none

/-- The client who gives feedback to an agent by a call. -/
def ReputationCall.giverTo (agent : Nat) : ReputationCall → Option Address
  | giveFeedback caller agentId _ _ _ _ _ _ _ =>
      if agentId.toNat = agent then some caller else none
  | _ => none

/-- A client revoking its own feedback. -/
def ReputationCall.revokes (agent : Nat) (client : Address) (index : Nat) :
    ReputationCall → Bool
  | revokeFeedback caller agentId feedbackIndex =>
      agentId.toNat = agent ∧ caller = client ∧ feedbackIndex.toNat = index
  | _ => false

/-- The feedback a client gave to an agent, in order. -/
def given (history : List ReputationAction) (agent : Nat)
    (client : Address) : List FeedbackData :=
  history.filterMap fun action => action.2.gives agent client

/-- The clients of an agent in the order of their first feedback. -/
def firstClients (history : List ReputationAction) (agent : Nat) :
    List Address :=
  (history.filterMap fun action => action.2.giverTo agent).eraseDups

/-- The times a client revoked an entry. -/
def revocations (history : List ReputationAction) (agent : Nat)
    (client : Address) (index : Nat) : Nat :=
  history.countP fun action => action.2.revokes agent client index

namespace ReputationState

/-- A call that succeeds moves the registry; any other is refused. -/
def step (state : ReputationState) (action : ReputationAction) :
    Option ReputationState :=
  match state.call action.1 action.2 with
  | .ok (after, _) => some after
  | .error _ => none

/-! ## Storage by key -/

theorem setFeedback_feedback (state : ReputationState) (agentId : Nat)
    (client : Address) (index : Nat) (data : FeedbackData) (agent : Nat)
    (other : Address) (position : Nat) :
    (state.setFeedback agentId client index data).feedback agent other
        position =
      if agent = agentId ∧ other = client ∧ position = index then some data
      else state.feedback agent other position := by
  simp only [setFeedback, Function.update_apply]
  by_cases sameAgent : agent = agentId
  · by_cases sameClient : other = client
    · subst sameAgent sameClient
      simp [Function.update_apply]
    · simp [sameAgent, sameClient]
  · simp [sameAgent]

theorem setLastIndex_lastIndex (state : ReputationState) (agentId : Nat)
    (client : Address) (index : Nat) (agent : Nat) (other : Address) :
    (state.setLastIndex agentId client index).lastIndex agent other =
      if agent = agentId ∧ other = client then index
      else state.lastIndex agent other := by
  simp only [setLastIndex, Function.update_apply]
  by_cases sameAgent : agent = agentId
  · subst sameAgent
    simp [Function.update_apply]
  · simp [sameAgent]

theorem ensureClient_few {state counted : ReputationState} {agentId : Nat}
    {client : Address} (few : ∀ agent, state.clientCount agent < 2 ^ 32)
    (ensured : state.ensureClient agentId client = .ok counted) (agent : Nat) :
    counted.clientCount agent < 2 ^ 32 := by
  unfold ensureClient at ensured
  split at ensured
  · cases ensured
    exact few agent
  · unfold addClient at ensured
    split at ensured
    · rename_i room
      cases ensured
      dsimp only
      rw [Function.update_apply]
      split
      · exact room
      · exact few agent
    · cases ensured

/-! ## What each call does -/

theorem step_takes {state after : ReputationState}
    {action : ReputationAction} (taken : state.step action = some after) :
    state.Takes action.1 action.2 after := by
  unfold step at taken
  split at taken
  · rename_i success
    cases taken
    exact (call_ok success).1
  · cases taken

/-- The counters of the clients fit a `u32`. -/
theorem clientCount_lt {history : List ReputationAction}
    {state : ReputationState} (run : Accepted step .initial history state) :
    ∀ agent, state.clientCount agent < 2 ^ 32 := by
  apply run.invariant fun _ state => ∀ agent, state.clientCount agent < 2 ^ 32
  · exact fun _ => Nat.two_pow_pos 32
  · intro actions state action after _ few taken
    have takes := step_takes taken
    generalize action.2 = request at takes
    cases takes with
    | giveFeedback caller agentId value valueDecimals tag1 tag2 endpoint
        feedbackUri feedbackHash scale range living outsider ensured room =>
        have counted := ensureClient_few few ensured
        exact counted
    | revokeFeedback caller agentId feedbackIndex found standing => exact few
    | appendResponse caller agentId clientAddress feedbackIndex responseUri
        responseHash found => exact few

end ReputationState

/-! ## Histories -/

section

variable (history : List ReputationAction) (action : ReputationAction)
  (agent : Nat) (client : Address) (index : Nat)

theorem given_snoc :
    given (history ++ [action]) agent client =
      given history agent client ++ (action.2.gives agent client).toList := by
  simp only [given, List.filterMap_append]
  cases isGiven : action.2.gives agent client <;> simp [isGiven]

theorem revocations_snoc :
    revocations (history ++ [action]) agent client index =
      revocations history agent client index +
        if action.2.revokes agent client index then 1 else 0 := by
  simp only [revocations, List.countP_append, List.countP_singleton]

theorem firstClients_snoc :
    firstClients (history ++ [action]) agent =
      match action.2.giverTo agent with
      | none => firstClients history agent
      | some giver =>
          if giver ∈ firstClients history agent then
            firstClients history agent
          else firstClients history agent ++ [giver] := by
  simp only [firstClients, List.filterMap_append, List.eraseDups_append,
    List.mem_eraseDups]
  cases isGiver : action.2.giverTo agent with
  | none => simp [isGiver]
  | some giver =>
      by_cases listed : giver ∈ history.filterMap fun action =>
          action.2.giverTo agent
      · simp [isGiver, listed, List.removeAll]
      · simp [isGiver, listed, List.removeAll, List.eraseDups_cons]

theorem firstClients_nodup : (firstClients history agent).Nodup := by
  induction history using List.reverseRecOn with
  | nil => exact .nil
  | append_singleton history action induction =>
      rw [firstClients_snoc]
      split
      · exact induction
      · split
        · exact induction
        · rename_i fresh
          rw [List.nodup_append]
          refine ⟨induction, List.nodup_singleton _, ?_⟩
          rintro listed member other single rfl
          rw [List.mem_singleton] at single
          exact fresh (single ▸ member)

/-- A client is listed once it has given feedback. -/
theorem mem_firstClients_iff :
    client ∈ firstClients history agent ↔
      0 < (given history agent client).length := by
  rw [firstClients, List.mem_eraseDups, List.mem_filterMap, given,
    List.length_pos_iff_exists_mem]
  simp only [List.mem_filterMap]
  constructor
  · rintro ⟨action, member, isGiver⟩
    cases call : action.2 with
    | giveFeedback caller agentId value valueDecimals tag1 tag2 endpoint
        feedbackUri feedbackHash =>
        simp only [call, ReputationCall.giverTo, Option.ite_none_right_eq_some,
          Option.some.injEq] at isGiver
        refine ⟨⟨value, valueDecimals.toNat, false, tag1, tag2⟩, action,
          member, ?_⟩
        rw [call, ReputationCall.gives, if_pos isGiver]
    | _ =>
        rw [call] at isGiver
        cases isGiver
  · rintro ⟨data, action, member, isGiven⟩
    refine ⟨action, member, ?_⟩
    cases call : action.2 with
    | giveFeedback caller agentId value valueDecimals tag1 tag2 endpoint
        feedbackUri feedbackHash =>
        simp only [call, ReputationCall.gives, Option.ite_none_right_eq_some]
          at isGiven
        rw [ReputationCall.giverTo, if_pos isGiven.1.1, isGiven.1.2]
    | _ =>
        rw [call] at isGiven
        cases isGiven

end

/-! ## The invariant -/

namespace ReputationState

/-- What the store holds after a history of successful calls. -/
structure Remembers (history : List ReputationAction)
    (state : ReputationState) : Prop where
  lastIndex : ∀ agent client,
    state.lastIndex agent client = (given history agent client).length
  unnumbered : ∀ agent client, state.feedback agent client 0 = none
  entry : ∀ agent client index,
    state.feedback agent client (index + 1) =
      (given history agent client)[index]?.map fun data =>
        { data with
          isRevoked :=
            decide (0 < revocations history agent client (index + 1)) }
  revokedOnce : ∀ agent client index,
    revocations history agent client index ≤ 1
  revokedGiven : ∀ agent client index,
    0 < revocations history agent client index →
      index ≤ (given history agent client).length
  clients : ∀ agent, IndexedList (state.clientCount agent)
    (state.clientAtIndex agent) (firstClients history agent)
  known : ∀ agent client, state.clientExists agent client = true ↔
    client ∈ firstClients history agent
  answered : ∀ agent client index,
    0 < state.responseCount agent client index →
      (state.feedback agent client index).isSome = true
  bounded : ∀ agent client, ∀ data ∈ given history agent client,
    -MAX_ABS_VALUE ≤ data.value ∧ data.value ≤ MAX_ABS_VALUE ∧
      data.valueDecimals ≤ 18

namespace Remembers

variable {history : List ReputationAction} {state : ReputationState}

theorem initial : Remembers [] ReputationState.initial where
  lastIndex _ _ := rfl
  unnumbered _ _ := rfl
  entry _ _ _ := rfl
  revokedOnce _ _ _ := Nat.zero_le 1
  revokedGiven _ _ _ none := absurd none (Nat.lt_irrefl 0)
  clients _ := .empty
  known agent client := by simp [ReputationState.initial, firstClients]
  answered _ _ _ none := absurd none (Nat.lt_irrefl 0)
  bounded _ _ data member := nomatch member

/-- The next index of a client is that of no entry. -/
theorem revocations_fresh (remembers : Remembers history state) (agent : Nat)
    (client : Address) :
    revocations history agent client
      ((given history agent client).length + 1) = 0 := by
  by_contra some
  have inside := remembers.revokedGiven agent client _
    (Nat.pos_of_ne_zero some)
  omega

/-- A call that revokes nothing keeps what is known of revocations. -/
theorem revocations_kept {action : ReputationAction}
    (standing : ∀ agent client index,
      action.2.revokes agent client index = false) (agent : Nat)
    (client : Address) (index : Nat) :
    revocations (history ++ [action]) agent client index =
      revocations history agent client index := by
  rw [revocations_snoc, standing]
  rfl

/-- Nor does a call that gives nothing change what was given. -/
theorem given_kept {action : ReputationAction}
    (silent : ∀ agent client, action.2.gives agent client = none)
    (agent : Nat) (client : Address) :
    given (history ++ [action]) agent client =
      given history agent client := by
  rw [given_snoc, silent]
  exact List.append_nil _

theorem firstClients_kept {action : ReputationAction}
    (silent : ∀ agent, action.2.giverTo agent = none) (agent : Nat) :
    firstClients (history ++ [action]) agent =
      firstClients history agent := by
  rw [firstClients_snoc, silent]

section

variable {action : ReputationAction} {counted : ReputationState}
  {caller : Address} {agentId : UInt32} {value : Int}
  {valueDecimals : UInt32} {tag1 tag2 endpoint feedbackUri : Bytes}
  {feedbackHash : Vector UInt8 32}
  (isCall : action.2 = .giveFeedback caller agentId value valueDecimals tag1
    tag2 endpoint feedbackUri feedbackHash)

include isCall

/-- Whom a new entry belongs to. -/
theorem given_giveFeedback (agent : Nat) (client : Address) :
    given (history ++ [action]) agent client =
      if agentId.toNat = agent ∧ caller = client then
        given history agent client ++
          [{ value, valueDecimals := valueDecimals.toNat
             isRevoked := false, tag1, tag2 }]
      else given history agent client := by
  rw [given_snoc, isCall, ReputationCall.gives]
  split <;> simp

/-- The listing after `ensure_client` is that of the history with the call. -/
theorem listed_giveFeedback (remembers : Remembers history state)
    (ensured : state.ensureClient agentId.toNat caller = .ok counted)
    (agent : Nat) :
    IndexedList (counted.clientCount agent) (counted.clientAtIndex agent)
        (firstClients (history ++ [action]) agent) ∧
      ∀ client, counted.clientExists agent client = true ↔
        client ∈ firstClients (history ++ [action]) agent := by
  have before := remembers.clients agent
  have known := remembers.known agent
  simp only [firstClients_snoc, isCall, ReputationCall.giverTo]
  obtain ⟨_, _, _, ⟨old, rfl⟩ | ⟨new, rfl⟩⟩ := ensureClient_ok ensured
  · by_cases mine : agentId.toNat = agent
    · have listed := (remembers.known agentId.toNat caller).mp old
      rw [mine] at listed
      simp only [if_pos mine, if_pos listed]
      exact ⟨before, known⟩
    · simp only [if_neg mine]
      exact ⟨before, known⟩
  · by_cases mine : agentId.toNat = agent
    · have unlisted : caller ∉ firstClients history agent := by
        rw [← mine, ← remembers.known, new]
        exact Bool.false_ne_true
      subst mine
      simp only [if_true, if_neg unlisted, Function.update_self]
      refine ⟨before.push caller, fun client => ?_⟩
      by_cases same : client = caller
      · simp [same]
      · rw [Function.update_of_ne same, known client]
        simp [same]
    · have other : agent ≠ agentId.toNat := fun same => mine same.symm
      simp only [if_neg mine, Function.update_of_ne other]
      exact ⟨before, known⟩

theorem giveFeedback (remembers : Remembers history state)
    (scale : valueDecimals.toNat ≤ 18)
    (range : -MAX_ABS_VALUE ≤ value ∧ value ≤ MAX_ABS_VALUE)
    (ensured : state.ensureClient agentId.toNat caller = .ok counted) :
    Remembers (history ++ [action])
      ((counted.setLastIndex agentId.toNat caller
          (state.lastIndex agentId.toNat caller + 1)).setFeedback
        agentId.toNat caller (state.lastIndex agentId.toNat caller + 1)
        { value, valueDecimals := valueDecimals.toNat, isRevoked := false
          tag1, tag2 }) := by
  obtain ⟨sameFeedback, sameIndex, sameResponses, _⟩ :=
    ensureClient_ok ensured
  have kept : ∀ agent client index,
      revocations (history ++ [action]) agent client index =
        revocations history agent client index :=
    revocations_kept fun _ _ _ => by rw [isCall]; rfl
  have feedback : ∀ agent client index,
      ((counted.setLastIndex agentId.toNat caller
          (state.lastIndex agentId.toNat caller + 1)).setFeedback
        agentId.toNat caller (state.lastIndex agentId.toNat caller + 1)
        { value, valueDecimals := valueDecimals.toNat, isRevoked := false
          tag1, tag2 }).feedback agent client index =
      if agent = agentId.toNat ∧ client = caller ∧
          index = (given history agentId.toNat caller).length + 1 then
        some { value, valueDecimals := valueDecimals.toNat
               isRevoked := false, tag1, tag2 }
      else state.feedback agent client index := by
    intro agent client index
    rw [setFeedback_feedback, remembers.lastIndex]
    simp only [setLastIndex, sameFeedback]
  have listed := remembers.listed_giveFeedback isCall ensured
  constructor
  · intro agent client
    rw [given_giveFeedback isCall]
    simp only [setFeedback, setLastIndex_lastIndex, sameIndex,
      remembers.lastIndex]
    by_cases mine : agentId.toNat = agent ∧ caller = client
    · obtain ⟨rfl, rfl⟩ := mine
      simp
    · rw [if_neg mine, if_neg fun same => mine ⟨same.1.symm, same.2.symm⟩]
  · intro agent client
    rw [feedback, if_neg fun same => by omega]
    exact remembers.unnumbered agent client
  · intro agent client index
    rw [feedback, given_giveFeedback isCall, kept]
    by_cases mine : agentId.toNat = agent ∧ caller = client
    · obtain ⟨rfl, rfl⟩ := mine
      simp only [true_and, Nat.add_right_cancel_iff, if_true]
      by_cases last : index = (given history agentId.toNat caller).length
      · subst last
        rw [if_pos rfl, List.getElem?_concat_length,
          remembers.revocations_fresh]
        rfl
      · rw [if_neg last, remembers.entry, List.getElem?_append]
        split
        · rfl
        · rename_i beyond
          rw [List.getElem?_eq_none (by omega), List.getElem?_eq_none (by
            rw [List.length_singleton]
            omega)]
    · rw [if_neg mine, if_neg fun same => mine ⟨same.1.symm, same.2.1.symm⟩]
      exact remembers.entry agent client index
  · intro agent client index
    rw [kept]
    exact remembers.revokedOnce agent client index
  · intro agent client index revoked
    rw [kept] at revoked
    have inside := remembers.revokedGiven agent client index revoked
    rw [given_snoc, List.length_append]
    omega
  · exact fun agent => (listed agent).1
  · exact fun agent => (listed agent).2
  · intro agent client index answered
    simp only [setFeedback, setLastIndex, sameResponses] at answered
    rw [feedback]
    split
    · rfl
    · exact remembers.answered agent client index answered
  · intro agent client data member
    rw [given_giveFeedback isCall] at member
    split at member
    · rcases List.mem_append.mp member with old | new
      · exact remembers.bounded agent client data old
      · rw [List.mem_singleton.mp new]
        exact ⟨range.1, range.2, scale⟩
    · exact remembers.bounded agent client data member

end

/-- An entry that is there has a number and was given. -/
theorem given_of_found (remembers : Remembers history state) {agent : Nat}
    {client : Address} {index : Nat} {data : FeedbackData}
    (found : state.feedback agent client index = some data) :
    ∃ position original, index = position + 1 ∧
      (given history agent client)[position]? = some original ∧
      data = { original with
        isRevoked := decide (0 < revocations history agent client index) } := by
  cases index with
  | zero =>
      rw [remembers.unnumbered] at found
      cases found
  | succ position =>
      rw [remembers.entry, Option.map_eq_some_iff] at found
      obtain ⟨original, isGiven, rfl⟩ := found
      exact ⟨position, original, rfl, isGiven, rfl⟩

theorem revokeFeedback (remembers : Remembers history state)
    {action : ReputationAction} {caller : Address} {agentId : UInt32}
    {feedbackIndex : UInt64} {data : FeedbackData}
    (isCall : action.2 = .revokeFeedback caller agentId feedbackIndex)
    (found : state.feedback agentId.toNat caller feedbackIndex.toNat =
      some data) (standing : data.isRevoked = false) :
    Remembers (history ++ [action])
      (state.setFeedback agentId.toNat caller feedbackIndex.toNat
        { data with isRevoked := true }) := by
  obtain ⟨position, original, isIndex, isGiven, isData⟩ :=
    remembers.given_of_found found
  have unrevoked :
      revocations history agentId.toNat caller feedbackIndex.toNat = 0 := by
    rw [isData] at standing
    simpa using standing
  have sameGiven : ∀ agent client,
      given (history ++ [action]) agent client =
        given history agent client :=
    given_kept fun _ _ => by rw [isCall]; rfl
  have sameClients : ∀ agent,
      firstClients (history ++ [action]) agent =
        firstClients history agent :=
    firstClients_kept fun _ => by rw [isCall]; rfl
  have counts : ∀ agent client index,
      revocations (history ++ [action]) agent client index =
        if agent = agentId.toNat ∧ client = caller ∧
            index = feedbackIndex.toNat then 1
        else revocations history agent client index := by
    intro agent client index
    rw [revocations_snoc, isCall]
    simp only [ReputationCall.revokes, decide_eq_true_eq]
    by_cases mine : agent = agentId.toNat ∧ client = caller ∧
        index = feedbackIndex.toNat
    · obtain ⟨rfl, rfl, rfl⟩ := mine
      simp [unrevoked]
    · rw [if_neg mine, if_neg fun same =>
        mine ⟨same.1.symm, same.2.1.symm, same.2.2.symm⟩]
      rfl
  constructor
  · intro agent client
    rw [sameGiven]
    exact remembers.lastIndex agent client
  · intro agent client
    rw [setFeedback_feedback, if_neg fun same => by omega]
    exact remembers.unnumbered agent client
  · intro agent client index
    rw [setFeedback_feedback, sameGiven, counts]
    by_cases mine : agent = agentId.toNat ∧ client = caller ∧
        index + 1 = feedbackIndex.toNat
    · rw [if_pos mine]
      obtain ⟨rfl, rfl, isPosition⟩ := mine
      have same : index = position := by omega
      rw [same, isGiven, if_pos ⟨rfl, rfl, isIndex.symm⟩, isData]
      rfl
    · rw [if_neg mine, if_neg mine]
      exact remembers.entry agent client index
  · intro agent client index
    rw [counts]
    split
    · exact Nat.le_refl 1
    · exact remembers.revokedOnce agent client index
  · intro agent client index revoked
    rw [sameGiven]
    rw [counts] at revoked
    split at revoked
    · rename_i mine
      obtain ⟨rfl, rfl, rfl⟩ := mine
      obtain ⟨inside, _⟩ := List.getElem?_eq_some_iff.mp isGiven
      omega
    · exact remembers.revokedGiven agent client index revoked
  · intro agent
    rw [sameClients]
    exact remembers.clients agent
  · intro agent client
    rw [sameClients]
    exact remembers.known agent client
  · intro agent client index answered
    rw [setFeedback_feedback]
    split
    · rfl
    · exact remembers.answered agent client index answered
  · intro agent client data member
    rw [sameGiven] at member
    exact remembers.bounded agent client data member

theorem appendResponse (remembers : Remembers history state)
    {action : ReputationAction} {caller client : Address} {agentId : UInt32}
    {feedbackIndex : UInt64} {responseUri : Bytes}
    {responseHash : Vector UInt8 32} {data : FeedbackData}
    {counts : Nat → Address → Nat → Nat}
    (isCall : action.2 = .appendResponse caller agentId client feedbackIndex
      responseUri responseHash)
    (found : state.feedback agentId.toNat client feedbackIndex.toNat =
      some data)
    (others : ∀ agent other index, ¬ (agent = agentId.toNat ∧
      other = client ∧ index = feedbackIndex.toNat) →
        counts agent other index = state.responseCount agent other index) :
    Remembers (history ++ [action]) { state with responseCount := counts } := by
  have sameGiven : ∀ agent client,
      given (history ++ [action]) agent client =
        given history agent client :=
    given_kept fun _ _ => by rw [isCall]; rfl
  have sameClients : ∀ agent,
      firstClients (history ++ [action]) agent =
        firstClients history agent :=
    firstClients_kept fun _ => by rw [isCall]; rfl
  have kept : ∀ agent client index,
      revocations (history ++ [action]) agent client index =
        revocations history agent client index :=
    revocations_kept fun _ _ _ => by rw [isCall]; rfl
  constructor
  · simpa only [sameGiven] using remembers.lastIndex
  · exact remembers.unnumbered
  · simpa only [sameGiven, kept] using remembers.entry
  · simpa only [kept] using remembers.revokedOnce
  · simpa only [sameGiven, kept] using remembers.revokedGiven
  · simpa only [sameClients] using remembers.clients
  · simpa only [sameClients] using remembers.known
  · intro agent other index answered
    by_cases mine : agent = agentId.toNat ∧ other = client ∧
        index = feedbackIndex.toNat
    · obtain ⟨rfl, rfl, rfl⟩ := mine
      exact Option.isSome_of_eq_some found
    · have before := others agent other index mine
      exact remembers.answered agent other index (before ▸ answered)
  · simpa only [sameGiven] using remembers.bounded

theorem step (remembers : Remembers history state)
    {action : ReputationAction} {after : ReputationState}
    (taken : state.step action = some after) :
    Remembers (history ++ [action]) after := by
  have takes := step_takes taken
  generalize isCall : action.2 = request at takes
  cases takes with
  | giveFeedback caller agentId value valueDecimals tag1 tag2 endpoint
      feedbackUri feedbackHash scale range living outsider ensured room =>
      exact remembers.giveFeedback isCall scale range ensured
  | revokeFeedback caller agentId feedbackIndex found standing =>
      exact remembers.revokeFeedback isCall found standing
  | appendResponse caller agentId client feedbackIndex responseUri
      responseHash found =>
      apply remembers.appendResponse isCall found
      intro agent other index different
      simp only [Function.update_apply]
      by_cases sameAgent : agent = agentId.toNat
      · by_cases sameClient : other = client
        · have sameIndex : index ≠ feedbackIndex.toNat := fun same =>
            different ⟨sameAgent, sameClient, same⟩
          simp [sameAgent, sameClient, sameIndex]
        · simp [sameAgent, sameClient]
      · simp [sameAgent]

theorem run (run : Accepted ReputationState.step .initial history state) :
    Remembers history state :=
  run.invariant Remembers initial fun _ remembers taken =>
    remembers.step taken

end Remembers

/-! ## The storage invariant -/

/-- The six families of keys agree. -/
structure Consistent (state : ReputationState) : Prop where
  feedback_iff : ∀ agent client index,
    (state.feedback agent client index).isSome = true ↔
      1 ≤ index ∧ index ≤ state.lastIndex agent client
  client_iff : ∀ agent client, state.clientExists agent client = true ↔
    1 ≤ state.lastIndex agent client
  position_iff : ∀ agent position,
    (state.clientAtIndex agent position).isSome = true ↔
      position < state.clientCount agent
  /-- Positions and clients correspond one to one. -/
  position_unique : ∀ agent left right client,
    state.clientAtIndex agent left = some client →
      state.clientAtIndex agent right = some client → left = right
  position_onto : ∀ agent client, state.clientExists agent client = true ↔
    ∃ position, state.clientAtIndex agent position = some client
  answered : ∀ agent client index,
    0 < state.responseCount agent client index →
      (state.feedback agent client index).isSome = true
  bounded : ∀ agent client index data,
    state.feedback agent client index = some data →
      -MAX_ABS_VALUE ≤ data.value ∧ data.value ≤ MAX_ABS_VALUE ∧
        data.valueDecimals ≤ 18

theorem Remembers.consistent {history : List ReputationAction}
    {state : ReputationState} (remembers : Remembers history state) :
    state.Consistent where
  feedback_iff agent client index := by
    rw [remembers.lastIndex]
    cases index with
    | zero => simp [remembers.unnumbered]
    | succ index =>
        rw [remembers.entry, Option.isSome_map, Option.isSome_iff_ne_none,
          ne_eq, List.getElem?_eq_none_iff]
        omega
  client_iff agent client := by
    rw [remembers.known, mem_firstClients_iff, remembers.lastIndex]
    rfl
  position_iff agent := (remembers.clients agent).isSome_iff
  position_unique agent _ _ _ :=
    (remembers.clients agent).injective (firstClients_nodup history agent)
  position_onto agent client := by
    rw [remembers.known, (remembers.clients agent).mem_iff]
  answered := remembers.answered
  bounded agent client index data found := by
    obtain ⟨position, original, _, isGiven, rfl⟩ :=
      remembers.given_of_found found
    exact remembers.bounded agent client original
      (List.mem_of_getElem? isGiven)

/-- What is given stays: only its revocation may still come. -/
theorem Remembers.lasting {history more : List ReputationAction}
    {state later : ReputationState} (remembers : Remembers history state)
    (remembersLater : Remembers (history ++ more) later) {agent : Nat}
    {client : Address} {index : Nat} {data : FeedbackData}
    (found : state.feedback agent client index = some data) :
    ∃ isRevoked, later.feedback agent client index =
      some { data with isRevoked } := by
  obtain ⟨position, original, rfl, isGiven, rfl⟩ :=
    remembers.given_of_found found
  have still : (given (history ++ more) agent client)[position]? =
      some original := by
    rw [given, List.filterMap_append]
    exact (List.getElem?_append_left
      (List.getElem?_eq_some_iff.mp isGiven).1).trans isGiven
  rw [remembersLater.entry, still]
  exact ⟨_, rfl⟩

/-- After every run of successful calls the store is consistent, lists the
clients in the order of their first feedback, and holds for ever what each
client gave, revoked exactly when the client revoked it, which succeeds at
most once. -/
theorem storage_history {history : List ReputationAction}
    {state : ReputationState} (run : Accepted step .initial history state) :
    state.Consistent ∧
    (∀ agent, (List.range (state.clientCount agent)).map
        (state.clientAtIndex agent) =
      (firstClients history agent).map some) ∧
    (∀ agent client index, state.feedback agent client (index + 1) =
      (given history agent client)[index]?.map fun data =>
        { data with
          isRevoked :=
            decide (0 < revocations history agent client (index + 1)) }) ∧
    (∀ agent client index, revocations history agent client index ≤ 1) ∧
    ∀ more later, Accepted step state more later →
      ∀ agent client index data,
        state.feedback agent client index = some data →
          ∃ isRevoked, later.feedback agent client index =
            some { data with isRevoked } := by
  have remembers := Remembers.run run
  refine ⟨remembers.consistent, fun agent => (remembers.clients agent).map_range,
    remembers.entry, remembers.revokedOnce, ?_⟩
  intro more later continued agent client index data found
  exact remembers.lasting (Remembers.run (run.append continued)) found

/-- An identity registry with every agent and no one to manage them. -/
def openAnswers : IdentityAnswers :=
  { agentExists := fun _ => true, isAuthorizedOrOwner := fun _ _ => false }

/-- A client gives feedback and revokes it. -/
def revokedHistory : List ReputationAction :=
  [(openAnswers, .giveFeedback secondOwner 0 5 0 ⟨#[]⟩ ⟨#[]⟩ ⟨#[]⟩ ⟨#[]⟩
      (Vector.replicate 32 0)),
    (openAnswers, .revokeFeedback secondOwner 0 1)]

theorem storage_history_revoked :
    ∃ state, Accepted step .initial revokedHistory state ∧
      state.Consistent ∧
      state.feedback 0 secondOwner 1 =
        some { value := 5, valueDecimals := 0, isRevoked := true
               tag1 := ⟨#[]⟩, tag2 := ⟨#[]⟩ } := by
  have run : Accepted step .initial revokedHistory _ := .took (.took .start rfl) rfl
  obtain ⟨consistent, _, entry, _, _⟩ := storage_history run
  exact ⟨_, run, consistent, entry 0 secondOwner 0⟩

end ReputationState

end Stellar8004.Contracts
