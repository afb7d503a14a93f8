import Stellar8004.Contracts.ReputationStorage
import Stellar8004.Contracts.ValidationStorage
import Stellar8004.Library.PagedList

/-!
# Paginated reads

Three lists of the registries are read by pages: the clients of an agent, the
validations of an agent and the requests to a validator.
-/

namespace Stellar8004.Contracts

def ReputationState.getClientsPaginated (state : ReputationState)
    (agentId start limit : UInt32) : List Address :=
  listPage (state.clientCount agentId.toNat)
    (state.clientAtIndex agentId.toNat) start limit

def ValidationState.getAgentValidationsPaginated (state : ValidationState)
    (agentId start limit : UInt32) : List (Vector UInt8 32) :=
  listPage (state.agentValidationCount agentId.toNat)
    (state.agentValidationAt agentId.toNat) start limit

def ValidationState.getValidatorRequestsPaginated (state : ValidationState)
    (validator : Address) (start limit : UInt32) : List (Vector UInt8 32) :=
  listPage (state.validatorRequestCount validator)
    (state.validatorRequestAt validator) start limit

/-! ## The lists only grow -/

theorem firstClients_grows (agent : Nat) (history more : List ReputationAction) :
    firstClients history agent <+: firstClients (history ++ more) agent := by
  simp only [firstClients, List.filterMap_append, List.eraseDups_append]
  exact List.prefix_append _ _

theorem listings_append (history more : List ValidationAction) :
    listings (history ++ more) = listings history ++ listings more :=
  List.filterMap_append

theorem agentRequests_grows (agent : Nat)
    (history more : List ValidationAction) :
    agentRequests history agent <+: agentRequests (history ++ more) agent := by
  simp only [agentRequests, listings_append, List.filter_append,
    List.map_append]
  exact List.prefix_append _ _

theorem validatorRequests_grows (validator : Address)
    (history more : List ValidationAction) :
    validatorRequests history validator <+:
      validatorRequests (history ++ more) validator := by
  simp only [validatorRequests, listings_append, List.filter_append,
    List.map_append]
  exact List.prefix_append _ _

/-! ## The reads -/

theorem getClientsPaginated_tiles (agentId : UInt32) :
    Tiles ReputationState.step .initial
      (fun state => state.getClientsPaginated agentId)
      (fun history => firstClients history agentId.toNat) := by
  apply Tiles.of_indexed
  · intro history state run
    exact (ReputationState.Remembers.run run).clients agentId.toNat
  · intro history state run
    exact ReputationState.clientCount_lt run agentId.toNat
  · exact firstClients_grows agentId.toNat
  · intro history state _
    exact firstClients_nodup history agentId.toNat

theorem getAgentValidationsPaginated_tiles (agentId : UInt32) :
    Tiles ValidationState.step .initial
      (fun state => state.getAgentValidationsPaginated agentId)
      (fun history => agentRequests history agentId.toNat) := by
  apply Tiles.of_indexed
  · intro history state run
    exact (ValidationState.Remembers.run run).agents agentId.toNat
  · intro history state run
    exact (ValidationState.Counted.run run).agents agentId.toNat
  · exact agentRequests_grows agentId.toNat
  · intro history state run
    have remembers := ValidationState.Remembers.run run
    exact remembers.distinct.sublist (List.filter_sublist.map _)

theorem getValidatorRequestsPaginated_tiles (validator : Address) :
    Tiles ValidationState.step .initial
      (fun state => state.getValidatorRequestsPaginated validator)
      (fun history => validatorRequests history validator) := by
  apply Tiles.of_indexed
  · intro history state run
    exact (ValidationState.Remembers.run run).validators validator
  · intro history state run
    exact (ValidationState.Counted.run run).validators validator
  · exact validatorRequests_grows validator
  · intro history state run
    have remembers := ValidationState.Remembers.run run
    exact remembers.distinct.sublist (List.filter_sublist.map _)

/-- Every page, from any start and with any limit, is a slice of the list in
the order of its appends.  A reader that advances by what it receives, while
other calls go on between its reads, collects the beginning of the list, and
all of it once a page is empty. -/
theorem pages_tile :
    (∀ agentId : UInt32, Tiles ReputationState.step .initial
      (fun state => state.getClientsPaginated agentId)
      (fun history => firstClients history agentId.toNat)) ∧
    (∀ agentId : UInt32, Tiles ValidationState.step .initial
      (fun state => state.getAgentValidationsPaginated agentId)
      (fun history => agentRequests history agentId.toNat)) ∧
    ∀ validator : Address, Tiles ValidationState.step .initial
      (fun state => state.getValidatorRequestsPaginated validator)
      (fun history => validatorRequests history validator) :=
  ⟨getClientsPaginated_tiles, getAgentValidationsPaginated_tiles,
    getValidatorRequestsPaginated_tiles⟩

end Stellar8004.Contracts
