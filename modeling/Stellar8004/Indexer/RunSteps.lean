import Stellar8004.Indexer.ContractScans
import Stellar8004.Indexer.RunOnce

/-!
# What a run asks of the lock

A run asks for the lock once, before anything else, with the times it has read
from the clock.  Everything it indexes comes after the lock was given to it,
and every checkpoint it saves carries its own name and a time it has read.
-/

namespace Stellar8004.Indexer

open Program

/-! ## Times of the checkpoints -/

/-- A checkpoint is saved with a time the run has read. -/
def Stamped (runtime : Runtime) (past : Trace) :
    Exchange indexerHost → Prop
  | ⟨.saveCheckpoint _ _ _ now, _⟩ => ∃ time : Nat,
      (⟨.now, time⟩ : Exchange indexerHost) ∈ past ∧
        pgTime runtime (.date (some (Int.ofNat time))) = .ok now
  | _ => True

section

variable {runtime : Runtime} {scan : Scan} {past : Trace}
  {allows : Trace → Exchange indexerHost → Prop}

theorem saveCheckpoint_stamped (contract : ContractName)
    (checkpoint : Checkpoint) (owner : String) :
    (saveCheckpoint runtime contract checkpoint owner).Ensures allows
      (Stamped runtime) past fun _ _ => True := by
  rw [saveCheckpoint, bind_eq, pgNow, bind_eq, call_bind]
  intro (time : Nat) _
  refine ⟨trivial, ?_⟩
  cases written : pgTime runtime (.date (some (Int.ofNat time))) with
  | error message =>
      simp only [written, throws_bind]
      trivial
  | ok now =>
      simp only [written, pure_eq, returns_bind, bind_eq]
      intro (reply : Reply (Nat × Nat)) _
      refine ⟨⟨time, by simp, written⟩, ?_⟩
      cases reply with
      | answered changes =>
          obtain ⟨lock, state⟩ := changes
          simp only [returns_bind, Reply.result]
          split
          · trivial
          · split <;> trivial
      | failed error => trivial
      | lost error => trivial

theorem save_stamped (loop : ScanState) :
    (loop.save runtime scan).Ensures allows (Stamped runtime) past
      fun _ _ => True := by
  unfold ScanState.save
  split
  · trivial
  · rw [bind_eq]
    exact (saveCheckpoint_stamped _ _ _).bind (fun _ _ _ => trivial)
      (fun _ _ _ => trivial) (fun _ _ => trivial)

theorem writeEvents_stamped (contract : ContractName)
    (events : List EventResponse) (skip : Bool) :
    (writeEvents runtime contract events skip).Ensures allows
      (Stamped runtime) past fun _ _ => True := by
  have writes : (writeEvents runtime contract events skip).Ensures allows
      (WriterStep contract skip (events.filterMap (packetOf contract))) past
      (WriterPost runtime contract skip events) := writeEvents_ensures events
  apply (writes.weaken ?_).mono fun _ _ _ => trivial
  intro inside exchange _ step
  obtain ⟨request, reply⟩ := exchange
  cases request with
  | saveCheckpoint => exact absurd step id
  | _ => trivial

theorem writePage_stamped (loop : ScanState) (page : Page) :
    (writePage runtime scan loop page).Ensures allows (Stamped runtime) past
      fun _ _ => True := by
  rw [writePage, bind_eq]
  refine (writeEvents_stamped _ _ _).bind ?_ (fun _ _ _ => trivial)
    (fun _ _ => trivial)
  intro written inside _
  rw [bind_eq, call_bind]
  rintro ⟨⟩ _
  refine ⟨trivial, ?_⟩
  dsimp only
  split
  · trivial
  · split
    · rw [bind_eq]
      exact (save_stamped _).bind (fun _ _ _ => trivial)
        (fun _ _ _ => trivial) (fun _ _ => trivial)
    · trivial

theorem scanPage_stamped (loop : ScanState) :
    (scanPage runtime scan loop).Ensures allows (Stamped runtime) past
      fun _ _ => True := by
  rw [scanPage, bind_eq, call_bind]
  intro (time : Nat) _
  refine ⟨trivial, ?_⟩
  dsimp only
  split
  · trivial
  · rw [bind_eq, call_bind]
    intro (answer : Except Thrown Page) _
    refine ⟨trivial, ?_⟩
    cases answer with
    | error error => trivial
    | ok page => exact writePage_stamped loop page

theorem scanPages_stamped (rounds : Nat) (loop : ScanState) :
    (scanPages runtime scan rounds loop).Ensures allows (Stamped runtime)
      past fun _ _ => True := by
  induction rounds generalizing past loop with
  | zero => trivial
  | succ rounds induction =>
      unfold scanPages
      split
      · rw [bind_eq]
        refine (scanPage_stamped loop).bind ?_ (fun _ _ _ => trivial)
          (fun _ _ => trivial)
        intro round later _
        cases round with
        | stop final stopped => trivial
        | next final => exact induction final
      · trivial

theorem indexContract_stamped (rounds : Nat) (start : Checkpoint) :
    (indexContract runtime rounds scan start).Ensures allows
      (Stamped runtime) past fun _ _ => True := by
  have opens : (openScan runtime scan start).Ensures allows
      (Stamped runtime) past fun _ _ => True := by
    unfold openScan
    split
    · simp only [deadLetter, bind_eq]
      intro (reply : Reply Unit) _
      exact ⟨trivial, save_stamped _⟩
    · trivial
  unfold indexContract
  split
  · trivial
  · rw [bind_eq]
    refine opens.bind ?_ (fun _ _ _ => trivial) (fun _ _ => trivial)
    intro loop opened _
    refine (scanPages_stamped rounds loop).bind ?_ (fun _ _ _ => trivial)
      (fun _ _ => trivial)
    rintro ⟨ended, stopped⟩ scanned _
    exact (save_stamped _).bind (fun _ _ _ => trivial)
      (fun _ _ _ => trivial) (fun _ _ => trivial)

theorem indexEach_stamped (rounds : Nat) (options : IndexOptions)
    (oldest : Nat) (checkpoints : ContractName → Checkpoint)
    (contracts : List ContractName) (head : Nat) (result : IndexResult) :
    (indexEach runtime rounds options oldest checkpoints contracts head
      result).Ensures allows (Stamped runtime) past fun _ _ => True := by
  induction contracts generalizing past head result with
  | nil => trivial
  | cons contract contracts induction =>
      rw [indexEach, bind_eq, call_bind]
      intro (time : Nat) _
      refine ⟨trivial, ?_⟩
      dsimp only
      split
      · trivial
      · rw [bind_eq]
        refine (indexContract_stamped rounds _).bind ?_
          (fun _ _ _ => trivial) (fun _ _ => trivial)
        intro outcome later _
        exact induction _ _

theorem indexContracts_stamped (rounds : Nat) (options : IndexOptions) :
    (indexContracts runtime rounds options).Ensures allows (Stamped runtime)
      past fun _ _ => True := by
  rw [indexContracts, bind_eq]
  refine (readCheckpoints_ensures fun _ => trivial).bind ?_
    (fun _ _ _ => trivial) (fun _ _ => trivial)
  intro rows first _
  rw [bind_eq, call_bind]
  intro (answer : Except Thrown Health) _
  refine ⟨trivial, ?_⟩
  cases answer with
  | error error => trivial
  | ok health =>
      dsimp only
      split
      · trivial
      · exact indexEach_stamped _ _ _ _ _ _ _

end

/-! ## Runs -/

namespace Run

/-- What the run has exchanged of `indexContracts`. -/
def indexTrace (past : List (Exchange runHost)) : Trace :=
  past.filterMap indexing.shows

/-- The run was told that it has the lock. -/
def Acquired (owner : String) (past : List (Exchange runHost)) : Prop :=
  ∃ acquiredAt staleBefore,
    (⟨.acquireLock acquiredAt owner staleBefore,
      .answered (some owner)⟩ : Exchange runHost) ∈ past

/-- The exchanges of a run. -/
def RunStep (runtime : Runtime) (env : Env) (owner : String)
    (streams : Streams) (past : List (Exchange runHost)) :
    Exchange runHost → Prop
  | ⟨.acquireLock acquiredAt asked staleBefore, _⟩ => asked = owner ∧
      ∃ started time : Nat, past = [⟨.now, started⟩, ⟨.now, time⟩] ∧
        pgTime runtime (.date (some (Int.ofNat time))) = .ok acquiredAt ∧
        pgTime runtime (.date (some
          (Int.ofNat time - Int.ofNat LOCK_STALE_MS))) = .ok staleBefore
  | ⟨.releaseLock asked, _⟩ => asked = owner
  | ⟨.index request, reply⟩ => Acquired owner past ∧
      Stamped runtime (indexTrace past) ⟨request, reply⟩ ∧
      ∃ deadlineMs, IndexStep runtime (indexOptions env owner deadlineMs)
        streams (indexTrace past) ⟨request, reply⟩
  | _ => True

/-- The nodes answer the run's requests. -/
def NodesAnswerRun (streams : Streams) (exchange : Exchange runHost) : Prop :=
  ∀ shown, indexing.shows exchange = some shown → NodesAnswer streams shown

section

variable {runtime : Runtime} {env : Env} {owner : String}
  {streams : Streams} {past : List (Exchange runHost)}

theorem acquireLock_ensures
    {allows : List (Exchange runHost) → Exchange runHost → Prop}
    (started : Nat) :
    (acquireLock runtime owner).Ensures allows
      (RunStep runtime env owner streams) [⟨.now, started⟩] fun final now =>
        final = .returned true → Acquired owner now ∧ indexTrace now = [] := by
  rw [acquireLock, bind_eq, call_bind]
  intro (time : Nat) _
  refine ⟨trivial, ?_⟩
  cases acquired : pgTime runtime (.date (some (Int.ofNat time))) with
  | error message =>
      simp only [acquired]
      intro never
      cases never
  | ok acquiredAt =>
      cases stale : pgTime runtime
        (.date (some (Int.ofNat time - Int.ofNat LOCK_STALE_MS))) with
      | error message =>
          simp only [acquired, stale]
          intro never
          cases never
      | ok staleBefore =>
          simp only [acquired, stale]
          rw [bind_eq, call_bind]
          intro (reply : Reply (Option String)) _
          refine ⟨⟨rfl, started, time, rfl, acquired, stale⟩, ?_⟩
          cases reply with
          | answered returned =>
              intro isTrue
              have same : returned = some owner := by
                simpa [Reply.result] using isTrue
              subst same
              exact ⟨⟨acquiredAt, staleBefore, by simp⟩, rfl⟩
          | failed error =>
              intro never
              cases never
          | lost error =>
              intro never
              cases never

theorem releaseLock_ensures
    {allows : List (Exchange runHost) → Exchange runHost → Prop} :
    (releaseLock owner).Ensures allows (RunStep runtime env owner streams)
      past fun _ _ => True := by
  rw [releaseLock, bind_eq, call_bind]
  intro (reply : Reply Unit) _
  exact ⟨rfl, trivial⟩

theorem Acquired.append (acquired : Acquired owner past)
    (later : List (Exchange runHost)) : Acquired owner (past ++ later) := by
  obtain ⟨acquiredAt, staleBefore, member⟩ := acquired
  exact ⟨acquiredAt, staleBefore, List.mem_append_left _ member⟩

theorem indexing_ensures
    (ordered : ∀ contract, ChainOrdered (streams contract))
    (acquired : Acquired owner past) (fresh : indexTrace past = [])
    (rounds deadlineMs : Nat) :
    ((indexContracts runtime rounds
      (indexOptions env owner deadlineMs)).lift indexing).Ensures
      (fun _ => NodesAnswerRun streams) (RunStep runtime env owner streams)
      past fun _ _ => True := by
  have indexes : (indexContracts runtime rounds
      (indexOptions env owner deadlineMs)).Ensures
      (fun _ => NodesAnswer streams)
      (IndexStep runtime (indexOptions env owner deadlineMs) streams) []
      fun _ _ => True :=
    indexContracts_ensures ordered (fun _ _ answered => answered) rounds
  have both := indexes.and (indexContracts_stamped rounds _)
  refine both.lift indexing past
    (fun _ _ asked reply answered => answered _ rfl) ?_
  rintro inside asked reply ⟨step, stamped⟩
  have same : indexTrace (past ++ inside) = inside.filterMap
      indexing.shows := by
    simp only [indexTrace, List.filterMap_append] at fresh ⊢
    rw [fresh, List.nil_append]
  exact ⟨acquired.append inside, same ▸ stamped, deadlineMs, same ▸ step⟩

theorem resolving_ensures :
    (Resolver.resolvePending.lift resolving).Ensures
      (fun _ => NodesAnswerRun streams) (RunStep runtime env owner streams)
      past fun _ _ => True := by
  have anything : Resolver.resolvePending.Ensures (fun _ _ => True)
      (fun _ _ => True) [] fun _ _ => True :=
    ensures_of_forall (fun _ _ => trivial) _
  exact anything.lift resolving past (fun _ _ _ _ _ => trivial)
    (fun _ _ _ _ => trivial)

theorem whileLocked_ensures
    (ordered : ∀ contract, ChainOrdered (streams contract))
    (acquired : Acquired owner past) (fresh : indexTrace past = [])
    (rounds deadlineMs : Nat) :
    (whileLocked runtime rounds env owner deadlineMs).Ensures
      (fun _ => NodesAnswerRun streams) (RunStep runtime env owner streams)
      past fun _ _ => True := by
  rw [whileLocked, bind_eq, call_bind]
  intro (connected : Except Thrown Unit) _
  refine ⟨trivial, ?_⟩
  cases connected with
  | error error => trivial
  | ok _ =>
      dsimp only
      rw [bind_eq, call_bind]
      intro (network : Except Thrown String) _
      refine ⟨trivial, ?_⟩
      cases network with
      | error error => trivial
      | ok passphrase =>
          dsimp only
          split
          · trivial
          · rw [bind_eq]
            generalize isBefore : past ++ [⟨.connect (urls env), .ok _⟩] ++
              [⟨.getNetwork, .ok passphrase⟩] = before
            have still : Acquired owner before :=
              isBefore ▸ (acquired.append _).append _
            have quiet : indexTrace before = [] := by
              rw [← isBefore]
              simp only [indexTrace, List.filterMap_append] at fresh ⊢
              rw [fresh]
              rfl
            refine (indexing_ensures ordered still quiet rounds
              deadlineMs).bind ?_ (fun _ _ _ => trivial) (fun _ _ => trivial)
            intro indexed later _
            exact resolving_ensures.bind (fun _ _ _ => trivial)
              (fun _ _ _ => trivial) (fun _ _ => trivial)

theorem runOnce_ensures
    (ordered : ∀ contract, ChainOrdered (streams contract)) (rounds : Nat) :
    (runOnce runtime rounds env owner).Ensures
      (fun _ => NodesAnswerRun streams) (RunStep runtime env owner streams)
      [] fun _ _ => True := by
  unfold runOnce
  split
  · trivial
  · split
    · trivial
    · rw [bind_eq, call_bind]
      intro (started : Nat) _
      refine ⟨trivial, ?_⟩
      dsimp only
      rw [bind_eq]
      refine (acquireLock_ensures started).bind ?_ (fun _ _ _ => trivial)
        (fun _ _ => trivial)
      intro acquired later isAcquired
      cases acquired with
      | false => trivial
      | true =>
          obtain ⟨told, fresh⟩ := isAcquired rfl
          apply (whileLocked_ensures ordered told fresh rounds _).andFinally
          exact fun _ => releaseLock_ensures

end

end Run

end Stellar8004.Indexer
