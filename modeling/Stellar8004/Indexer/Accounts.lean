import Stellar8004.Indexer.Writer

/-!
# What a call of `writeEvents` accounts for

Whatever the database answers, a call that returns without deferring has
ignored, dead-lettered or written every one of its events, and a call that
defers ends at a statement that failed on a constraint.
-/

namespace Stellar8004.Indexer

abbrev Trace := List (Exchange indexerHost)

/-- The statement of `write`, run by itself, failed on a constraint. -/
def ConstraintFailed (write : EventWrite) (error : Thrown)
    (failure : Failure) : Exchange indexerHost → Prop
  | ⟨.run ran, reply⟩ =>
      ran = write ∧ reply.result = .error error ∧
        constraintFailure error = some failure
  | _ => False

/-- A statement or a batch failed, and not on a constraint. -/
def Faulted (error : Thrown) : Exchange indexerHost → Prop
  | ⟨.run _, reply⟩ =>
      reply.result = .error error ∧ constraintFailure error = none
  | ⟨.batch _, reply⟩ =>
      reply.result = .error error ∧ constraintFailure error = none
  | _ => False

/-- The write carries the statement of its packet. -/
def EventWrite.Bound (runtime : Runtime) (write : EventWrite) : Prop :=
  ∃ now, eventStatement runtime write.packet now = .ok write.statement

/-- The statement of a packet ran without error. -/
def Ran (runtime : Runtime) (packet : EventPacket) (trace : Trace) : Prop :=
  ∃ write : EventWrite, write.packet = packet ∧ write.Bound runtime ∧
    ((∃ writes changes, write ∈ writes ∧
      (⟨.batch writes, .answered changes⟩ : Exchange indexerHost) ∈ trace) ∨
    ∃ count,
      (⟨.run write, .answered count⟩ : Exchange indexerHost) ∈ trace)

/-- The statement of a packet failed on a constraint and was
dead-lettered. -/
def Skipped (contract : ContractName) (packet : EventPacket)
    (trace : Trace) : Prop :=
  ∃ write error failure reply, write.packet = packet ∧
    (∃ exchange ∈ trace, ConstraintFailed write error failure exchange) ∧
    (⟨.deadLetter (skipEntry contract packet error failure), reply⟩ :
      Exchange indexerHost) ∈ trace

/-- What a call does with one of its events. -/
inductive Accounted (runtime : Runtime) (contract : ContractName)
    (skip : Bool) (trace : Trace) (event : EventResponse) : Prop where
  | ignored (reason : IgnoreReason)
      (interpreted : interpret contract event = .ignored reason)
  | unparseable (reason : String) (reply : Reply Unit)
      (interpreted : interpret contract event = .invalid reason)
      (recorded : (⟨.deadLetter (unparseableEntry contract event reason),
        reply⟩ : Exchange indexerHost) ∈ trace)
  | written (packet : EventPacket)
      (parsed : packetOf contract event = some packet)
      (ran : Ran runtime packet trace)
  | skipped (packet : EventPacket)
      (parsed : packetOf contract event = some packet)
      (armed : skip = true) (passed : Skipped contract packet trace)

/-- The exchanges of a call that writes `packets`.  An event is skipped only
when skipping is armed and right after its statement failed on a
constraint. -/
def WriterStep (contract : ContractName) (skip : Bool)
    (packets : List EventPacket) (past : Trace) :
    Exchange indexerHost → Prop
  | ⟨.deadLetter entry, _⟩ =>
      (∃ event reason, interpret contract event = .invalid reason ∧
        entry = unparseableEntry contract event reason) ∨
      skip = true ∧ ∃ before exchange write error failure,
        past = before ++ [exchange] ∧
        ConstraintFailed write error failure exchange ∧
        entry = skipEntry contract write.packet error failure
  | ⟨.now, _⟩ => True
  | ⟨.batch writes, _⟩ => ∀ write ∈ writes, write.packet ∈ packets
  | ⟨.run write, _⟩ => write.packet ∈ packets
  | ⟨.recordMissing _, _⟩ => True
  | _ => False

/-- A call that defers ends at a statement of one of its packets that failed
on a constraint. -/
def DeferredAt (packet : EventPacket) (trace : Trace) : Prop :=
  ∃ before exchange write error failure, trace = before ++ [exchange] ∧
    write.packet = packet ∧ ConstraintFailed write error failure exchange

theorem Ran.append {runtime : Runtime} {packet : EventPacket}
    {trace : Trace} (ran : Ran runtime packet trace) (later : Trace) :
    Ran runtime packet (trace ++ later) := by
  obtain ⟨write, same, bound, ⟨writes, changes, member, exchanged⟩ |
    ⟨count, exchanged⟩⟩ := ran
  · exact ⟨write, same, bound, .inl ⟨writes, changes, member,
      List.mem_append_left _ exchanged⟩⟩
  · exact ⟨write, same, bound, .inr ⟨count,
      List.mem_append_left _ exchanged⟩⟩

theorem Skipped.append {contract : ContractName} {packet : EventPacket}
    {trace : Trace} (skipped : Skipped contract packet trace)
    (later : Trace) : Skipped contract packet (trace ++ later) := by
  obtain ⟨write, error, failure, reply, same, ⟨exchange, member, failed⟩,
    recorded⟩ := skipped
  exact ⟨write, error, failure, reply, same,
    ⟨exchange, List.mem_append_left _ member, failed⟩,
    List.mem_append_left _ recorded⟩

/-- A packet is written, or skipped while skipping is armed. -/
def Settled (runtime : Runtime) (contract : ContractName) (skip : Bool)
    (packet : EventPacket) (trace : Trace) : Prop :=
  Ran runtime packet trace ∨ skip = true ∧ Skipped contract packet trace

theorem Settled.append {runtime : Runtime} {contract : ContractName}
    {skip : Bool} {packet : EventPacket} {trace : Trace}
    (settled : Settled runtime contract skip packet trace) (later : Trace) :
    Settled runtime contract skip packet (trace ++ later) :=
  settled.imp (·.append later) fun passed =>
    ⟨passed.1, passed.2.append later⟩

section

variable {runtime : Runtime} {contract : ContractName} {skip : Bool}
  {packets : List EventPacket}
  {allows : Trace → Exchange indexerHost → Prop} {past : Trace}

open Program

/-- What `replay` ensures of its batch. -/
def ReplayPost (runtime : Runtime) (contract : ContractName) (skip : Bool)
    (packets : List EventPacket) :
    Final indexerHost Replayed → Trace → Prop
  | .returned (.finished _ _), now =>
      ∀ packet ∈ packets, Settled runtime contract skip packet now
  | .returned (.deferred _), now =>
      skip = false ∧ ∃ packet ∈ packets, DeferredAt packet now
  | .threw error, now => ∃ exchange ∈ now, Faulted error exchange
  | .unfinished, _ => False

theorem ReplayPost.cons {packet : EventPacket} {others : List EventPacket}
    {final : Final indexerHost Replayed} {now : Trace}
    (post : ReplayPost runtime contract skip others final now)
    (settled : Settled runtime contract skip packet now) :
    ReplayPost runtime contract skip (packet :: others) final now := by
  match final, post with
  | .returned (.finished _ _), all =>
      exact List.forall_mem_cons.mpr ⟨settled, all⟩
  | .returned (.deferred _), ⟨unarmed, other, member, stopped⟩ =>
      exact ⟨unarmed, other, List.mem_cons_of_mem _ member, stopped⟩
  | .threw _, fault => exact fault

theorem replay_ensures {writes : List EventWrite}
    (bound : ∀ write ∈ writes, write.Bound runtime)
    (own : ∀ write ∈ writes, write.packet ∈ packets)
    (changes : List (Option Nat)) (skipped : Nat) :
    (replay contract skip writes changes skipped).Ensures allows
      (WriterStep contract skip packets) past
      (ReplayPost runtime contract skip
        (writes.map EventWrite.packet)) := by
  induction writes generalizing past changes skipped with
  | nil => exact fun packet member => nomatch member
  | cons write writes induction =>
      have later := fun other member =>
        bound other (List.mem_cons_of_mem write member)
      have ownLater := fun other member =>
        own other (List.mem_cons_of_mem write member)
      rw [replay, bind_eq, call_bind]
      intro (reply : Reply Nat) _
      refine ⟨own write List.mem_cons_self, ?_⟩
      cases answer : reply.result with
      | ok count =>
          have isAnswered : reply = .answered count := by
            cases reply <;> cases answer
            rfl
          subst isAnswered
          refine (induction later ownLater _ _).mono fun final after post =>
            post.cons (Settled.append (.inl ?_) after)
          exact ⟨write, rfl, bound write List.mem_cons_self, .inr ⟨count,
            by simp⟩⟩
      | error error =>
          cases failed : constraintFailure error with
          | none =>
              simp only [answer, failed]
              exact ⟨⟨.run write, reply⟩, by simp, answer, failed⟩
          | some failure =>
              have stopped : ConstraintFailed write error failure
                  ⟨.run write, reply⟩ := ⟨rfl, answer, failed⟩
              simp only [answer, failed]
              cases skip with
              | false =>
                  exact ⟨rfl, write.packet, by simp, past, _, write, error,
                    failure, rfl, rfl, stopped⟩
              | true =>
                  intro (recorded : Reply Unit) _
                  refine ⟨.inr ⟨rfl, past, _, write, error, failure, rfl,
                    stopped, rfl⟩, ?_⟩
                  refine (induction later ownLater _ _).mono fun final after post =>
                    post.cons (Settled.append (.inr ⟨rfl, ?_⟩) after)
                  exact ⟨write, error, failure, recorded, rfl,
                    ⟨_, by simp, stopped⟩, by simp⟩

theorem writeBatch_ensures {writes : List EventWrite}
    (bound : ∀ write ∈ writes, write.Bound runtime)
    (own : ∀ write ∈ writes, write.packet ∈ packets) :
    (writeBatch contract skip writes).Ensures allows
      (WriterStep contract skip packets) past
      (ReplayPost runtime contract skip
        (writes.map EventWrite.packet)) := by
  rw [writeBatch, bind_eq, call_bind]
  intro (reply : Reply (List Nat)) _
  refine ⟨own, ?_⟩
  cases answer : reply.result with
  | ok changes =>
      have isAnswered : reply = .answered changes := by
        cases reply <;> cases answer
        rfl
      subst isAnswered
      intro packet member
      obtain ⟨write, inside, rfl⟩ := List.mem_map.mp member
      exact .inl ⟨write, rfl, bound write inside,
        .inl ⟨writes, changes, inside, by simp⟩⟩
  | error error =>
      cases failed : constraintFailure error with
      | none =>
          simp only [answer, failed]
          exact ⟨⟨.batch writes, reply⟩, by simp, answer, failed⟩
      | some failure =>
          simp only [answer, failed]
          exact replay_ensures bound own [] 0

theorem recordMissingParents_ensures (updates : List EventPacket) :
    (recordMissingParents updates).Ensures allows (WriterStep contract skip packets)
      past fun final _ => ∃ recorded, final = .returned recorded := by
  unfold recordMissingParents
  split
  · exact ⟨0, rfl⟩
  · rw [bind_eq, call_bind]
    intro (reply : Reply (List Nat)) _
    refine ⟨trivial, ?_⟩
    cases answer : reply.result with
    | ok changes =>
        simp only [answer]
        exact ⟨_, rfl⟩
    | error error =>
        simp only [answer]
        exact ⟨0, rfl⟩

/-- The clock's time cannot be written. -/
def ClockFailed (runtime : Runtime) (trace : Trace) : Prop :=
  ∃ (time : Nat) (message : String),
    (⟨.now, time⟩ : Exchange indexerHost) ∈ trace ∧
      pgTime runtime (.date (some (Int.ofNat time))) = .error message

theorem pgNow_ensures {permits : Trace → Exchange indexerHost → Prop}
    (asks : ∀ time : Nat, permits past ⟨.now, time⟩) :
    (pgNow runtime).Ensures allows permits past fun final now =>
      (∃ text, final = .returned text) ∨
        (∃ error, final = .threw error) ∧ ClockFailed runtime now := by
  rw [pgNow, bind_eq, call_bind]
  intro (time : Nat) _
  refine ⟨asks time, ?_⟩
  cases written : pgTime runtime (.date (some (Int.ofNat time))) with
  | ok text =>
      simp only [written]
      exact .inl ⟨text, rfl⟩
  | error message =>
      simp only [written]
      exact .inr ⟨⟨_, rfl⟩, time, message, by simp, written⟩

/-- What `readEvents` ensures. -/
def ReadPost (contract : ContractName) (events : List EventResponse) :
    Final indexerHost (List EventPacket × Nat) → Trace → Prop
  | .returned (packets, _), now =>
      packets = events.filterMap (packetOf contract) ∧
        ∀ event ∈ events, ∀ reason,
          interpret contract event = .invalid reason →
            ∃ reply : Reply Unit,
              (⟨.deadLetter (unparseableEntry contract event reason),
                reply⟩ : Exchange indexerHost) ∈ now
  | _, _ => False

private theorem ReadPost.map {events : List EventResponse}
    {program : IndexerTask (List EventPacket × Nat)}
    (change : List EventPacket × Nat → List EventPacket × Nat)
    {post : Final indexerHost (List EventPacket × Nat) → Trace → Prop}
    (ensures : program.Ensures allows (WriterStep contract skip packets) past
      (ReadPost contract events))
    (implies : ∀ read later,
      ReadPost contract events (.returned read) (past ++ later) →
        post (.returned (change read)) (past ++ later)) :
    (program.bind fun read => returns (change read)).Ensures allows
      (WriterStep contract skip packets) past post :=
  ensures.bind (fun read later holds => implies read later holds)
    (fun _ _ holds => nomatch holds) (fun _ holds => nomatch holds)

theorem readEvents_ensures (events : List EventResponse) :
    (readEvents contract events).Ensures allows (WriterStep contract skip packets)
      past (ReadPost contract events) := by
  induction events generalizing past with
  | nil => exact ⟨rfl, fun event member => nomatch member⟩
  | cons event events induction =>
      unfold readEvents
      cases interpreted : interpret contract event with
      | parsed data =>
          simp only [bind_eq, pure_eq]
          refine ReadPost.map (fun read => (_ :: read.1, read.2)) induction ?_
          rintro ⟨packets, skipped⟩ later ⟨same, recorded⟩
          refine ⟨by simp [packetOf, interpreted, same], ?_⟩
          rintro other (_ | ⟨_, member⟩) reason invalid
          · rw [interpreted] at invalid
            cases invalid
          · exact recorded other member reason invalid
      | ignored why =>
          refine induction.mono fun final later post => ?_
          match final, post with
          | .returned (packets, skipped), ⟨same, recorded⟩ =>
              refine ⟨by simp [packetOf, interpreted, same], ?_⟩
              rintro other (_ | ⟨_, member⟩) reason invalid
              · rw [interpreted] at invalid
                cases invalid
              · exact recorded other member reason invalid
      | invalid why =>
          simp only [bind_eq, pure_eq, deadLetter]
          intro (reply : Reply Unit) _
          refine ⟨.inl ⟨event, why, interpreted, rfl⟩, ?_⟩
          refine ReadPost.map (fun read => (read.1, read.2 + 1)) induction ?_
          rintro ⟨packets, skipped⟩ later ⟨same, recorded⟩
          refine ⟨by simp [packetOf, interpreted, same], ?_⟩
          rintro other (_ | ⟨_, member⟩) reason invalid
          · rw [interpreted] at invalid
            cases invalid
            exact ⟨reply, by simp⟩
          · exact recorded other member reason invalid

theorem mapM_eventWrite_ok {now : String}
    {packets : List EventPacket} {writes : List EventWrite}
    (bound : packets.mapM (eventWrite runtime now) = .ok writes) :
    writes.map EventWrite.packet = packets ∧
      ∀ write ∈ writes, write.Bound runtime := by
  induction packets generalizing writes with
  | nil =>
      cases bound
      exact ⟨rfl, fun write member => nomatch member⟩
  | cons packet packets induction =>
      rw [List.mapM_cons] at bound
      cases statement : eventStatement runtime packet now with
      | error message =>
          simp [eventWrite, statement, bind, Except.bind] at bound
      | ok bound' =>
          cases rest : packets.mapM (eventWrite runtime now) with
          | error message =>
              simp [eventWrite, statement, rest, bind, Except.bind, pure,
                Except.pure] at bound
          | ok others =>
              simp only [eventWrite, statement, rest, bind, Except.bind, pure,
                Except.pure, Except.ok.injEq] at bound
              subst bound
              obtain ⟨same, all⟩ := induction rest
              exact ⟨by simp [same],
                List.forall_mem_cons.mpr ⟨⟨now, statement⟩, all⟩⟩

private theorem mapM_eventWrite_error {now message : String}
    {packets : List EventPacket}
    (failed : packets.mapM (eventWrite runtime now) = .error message) :
    ∃ packet ∈ packets,
      eventStatement runtime packet now = .error message := by
  induction packets with
  | nil => cases failed
  | cons packet packets induction =>
      rw [List.mapM_cons] at failed
      cases statement : eventStatement runtime packet now with
      | error other =>
          simp only [eventWrite, statement, bind, Except.bind,
            Except.error.injEq] at failed
          exact ⟨packet, List.mem_cons_self, by rw [statement, failed]⟩
      | ok bound =>
          cases rest : packets.mapM (eventWrite runtime now) with
          | error other =>
              simp only [eventWrite, statement, rest, bind, Except.bind, pure,
                Except.pure, Except.error.injEq] at failed
              obtain ⟨found, member, reason⟩ := induction (by rw [rest, failed])
              exact ⟨found, List.mem_cons_of_mem _ member, reason⟩
          | ok others =>
              simp [eventWrite, statement, rest, bind, Except.bind, pure,
                Except.pure] at failed

/-- A packet whose statement cannot be bound. -/
def Unbound (runtime : Runtime) (packet : EventPacket) : Prop :=
  ∃ now message, eventStatement runtime packet now = .error message

/-- What `writeBatches` ensures of its packets. -/
def BatchesPost (runtime : Runtime) (contract : ContractName) (skip : Bool)
    (packets : List EventPacket) :
    Final indexerHost Written → Trace → Prop
  | .returned result, now =>
      (result.deferred = false →
        ∀ packet ∈ packets, Settled runtime contract skip packet now) ∧
      (result.deferred = true →
        skip = false ∧ ∃ packet ∈ packets, DeferredAt packet now)
  | .threw error, now =>
      (∃ exchange ∈ now, Faulted error exchange) ∨
        ∃ packet ∈ packets, Unbound runtime packet
  | .unfinished, _ => False

theorem writeBatches_ensures (now : String)
    (chunks : List (List EventPacket)) (processed skipped : Nat)
    (own : ∀ packet ∈ chunks.flatten, packet ∈ packets) :
    (writeBatches runtime contract skip now chunks processed
      skipped).Ensures allows (WriterStep contract skip packets) past
      (BatchesPost runtime contract skip chunks.flatten) := by
  induction chunks generalizing past processed skipped with
  | nil =>
      exact ⟨fun _ packet member => (nomatch member),
        fun deferred => (nomatch deferred)⟩
  | cons chunk chunks induction =>
      unfold writeBatches
      cases bound : chunk.mapM (eventWrite runtime now) with
      | error message =>
          obtain ⟨packet, member, failed⟩ := mapM_eventWrite_error bound
          exact .inr ⟨packet,
            List.mem_flatten.mpr ⟨chunk, List.mem_cons_self, member⟩, now,
            message, failed⟩
      | ok writes =>
          simp only [bind_eq]
          obtain ⟨same, all⟩ := mapM_eventWrite_ok bound
          have ownHere : ∀ write ∈ writes, write.packet ∈ packets := by
            intro write member
            apply own
            rw [List.flatten_cons, List.mem_append, ← same]
            exact .inl (List.mem_map_of_mem member)
          refine (writeBatch_ensures all ownHere).bind ?_ ?_ ?_
          · intro replayed later post
            rw [same] at post
            cases replayed with
            | deferred written =>
                refine ⟨fun finished => (nomatch finished), fun _ => ?_⟩
                obtain ⟨unarmed, packet, member, stopped⟩ := post
                exact ⟨unarmed, packet, List.mem_flatten.mpr
                  ⟨chunk, List.mem_cons_self, member⟩, stopped⟩
            | finished changes more =>
                refine (recordMissingParents_ensures _).bind ?_ ?_ ?_
                · intro recorded after _
                  refine (induction _ _ fun packet member => own packet (by
                    rw [List.flatten_cons]
                    exact List.mem_append_right _ member)).mono ?_
                  intro final rest holds
                  match final, holds with
                  | .returned result, ⟨settled, deferred⟩ =>
                      refine ⟨fun finished => ?_, fun stopped => ?_⟩
                      · intro packet member
                        rw [List.flatten_cons, List.mem_append] at member
                        rcases member with here | there
                        · exact ((post packet here).append after).append rest
                        · exact settled finished packet there
                      · obtain ⟨unarmed, packet, member, at_⟩ :=
                          deferred stopped
                        exact ⟨unarmed, packet, by
                          rw [List.flatten_cons]
                          exact List.mem_append_right _ member, at_⟩
                  | .threw error, .inl fault => exact .inl fault
                  | .threw error, .inr ⟨packet, member, unbound⟩ =>
                      refine .inr ⟨packet, ?_, unbound⟩
                      rw [List.flatten_cons]
                      exact List.mem_append_right _ member
                · rintro error after ⟨recorded, returned⟩
                  cases returned
                · rintro after ⟨recorded, returned⟩
                  cases returned
          · intro error later fault
            exact .inl fault
          · intro later impossible
            exact impossible

/-- What `writeEvents` ensures of its events. -/
def WriterPost (runtime : Runtime) (contract : ContractName) (skip : Bool)
    (events : List EventResponse) :
    Final indexerHost Written → Trace → Prop
  | .returned result, now =>
      (result.deferred = false →
        ∀ event ∈ events, Accounted runtime contract skip now event) ∧
      (result.deferred = true → skip = false ∧
        ∃ packet ∈ events.filterMap (packetOf contract),
          DeferredAt packet now)
  | .threw error, now =>
      (∃ exchange ∈ now, Faulted error exchange) ∨ ClockFailed runtime now ∨
        ∃ packet ∈ events.filterMap (packetOf contract),
          Unbound runtime packet
  | .unfinished, _ => False

theorem writeEvents_ensures (events : List EventResponse) :
    (writeEvents runtime contract events skip).Ensures allows
      (WriterStep contract skip (events.filterMap (packetOf contract))) past
      (WriterPost runtime contract skip events) := by
  rw [writeEvents, bind_eq]
  refine (readEvents_ensures events).bind ?_ (fun _ _ holds => nomatch holds)
    (fun _ holds => nomatch holds)
  rintro ⟨read, skipped⟩ later ⟨rfl, recorded⟩
  simp only [bind_eq]
  refine (pgNow_ensures fun _ => trivial).bind ?_ ?_ ?_
  · intro now clock _
    refine (writeBatches_ensures now _ 0 skipped fun packet member => ?_).mono
      ?_
    · rw [flatten_batches] at member
      exact mem_parentsFirst.mp member
    intro final rest holds
    rw [flatten_batches] at holds
    match final, holds with
    | .returned result, ⟨settled, deferred⟩ =>
        refine ⟨fun finished event member => ?_, fun stopped => ?_⟩
        · cases interpreted : interpret contract event with
          | ignored reason => exact .ignored reason interpreted
          | invalid reason =>
              obtain ⟨reply, exchanged⟩ :=
                recorded event member reason interpreted
              exact .unparseable reason reply interpreted
                (List.mem_append_left _ (List.mem_append_left _ exchanged))
          | parsed data =>
              have parsed : packetOf contract event =
                  some { id := event.id, contract, data } := by
                simp [packetOf, interpreted]
              rcases settled finished _ (mem_parentsFirst.mpr
                (List.mem_filterMap.mpr ⟨event, member, parsed⟩)) with
                ran | ⟨armed, passed⟩
              · exact .written _ parsed ran
              · exact .skipped _ parsed armed passed
        · obtain ⟨unarmed, packet, member, at_⟩ := deferred stopped
          exact ⟨unarmed, packet, mem_parentsFirst.mp member, at_⟩
    | .threw error, .inl fault => exact .inl fault
    | .threw error, .inr ⟨packet, member, unbound⟩ =>
        exact .inr (.inr ⟨packet, mem_parentsFirst.mp member, unbound⟩)
  · rintro error clock (⟨text, returned⟩ | ⟨_, failed⟩)
    · cases returned
    · exact .inr (.inl failed)
  · rintro clock (⟨text, returned⟩ | ⟨⟨error, threw⟩, _⟩)
    · cases returned
    · cases threw

end

end Stellar8004.Indexer
