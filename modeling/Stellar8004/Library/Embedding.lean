import Stellar8004.Library.Program

/-!
# Programs inside programs

A program may run as part of one whose host understands more requests, and a
clean-up may follow it however it ends.  What the smaller program ensures of
its own exchanges it ensures inside the larger one.
-/

/-- The requests of one host among those of another. -/
structure Embedding (small large : Interface) where
  request : small.Request → large.Request
  answer : (asked : small.Request) → large.Answer (request asked) →
    small.Answer asked
  error : small.Error → large.Error
  shows : Exchange large → Option (Exchange small)
  shows_request : ∀ asked reply,
    shows ⟨request asked, reply⟩ = some ⟨asked, answer asked reply⟩

namespace Program

variable {small large host : Interface} {α : Type}

def lift (embedding : Embedding small large) :
    Program small α → Program large α
  | returns value => returns value
  | throws error => throws (embedding.error error)
  | unfinished => unfinished
  | asks request next => asks (embedding.request request) fun reply =>
      (next (embedding.answer request reply)).lift embedding

/-- `try` and `finally`. -/
def andFinally : Program host α → Program host Unit → Program host α
  | returns value, cleanup => cleanup.bind fun _ => returns value
  | throws error, cleanup => cleanup.bind fun _ => throws error
  | unfinished, _ => unfinished
  | asks request next, cleanup => asks request fun answer =>
      (next answer).andFinally cleanup

variable {allows permits : List (Exchange small) → Exchange small → Prop}
  {admits others : List (Exchange large) → Exchange large → Prop}

/-- `inside` are the exchanges of the larger program since the smaller one
began. -/
theorem Ensures.liftFrom {embedding : Embedding small large}
    {program : Program small α} {inside : List (Exchange large)}
    {post : Final small α → List (Exchange small) → Prop}
    (ensures : program.Ensures allows permits
      (inside.filterMap embedding.shows) post)
    (before : List (Exchange large))
    (allowed : ∀ past inside asked reply,
      admits past ⟨embedding.request asked, reply⟩ →
        allows inside ⟨asked, embedding.answer asked reply⟩)
    (implies : ∀ inside asked reply,
      permits (inside.filterMap embedding.shows)
        ⟨asked, embedding.answer asked reply⟩ →
          others (before ++ inside) ⟨embedding.request asked, reply⟩) :
    (program.lift embedding).Ensures admits others (before ++ inside)
      fun _ _ => True := by
  induction program generalizing inside with
  | returns value => trivial
  | throws error => trivial
  | unfinished => trivial
  | asks request next induction =>
      intro reply admitted
      obtain ⟨permitted, rest⟩ := ensures (embedding.answer request reply)
        (allowed _ _ request reply admitted)
      refine ⟨implies inside request reply permitted, ?_⟩
      have shown : (inside ++ [(⟨embedding.request request, reply⟩ :
          Exchange large)]).filterMap embedding.shows = inside.filterMap embedding.shows ++
            [⟨request, embedding.answer request reply⟩] := by
        simp [embedding.shows_request]
      rw [← shown] at rest
      rw [List.append_assoc]
      exact induction _ rest

/-- A program inside a larger one. -/
theorem Ensures.lift {program : Program small α}
    {post : Final small α → List (Exchange small) → Prop}
    (ensures : program.Ensures allows permits [] post)
    (embedding : Embedding small large) (before : List (Exchange large))
    (allowed : ∀ past inside asked reply,
      admits past ⟨embedding.request asked, reply⟩ →
        allows inside ⟨asked, embedding.answer asked reply⟩)
    (implies : ∀ inside asked reply,
      permits (inside.filterMap embedding.shows)
        ⟨asked, embedding.answer asked reply⟩ →
          others (before ++ inside) ⟨embedding.request asked, reply⟩) :
    (program.lift embedding).Ensures admits others before
      fun _ _ => True := by
  rw [← List.append_nil before]
  exact ensures.liftFrom before allowed implies

/-- The clean-up follows whatever the program ends with. -/
theorem Ensures.andFinally {program : Program large α}
    {cleanup : Program large Unit} {past : List (Exchange large)}
    {post : Final large α → List (Exchange large) → Prop}
    (ensures : program.Ensures admits others past post)
    (cleans : ∀ later, cleanup.Ensures admits others (past ++ later)
      fun _ _ => True) :
    (program.andFinally cleanup).Ensures admits others past
      fun _ _ => True := by
  induction program generalizing past with
  | returns value =>
      have here := cleans []
      rw [List.append_nil] at here
      exact here.bind (fun _ _ _ => trivial) (fun _ _ _ => trivial)
        (fun _ _ => trivial)
  | throws error =>
      have here := cleans []
      rw [List.append_nil] at here
      exact here.bind (fun _ _ _ => trivial) (fun _ _ _ => trivial)
        (fun _ _ => trivial)
  | unfinished => trivial
  | asks request next induction =>
      intro answer admitted
      obtain ⟨permitted, rest⟩ := ensures answer admitted
      refine ⟨permitted, induction answer rest fun later => ?_⟩
      rw [List.append_assoc]
      exact cleans _

end Program
