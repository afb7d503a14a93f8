import Stellar8004.Library.Threads

/-!
# Programs against a host with a state

`Leads` says how a program may end, and in which state, whatever the host
answers as it is served.  `servedBy` runs a program against a host that
computes its answers.
-/

namespace Program

variable {σ : Type*} {host : Interface} {α β : Type}

/-- From a state, the program ends as `post` says. -/
def Leads (serves : σ → Exchange host → σ → Prop) :
    Program host α → σ → (Final host α → σ → Prop) → Prop
  | returns value, state, post => post (.returned value) state
  | throws error, state, post => post (.threw error) state
  | unfinished, state, post => post .unfinished state
  | asks request next, state, post => ∀ answer after,
      serves state ⟨request, answer⟩ after →
        (next answer).Leads serves after post

section

variable {serves : σ → Exchange host → σ → Prop} {state : σ}

theorem Leads.mono {program : Program host α}
    {post weaker : Final host α → σ → Prop}
    (leads : program.Leads serves state post)
    (implies : ∀ final after, post final after → weaker final after) :
    program.Leads serves state weaker := by
  induction program generalizing state with
  | returns value => exact implies _ _ leads
  | throws error => exact implies _ _ leads
  | unfinished => exact implies _ _ leads
  | asks request later induction =>
      intro answer after served
      exact induction answer (leads answer after served)

/-- A program that leads to a value leads on from it. -/
theorem Leads.bind {program : Program host α} {next : α → Program host β}
    {middle : Final host α → σ → Prop} {post : Final host β → σ → Prop}
    (first : program.Leads serves state middle)
    (returned : ∀ value after, middle (.returned value) after →
      (next value).Leads serves after post)
    (threw : ∀ error after, middle (.threw error) after →
      post (.threw error) after)
    (unfinished : ∀ after, middle .unfinished after → post .unfinished after) :
    (program.bind next).Leads serves state post := by
  induction program generalizing state with
  | returns value => exact returned value state first
  | throws error => exact threw error state first
  | unfinished => exact unfinished state first
  | asks request later induction =>
      intro answer after served
      exact induction answer (first answer after served)

/-- What a program leads to is where its exchanges lead. -/
theorem Leads.final {program : Program host α}
    {post : Final host α → σ → Prop}
    (leads : program.Leads serves state post)
    {trace : List (Exchange host)} {final : Final host α} {after : σ}
    (yields : Yields program trace (some final))
    (served : Served serves state trace after) : post final after := by
  induction program generalizing state trace with
  | returns value =>
      cases yields
      cases served
      exact leads
  | throws error =>
      cases yields
      cases served
      exact leads
  | unfinished =>
      cases yields
      cases served
      exact leads
  | asks request later induction =>
      cases yields with
      | asked _ answer rest =>
          cases served with
          | cons first others =>
              exact induction answer (leads answer _ first) rest others

end

/-! ## A host that answers by its state -/

/-- What a program exchanges with such a host, and the state it leaves. -/
def servedBy (serve : σ → (request : host.Request) → host.Answer request × σ) :
    Program host α → σ → List (Exchange host) × σ
  | returns _, state => ([], state)
  | throws _, state => ([], state)
  | unfinished, state => ([], state)
  | asks request next, state =>
      let (answer, after) := serve state request
      let (trace, last) := servedBy serve (next answer) after
      (⟨request, answer⟩ :: trace, last)

theorem yields_servedBy
    (serve : σ → (request : host.Request) → host.Answer request × σ)
    (program : Program host α) (state : σ) :
    Yields program (program.servedBy serve state).1 none := by
  induction program generalizing state with
  | asks request next induction =>
      exact .asked request _ (induction _ _)
  | _ => exact .killed _

theorem served_servedBy {serves : σ → Exchange host → σ → Prop}
    {serve : σ → (request : host.Request) → host.Answer request × σ}
    (allowed : ∀ state request,
      serves state ⟨request, (serve state request).1⟩ (serve state request).2)
    (program : Program host α) (state : σ) :
    Served serves state (program.servedBy serve state).1
      (program.servedBy serve state).2 := by
  induction program generalizing state with
  | asks request next induction =>
      exact .cons (allowed state request) (induction _ _)
  | _ => exact .nil state

end Program
