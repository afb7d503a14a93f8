import Mathlib

/-!
# Programs that ask their host

A program returns, throws, or asks its host something and goes on with the
answer.  Nothing is said about how the host answers, and a program may be
killed between any two exchanges.  `Yields` lists what a program can exchange;
`Ensures` is the weakest precondition, over the exchanges that came before, for
every exchange to be permitted and the end to satisfy a postcondition.
-/

/-- What a program may ask, what each request is answered with, and what it
may throw. -/
structure Interface where
  Request : Type
  Answer : Request → Type
  Error : Type

/-- `unfinished` is a loop that outlasted the rounds it was given. -/
inductive Program (host : Interface) (α : Type) where
  | returns (value : α)
  | throws (error : host.Error)
  | unfinished
  | asks (request : host.Request)
      (next : host.Answer request → Program host α)

structure Exchange (host : Interface) where
  request : host.Request
  answer : host.Answer request

/-- How a program ends by itself. -/
inductive Final (host : Interface) (α : Type) where
  | returned (value : α)
  | threw (error : host.Error)
  | unfinished

namespace Program

variable {host : Interface} {α β γ : Type}

protected def bind : Program host α → (α → Program host β) → Program host β
  | returns value, next => next value
  | throws error, _ => throws error
  | unfinished, _ => unfinished
  | asks request later, next => asks request fun answer =>
      (later answer).bind next

instance : Monad (Program host) where
  pure := returns
  bind := Program.bind

@[simp] theorem pure_eq (value : α) :
    (pure value : Program host α) = returns value := rfl

@[simp] theorem bind_eq (program : Program host α)
    (next : α → Program host β) : program >>= next = program.bind next := rfl

@[simp] theorem returns_bind (value : α) (next : α → Program host β) :
    (returns value).bind next = next value := rfl

@[simp] theorem throws_bind (error : host.Error)
    (next : α → Program host β) :
    (throws error : Program host α).bind next = throws error := rfl

@[simp] theorem unfinished_bind (next : α → Program host β) :
    (unfinished : Program host α).bind next = unfinished := rfl

@[simp] theorem asks_bind (request : host.Request)
    (later : host.Answer request → Program host α)
    (next : α → Program host β) :
    (asks request later).bind next =
      asks request fun answer => (later answer).bind next := rfl

/-! ## Exchanges -/

/-- `Yields program trace final`: the program exchanges `trace` and then ends
by itself, or is killed when `final` is `none`. -/
inductive Yields : Program host α → List (Exchange host) →
    Option (Final host α) → Prop where
  | killed (program : Program host α) : Yields program [] none
  | returned (value : α) :
      Yields (.returns value) [] (some (.returned value))
  | threw (error : host.Error) :
      Yields (.throws error) [] (some (.threw error))
  | unfinished : Yields .unfinished [] (some .unfinished)
  | asked (request : host.Request)
      {next : host.Answer request → Program host α}
      (answer : host.Answer request) {trace : List (Exchange host)}
      {final : Option (Final host α)}
      (later : Yields (next answer) trace final) :
      Yields (.asks request next) (⟨request, answer⟩ :: trace) final

/-- A program may be killed earlier. -/
theorem Yields.of_append {program : Program host α}
    {first second : List (Exchange host)} {final : Option (Final host α)}
    (yields : Yields program (first ++ second) final) :
    Yields program first none := by
  induction first generalizing program with
  | nil => exact .killed program
  | cons exchange first induction =>
      cases yields with
      | asked request answer later =>
          exact .asked request answer (induction later)

/-- Every exchange of a trace is permitted after the ones before it. -/
def Along (permits : List (Exchange host) → Exchange host → Prop) :
    List (Exchange host) → List (Exchange host) → Prop
  | _, [] => True
  | past, exchange :: later =>
      permits past exchange ∧ Along permits (past ++ [exchange]) later

variable {permits allows : List (Exchange host) → Exchange host → Prop}
  {past : List (Exchange host)}

theorem along_append (first second : List (Exchange host)) :
    Along permits past (first ++ second) ↔
      Along permits past first ∧ Along permits (past ++ first) second := by
  induction first generalizing past with
  | nil => simp [Along]
  | cons exchange first induction =>
      simp [Along, induction, and_assoc]

theorem Along.mono
    {weaker : List (Exchange host) → Exchange host → Prop}
    (implies : ∀ past exchange, permits past exchange →
      weaker past exchange) {trace : List (Exchange host)}
    (along : Along permits past trace) : Along weaker past trace := by
  induction trace generalizing past with
  | nil => trivial
  | cons exchange trace induction =>
      exact ⟨implies past exchange along.1, induction along.2⟩

theorem along_of_forall_mem {trace : List (Exchange host)}
    (all : ∀ past, ∀ exchange ∈ trace, permits past exchange) :
    Along permits past trace := by
  induction trace generalizing past with
  | nil => trivial
  | cons exchange trace induction =>
      exact ⟨all past exchange List.mem_cons_self,
        induction fun past other member =>
          all past other (List.mem_cons_of_mem _ member)⟩

/-- What is permitted at one point of a trace. -/
theorem Along.at {before after : List (Exchange host)}
    {exchange : Exchange host}
    (along : Along permits past (before ++ exchange :: after)) :
    permits (past ++ before) exchange :=
  ((along_append before (exchange :: after)).mp along).2.1

theorem Along.of_mem {trace : List (Exchange host)}
    (along : Along permits past trace) {exchange : Exchange host}
    (member : exchange ∈ trace) : ∃ earlier, permits earlier exchange := by
  obtain ⟨before, after, rfl⟩ := List.append_of_mem member
  exact ⟨past ++ before, along.at⟩

theorem along_of_forall
    (all : ∀ past exchange, permits past exchange)
    (past trace : List (Exchange host)) : Along permits past trace := by
  induction trace generalizing past with
  | nil => trivial
  | cons exchange trace induction => exact ⟨all past exchange, induction _⟩

/-- The exchanges and the end of a program whose requests are answered by a
function. -/
def answeredBy
    (respond : (request : host.Request) → host.Answer request) :
    Program host α → List (Exchange host) × Final host α
  | returns value => ([], .returned value)
  | throws error => ([], .threw error)
  | unfinished => ([], .unfinished)
  | asks request next =>
      let rest := answeredBy respond (next (respond request))
      (⟨request, respond request⟩ :: rest.1, rest.2)

theorem yields_answeredBy
    (respond : (request : host.Request) → host.Answer request)
    (program : Program host α) :
    Yields program (program.answeredBy respond).1
      (some (program.answeredBy respond).2) := by
  induction program with
  | returns value => exact .returned value
  | throws error => exact .threw error
  | unfinished => exact .unfinished
  | asks request next induction =>
      exact .asked request (respond request) (induction (respond request))

theorem mem_answeredBy
    {respond : (request : host.Request) → host.Answer request}
    {program : Program host α} {exchange : Exchange host}
    (member : exchange ∈ (program.answeredBy respond).1) :
    exchange = ⟨exchange.request, respond exchange.request⟩ := by
  induction program with
  | returns value => cases member
  | throws error => cases member
  | unfinished => cases member
  | asks request next induction =>
      rcases List.mem_cons.mp member with rfl | later
      · rfl
      · exact induction (respond request) later

/-! ## Weakest preconditions -/

/-- From `past`, whatever the host answers within what it `allows`, the
program's exchanges are all permitted and it ends in `post`. -/
def Ensures (allows permits : List (Exchange host) → Exchange host → Prop) :
    Program host α → List (Exchange host) →
      (Final host α → List (Exchange host) → Prop) → Prop
  | returns value, past, post => post (.returned value) past
  | throws error, past, post => post (.threw error) past
  | unfinished, past, post => post .unfinished past
  | asks request next, past, post =>
      ∀ answer : host.Answer request, allows past ⟨request, answer⟩ →
        permits past ⟨request, answer⟩ ∧
          Ensures allows permits (next answer)
            (past ++ [⟨request, answer⟩]) post

/-- The postcondition of a program's first part. -/
def andThen (post : Final host β → List (Exchange host) → Prop)
    (next : α → List (Exchange host) → Prop) :
    Final host α → List (Exchange host) → Prop
  | .returned value, past => next value past
  | .threw error, past => post (.threw error) past
  | .unfinished, past => post .unfinished past

theorem ensures_bind {program : Program host α} {next : α → Program host β}
    {post : Final host β → List (Exchange host) → Prop} :
    (program.bind next).Ensures allows permits past post ↔
      program.Ensures allows permits past
        (andThen post fun value past =>
          (next value).Ensures allows permits past post) := by
  induction program generalizing past with
  | returns value => rfl
  | throws error => rfl
  | unfinished => rfl
  | asks request later induction =>
      simp only [asks_bind, Ensures, induction]

theorem Ensures.mono {program : Program host α}
    {post weaker : Final host α → List (Exchange host) → Prop}
    (ensures : program.Ensures allows permits past post)
    (implies : ∀ final later, post final (past ++ later) →
      weaker final (past ++ later)) :
    program.Ensures allows permits past weaker := by
  induction program generalizing past with
  | returns value =>
      have here := implies (.returned value) []
      rw [List.append_nil] at here
      exact here ensures
  | throws error =>
      have here := implies (.threw error) []
      rw [List.append_nil] at here
      exact here ensures
  | unfinished =>
      have here := implies .unfinished []
      rw [List.append_nil] at here
      exact here ensures
  | asks request later induction =>
      intro answer allowed
      obtain ⟨permitted, rest⟩ := ensures answer allowed
      refine ⟨permitted, induction answer rest fun final after holds => ?_⟩
      have extended := implies final (⟨request, answer⟩ :: after)
      simp only [List.append_assoc, List.singleton_append] at holds ⊢
      exact extended holds

/-- What is permitted may be read off the program's exchanges so far. -/
theorem Ensures.weaken {program : Program host α}
    {weaker : List (Exchange host) → Exchange host → Prop}
    {post : Final host α → List (Exchange host) → Prop}
    (ensures : program.Ensures allows permits past post)
    (implies : ∀ inside exchange, Along permits past inside →
      permits (past ++ inside) exchange → weaker (past ++ inside) exchange) :
    program.Ensures allows weaker past post := by
  induction program generalizing past with
  | returns value => exact ensures
  | throws error => exact ensures
  | unfinished => exact ensures
  | asks request later induction =>
      intro answer allowed
      obtain ⟨permitted, rest⟩ := ensures answer allowed
      refine ⟨by simpa using implies [] _ trivial (by simpa using permitted),
        induction answer rest fun inside exchange along permits => ?_⟩
      have extended := implies (⟨request, answer⟩ :: inside) exchange
        ⟨permitted, along⟩
      simp only [List.append_assoc, List.singleton_append] at permits ⊢
      exact extended permits

/-- Where everything is permitted from here on, every program keeps to it. -/
theorem ensures_of_forall
    (all : ∀ later exchange, permits (past ++ later) exchange)
    (program : Program host α) :
    program.Ensures allows permits past fun _ _ => True := by
  induction program generalizing past with
  | returns value => trivial
  | throws error => trivial
  | unfinished => trivial
  | asks request later induction =>
      intro answer _
      constructor
      · simpa using all [] ⟨request, answer⟩
      · apply induction
        intro after exchange
        rw [List.append_assoc]
        exact all _ exchange

theorem Ensures.and {program : Program host α}
    {others : List (Exchange host) → Exchange host → Prop}
    {first second : Final host α → List (Exchange host) → Prop}
    (one : program.Ensures allows permits past first)
    (two : program.Ensures allows others past second) :
    program.Ensures allows
      (fun past exchange => permits past exchange ∧ others past exchange) past
      fun final now => first final now ∧ second final now := by
  induction program generalizing past with
  | returns value => exact ⟨one, two⟩
  | throws error => exact ⟨one, two⟩
  | unfinished => exact ⟨one, two⟩
  | asks request later induction =>
      intro answer allowed
      obtain ⟨permitted, rest⟩ := one answer allowed
      obtain ⟨also, others⟩ := two answer allowed
      exact ⟨⟨permitted, also⟩, induction answer rest others⟩

/-- A program that runs after other exchanges. -/
theorem Ensures.after {program : Program host α}
    {admits others : List (Exchange host) → Exchange host → Prop}
    {post : Final host α → List (Exchange host) → Prop}
    {inside : List (Exchange host)}
    (ensures : program.Ensures allows permits inside post)
    (before : List (Exchange host))
    (allowed : ∀ later exchange, admits (before ++ later) exchange →
      allows later exchange)
    (implies : ∀ later exchange, permits later exchange →
      others (before ++ later) exchange) :
    program.Ensures admits others (before ++ inside) fun final now =>
      ∃ later, now = before ++ later ∧ post final later := by
  induction program generalizing inside with
  | returns value => exact ⟨inside, rfl, ensures⟩
  | throws error => exact ⟨inside, rfl, ensures⟩
  | unfinished => exact ⟨inside, rfl, ensures⟩
  | asks request next induction =>
      intro answer admitted
      obtain ⟨permitted, rest⟩ := ensures answer (allowed _ _ admitted)
      refine ⟨implies _ _ permitted, ?_⟩
      rw [List.append_assoc]
      exact induction answer rest

/-- What is permitted may speak of the exchanges before it. -/
theorem Ensures.located {program : Program host α}
    {post : Final host α → List (Exchange host) → Prop}
    (ensures : program.Ensures allows permits past post) :
    program.Ensures allows
      (fun now exchange => permits now exchange ∧
        ∃ inside, now = past ++ inside ∧ Along permits past inside) past
      post :=
  ensures.weaken fun inside _ along permitted =>
    ⟨permitted, inside, rfl, along⟩

/-- A postcondition may speak of the program's own exchanges. -/
theorem Ensures.traced {program : Program host α}
    {post : Final host α → List (Exchange host) → Prop}
    (ensures : program.Ensures allows permits past post) :
    program.Ensures allows permits past fun final now =>
      post final now ∧ ∃ inside, now = past ++ inside ∧
        Yields program inside (some final) ∧ Along allows past inside ∧
          Along permits past inside := by
  induction program generalizing past with
  | returns value =>
      exact ⟨ensures, [], by simp, .returned value, trivial, trivial⟩
  | throws error =>
      exact ⟨ensures, [], by simp, .threw error, trivial, trivial⟩
  | unfinished =>
      exact ⟨ensures, [], by simp, .unfinished, trivial, trivial⟩
  | asks request later induction =>
      intro answer allowed
      obtain ⟨permitted, rest⟩ := ensures answer allowed
      refine ⟨permitted, (induction answer rest).mono ?_⟩
      rintro final after ⟨holds, inside, same, yields, answered, kept⟩
      exact ⟨holds, ⟨request, answer⟩ :: inside, by simpa using same,
        .asked request answer yields, ⟨allowed, answered⟩, permitted, kept⟩

/-- The rule of sequencing: what the first part ensures is what the second
part needs. -/
theorem Ensures.bind {program : Program host α}
    {next : α → Program host β}
    {middle : Final host α → List (Exchange host) → Prop}
    {post : Final host β → List (Exchange host) → Prop}
    (first : program.Ensures allows permits past middle)
    (returned : ∀ value later, middle (.returned value) (past ++ later) →
      (next value).Ensures allows permits (past ++ later) post)
    (threw : ∀ error later, middle (.threw error) (past ++ later) →
      post (.threw error) (past ++ later))
    (unfinished : ∀ later, middle .unfinished (past ++ later) →
      post .unfinished (past ++ later)) :
    (program.bind next).Ensures allows permits past post := by
  rw [ensures_bind]
  apply first.mono
  intro final later holds
  cases final with
  | returned value => exact returned value later holds
  | threw error => exact threw error later holds
  | unfinished => exact unfinished later holds

/-- The weakest precondition speaks of every trace, the killed ones
included. -/
theorem Ensures.along {program : Program host α}
    {post : Final host α → List (Exchange host) → Prop}
    (ensures : program.Ensures allows permits past post)
    {trace : List (Exchange host)} {final : Option (Final host α)}
    (yields : Yields program trace final)
    (answered : Along allows past trace) : Along permits past trace := by
  induction yields generalizing past with
  | killed => trivial
  | returned => trivial
  | threw => trivial
  | unfinished => trivial
  | asked request answer later induction =>
      obtain ⟨permitted, rest⟩ := ensures answer answered.1
      exact ⟨permitted, induction rest answered.2⟩

theorem Ensures.final {program : Program host α}
    {post : Final host α → List (Exchange host) → Prop}
    (ensures : program.Ensures allows permits past post)
    {trace : List (Exchange host)} {final : Final host α}
    (yields : Yields program trace (some final))
    (answered : Along allows past trace) : post final (past ++ trace) := by
  generalize ends : some final = outcome at yields
  induction yields generalizing past with
  | killed => cases ends
  | returned value =>
      cases ends
      rw [List.append_nil]
      exact ensures
  | threw error =>
      cases ends
      rw [List.append_nil]
      exact ensures
  | unfinished =>
      cases ends
      rw [List.append_nil]
      exact ensures
  | asked request answer later induction =>
      have rest := induction (ensures answer answered.1).2 answered.2 ends
      simpa using rest

end Program
