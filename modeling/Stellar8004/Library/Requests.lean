import Stellar8004.Library.Program

/-!
# Programs in sequence

The traces of a program that is followed by another, and how often a program
can ask requests of a kind.
-/

namespace Program

variable {host : Interface} {α β : Type}

/-- A part that returns, and what follows it. -/
theorem Yields.bind {program : Program host α} {next : α → Program host β}
    {first second : List (Exchange host)} {value : α}
    {final : Option (Final host β)}
    (returned : Yields program first (some (.returned value)))
    (later : Yields (next value) second final) :
    Yields (program.bind next) (first ++ second) final := by
  generalize ends : some (Final.returned value) = outcome at returned
  induction returned with
  | killed => cases ends
  | returned other =>
      cases ends
      exact later
  | threw error => cases ends
  | unfinished => cases ends
  | asked request answer rest induction =>
      exact .asked request answer (induction ends)

/-- A program may be killed where its first part is or ends. -/
theorem Yields.killed_bind {program : Program host α}
    {trace : List (Exchange host)} {final : Option (Final host α)}
    (yields : Yields program trace final) (next : α → Program host β) :
    Yields (program.bind next) trace none := by
  induction yields with
  | killed => exact .killed _
  | returned => exact .killed _
  | threw => exact .killed _
  | unfinished => exact .killed _
  | asked request answer later induction =>
      exact .asked request answer induction

/-- A trace stays in the first part or goes on after its return. -/
theorem Yields.of_bind {program : Program host α}
    {next : α → Program host β} {trace : List (Exchange host)}
    {final : Option (Final host β)}
    (yields : Yields (program.bind next) trace final) :
    (∃ outcome, Yields program trace outcome) ∨
      ∃ first second value, trace = first ++ second ∧
        Yields program first (some (.returned value)) ∧
        Yields (next value) second final := by
  induction program generalizing trace with
  | returns value =>
      exact .inr ⟨[], trace, value, rfl, .returned value, yields⟩
  | throws error =>
      cases yields with
      | killed => exact .inl ⟨none, .killed _⟩
      | threw => exact .inl ⟨_, .threw error⟩
  | unfinished =>
      cases yields with
      | killed => exact .inl ⟨none, .killed _⟩
      | unfinished => exact .inl ⟨_, .unfinished⟩
  | asks request later induction =>
      cases yields with
      | killed => exact .inl ⟨none, .killed _⟩
      | @asked _ _ answer trace _ rest =>
          rcases induction answer rest with
            ⟨outcome, inside⟩ | ⟨first, second, value, rfl, inside, after⟩
          · exact .inl ⟨outcome, .asked request answer inside⟩
          · exact .inr ⟨⟨request, answer⟩ :: first, second, value, rfl,
              .asked request answer inside, after⟩

/-! ## Counting requests -/

variable (test : host.Request → Bool)

/-- The requests of a trace that pass a test. -/
def asked (trace : List (Exchange host)) : Nat :=
  trace.countP fun exchange => test exchange.request

/-- However the host answers, at most so many requests pass the test. -/
def AtMost : Program host α → Nat → Prop
  | returns _, _ => True
  | throws _, _ => True
  | unfinished, _ => True
  | asks request next, count =>
      if test request then
        0 < count ∧ ∀ answer, AtMost (next answer) (count - 1)
      else ∀ answer, AtMost (next answer) count

variable {test}

theorem AtMost.mono {program : Program host α} {count more : Nat}
    (most : AtMost test program count) (le : count ≤ more) :
    AtMost test program more := by
  induction program generalizing count more with
  | returns value => trivial
  | throws error => trivial
  | unfinished => trivial
  | asks request next induction =>
      unfold AtMost at most ⊢
      split_ifs at most ⊢ with counted
      · exact ⟨by omega, fun answer =>
          induction answer (most.2 answer) (by omega)⟩
      · exact fun answer => induction answer (most answer) le

theorem AtMost.bind {program : Program host α} {next : α → Program host β}
    {first second : Nat} (most : AtMost test program first)
    (later : ∀ value, AtMost test (next value) second) :
    AtMost test (program.bind next) (first + second) := by
  induction program generalizing first with
  | returns value => exact (later value).mono (by omega)
  | throws error => trivial
  | unfinished => trivial
  | asks request rest induction =>
      unfold AtMost at most
      rw [asks_bind, AtMost]
      split_ifs at most ⊢ with counted
      · refine ⟨by omega, fun answer => ?_⟩
        exact (induction answer (most.2 answer)).mono (by omega)
      · exact fun answer => induction answer (most answer)

theorem AtMost.asked_le {program : Program host α} {count : Nat}
    (most : AtMost test program count) {trace : List (Exchange host)}
    {final : Option (Final host α)} (yields : Yields program trace final) :
    asked test trace ≤ count := by
  induction yields generalizing count with
  | killed => exact Nat.zero_le count
  | returned => exact Nat.zero_le count
  | threw => exact Nat.zero_le count
  | unfinished => exact Nat.zero_le count
  | asked request answer later induction =>
      unfold AtMost at most
      unfold asked at induction ⊢
      rw [List.countP_cons]
      split_ifs at most ⊢ with counted
      · have rest := induction (most.2 answer)
        omega
      · exact induction (most answer)

end Program
