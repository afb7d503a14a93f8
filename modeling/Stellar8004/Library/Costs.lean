import Stellar8004.Library.Requests

/-!
# What a program spends

Every exchange costs something.  `Costs` bounds what the exchanges of a
program cost together, however the host answers as it is allowed to.
-/

namespace Program

variable {host : Interface} {α β : Type}

def Costs (allows : Exchange host → Prop) (cost : Exchange host → Nat) :
    Program host α → Nat → Prop
  | returns _, _ => True
  | throws _, _ => True
  | unfinished, _ => True
  | asks request next, budget => ∀ answer, allows ⟨request, answer⟩ →
      ∃ rest, cost ⟨request, answer⟩ + rest ≤ budget ∧
        Costs allows cost (next answer) rest

section

variable {allows : Exchange host → Prop} {cost : Exchange host → Nat}

theorem Costs.mono {program : Program host α} {budget more : Nat}
    (costs : Costs allows cost program budget) (le : budget ≤ more) :
    Costs allows cost program more := by
  cases program with
  | returns value => trivial
  | throws error => trivial
  | unfinished => trivial
  | asks request next =>
      intro answer allowed
      obtain ⟨rest, within, later⟩ := costs answer allowed
      exact ⟨rest, within.trans le, later⟩

theorem Costs.bind {program : Program host α} {next : α → Program host β}
    {first second : Nat} (costs : Costs allows cost program first)
    (later : ∀ value, Costs allows cost (next value) second) :
    Costs allows cost (program.bind next) (first + second) := by
  induction program generalizing first with
  | returns value => exact (later value).mono (Nat.le_add_left _ _)
  | throws error => trivial
  | unfinished => trivial
  | asks request others induction =>
      intro answer allowed
      obtain ⟨rest, within, inside⟩ := costs answer allowed
      refine ⟨rest + second, ?_, induction answer inside⟩
      omega

/-- A run stays within the budget, also where it is killed. -/
theorem Costs.total {program : Program host α} {budget : Nat}
    (costs : Costs allows cost program budget)
    {trace : List (Exchange host)} {final : Option (Final host α)}
    (yields : Yields program trace final)
    (allowed : ∀ exchange ∈ trace, allows exchange) :
    (trace.map cost).sum ≤ budget := by
  induction yields generalizing budget with
  | killed => exact Nat.zero_le _
  | returned => exact Nat.zero_le _
  | threw => exact Nat.zero_le _
  | unfinished => exact Nat.zero_le _
  | @asked request next answer trace final later induction =>
      obtain ⟨rest, within, inside⟩ :=
        costs answer (allowed _ List.mem_cons_self)
      have others := induction inside fun exchange member =>
        allowed exchange (List.mem_cons_of_mem _ member)
      rw [List.map_cons, List.sum_cons]
      omega

end

end Program
