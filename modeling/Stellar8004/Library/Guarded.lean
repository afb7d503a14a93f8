import Mathlib

/-!
# Stamp-guarded writes

Two small stores whose writes carry a stamp.  `GuardedWrite` replaces its
whole content, and refuses a write older than the content it holds.
`ResettableMap` mixes unguarded writes to single cells with guarded resets of
all cells at once.  Both make every stamp-ordered list of writes idempotent,
although neither makes a single late write harmless.
-/

/-- A store that keeps the newest write.  `skips` lets a store recognise a
write it already holds and leave its content alone. -/
structure GuardedWrite (ε γ τ : Type*) where
  stamp : ε → τ
  written : ε → γ
  holds : γ → Option τ
  skips : ε → γ → Bool
  holds_written : ∀ event, holds (written event) = some (stamp event)
  skips_written : ∀ event other,
    skips event (written other) = true → written other = written event

namespace GuardedWrite

variable {ε γ τ : Type*} [LinearOrder τ] (store : GuardedWrite ε γ τ)

/-- The guard of a write: the content is unstamped, or not newer. -/
def admits (content : γ) (event : ε) : Bool :=
  (store.holds content).all (· ≤ store.stamp event)

def apply (content : γ) (event : ε) : γ :=
  if store.admits content event then
    if store.skips event content then content else store.written event
  else content

variable {store}

theorem admits_written_iff {first second : ε} :
    store.admits (store.written first) second = true ↔
      store.stamp first ≤ store.stamp second := by
  simp [admits, store.holds_written]

theorem apply_written {first second : ε}
    (ordered : store.stamp first ≤ store.stamp second) :
    store.apply (store.written first) second = store.written second := by
  have admitted : store.admits (store.written first) second = true :=
    admits_written_iff.mpr ordered
  by_cases same : store.skips second (store.written first) = true
  · simp [apply, store.skips_written _ _ same]
  · simp [apply, admitted, same]

variable (store) in
theorem apply_eq_or (content : γ) (event : ε) :
    store.apply content event = content ∨
      store.admits content event = true ∧
        store.apply content event = store.written event := by
  unfold apply
  split
  · split
    · exact .inl rfl
    · rename_i admitted _
      exact .inr ⟨admitted, rfl⟩
  · exact .inl rfl

/-- From a written content, an ordered list of later writes leaves its last
one. -/
theorem foldl_apply_written (first : ε) (later : List ε)
    (ordered : (first :: later).Pairwise
      (fun left right => store.stamp left ≤ store.stamp right)) :
    later.foldl store.apply (store.written first) =
      store.written (later.getLastD first) := by
  induction later generalizing first with
  | nil => rfl
  | cons second later induction =>
      have bounds := List.pairwise_cons.mp ordered
      rw [List.foldl_cons,
        apply_written (bounds.1 second List.mem_cons_self),
        induction second bounds.2, List.getLastD_cons]

variable (store) in
/-- An ordered list of writes either changes nothing or leaves its last
one. -/
theorem foldl_apply_eq_or (events : List ε) (content : γ)
    (ordered : events.Pairwise
      (fun left right => store.stamp left ≤ store.stamp right)) :
    events.foldl store.apply content = content ∨
      ∃ last, events.getLast? = some last ∧
        events.foldl store.apply content = store.written last := by
  induction events generalizing content with
  | nil => exact .inl rfl
  | cons event events induction =>
      have bounds := List.pairwise_cons.mp ordered
      rw [List.foldl_cons]
      rcases store.apply_eq_or content event with unchanged | ⟨_, written⟩
      · rw [unchanged]
        rcases induction content bounds.2 with kept | ⟨last, isLast, result⟩
        · exact .inl kept
        · refine .inr ⟨last, ?_, result⟩
          rw [List.getLast?_cons, isLast]
          rfl
      · refine .inr ⟨events.getLastD event, ?_, ?_⟩
        · rw [List.getLast?_cons, List.getLastD_eq_getLast?]
        · rw [written, foldl_apply_written event events ordered]

/-- Replaying writes none of which is newer than the content ends in the
last of them whenever that one is the content. -/
theorem foldl_apply_of_le {last : ε} (events : List ε) (current : ε)
    (bounded : ∀ event ∈ events, store.stamp event ≤ store.stamp last)
    (stamped : store.stamp current = store.stamp last) :
    ∃ final, store.stamp final = store.stamp last ∧
      events.foldl store.apply (store.written current) =
        store.written final := by
  induction events generalizing current with
  | nil => exact ⟨current, stamped, rfl⟩
  | cons event events induction =>
      have tail : ∀ other ∈ events, store.stamp other ≤ store.stamp last :=
        fun other member => bounded other (List.mem_cons_of_mem _ member)
      rw [List.foldl_cons]
      rcases store.apply_eq_or (store.written current) event with
        unchanged | ⟨admitted, written⟩
      · rw [unchanged]
        exact induction current tail stamped
      · rw [written]
        have lower : store.stamp current ≤ store.stamp event :=
          admits_written_iff.mp admitted
        have equal : store.stamp event = store.stamp last :=
          le_antisymm (bounded event List.mem_cons_self) (stamped ▸ lower)
        exact induction event tail equal

variable (store) in
theorem foldl_apply_idempotent (events : List ε) (content : γ)
    (ordered : events.Pairwise
      (fun left right => store.stamp left ≤ store.stamp right)) :
    events.foldl store.apply (events.foldl store.apply content) =
      events.foldl store.apply content := by
  rcases store.foldl_apply_eq_or events content ordered with
    unchanged | ⟨last, isLast, result⟩
  · rw [unchanged, unchanged]
  · obtain ⟨initial, rfl⟩ := List.getLast?_eq_some_iff.mp isLast
    rw [result, List.foldl_append, List.foldl_cons, List.foldl_nil]
    have bounded : ∀ event ∈ initial,
        store.stamp event ≤ store.stamp last := by
      intro event member
      exact (List.pairwise_append.mp ordered).2.2 event member last
        List.mem_cons_self
    obtain ⟨final, stamped, reached⟩ :=
      foldl_apply_of_le initial last bounded rfl
    rw [reached]
    exact apply_written (le_of_eq stamped)

variable (store) in
/-- From an unstamped content, an ordered list of writes leaves its last
one. -/
theorem foldl_apply_fresh (events : List ε) {content : γ}
    (fresh : store.holds content = none)
    (unheld : ∀ event, store.skips event content = false)
    (ordered : events.Pairwise
      (fun left right => store.stamp left ≤ store.stamp right)) :
    events.foldl store.apply content =
      (events.getLast?.map store.written).getD content := by
  cases events with
  | nil => rfl
  | cons event events =>
      have first : store.apply content event = store.written event := by
        simp [apply, admits, fresh, unheld event]
      rw [List.foldl_cons, first, foldl_apply_written event events ordered,
        List.getLast?_cons, List.getLastD_eq_getLast?]
      rfl

/-- A write over a written content changes nothing when it is older or would
write the same. -/
theorem apply_written_eq_iff {last event : ε} :
    store.apply (store.written last) event = store.written last ↔
      store.stamp event < store.stamp last ∨
        store.written event = store.written last := by
  by_cases admitted : store.admits (store.written last) event = true
  · have ordered := admits_written_iff.mp admitted
    rw [apply_written ordered]
    simp [not_lt.mpr ordered]
  · have newer : store.stamp event < store.stamp last := by
      rw [admits_written_iff] at admitted
      exact not_le.mp admitted
    simp [apply, admitted, newer]

end GuardedWrite

/-- Cells under a common stamp and label. -/
@[ext] structure ResettableMap (κ β α τ : Type*) where
  stamp : Option τ
  label : α
  cells : κ → Option β

namespace ResettableMap

variable {κ β α τ : Type*} [DecidableEq κ] [LinearOrder τ]

/-- `put` overwrites one cell whatever the stamp; `reset` empties every cell
and takes a new label and stamp. -/
inductive Write (κ β α τ : Type*) where
  | put (cell : κ) (value : Option β)
  | reset (stamp : τ) (label : α)

/-- The guard of a reset: no reset so far, or none that is newer. -/
def admits (map : ResettableMap κ β α τ) (stamp : τ) : Bool :=
  map.stamp.all (· ≤ stamp)

/-- The map right after a reset. -/
def cleared (stamp : τ) (label : α) : ResettableMap κ β α τ :=
  { stamp := some stamp, label := label, cells := fun _ => none }

def apply (map : ResettableMap κ β α τ) :
    Write κ β α τ → ResettableMap κ β α τ
  | .put cell value =>
      { map with cells := Function.update map.cells cell value }
  | .reset stamp label =>
      if map.admits stamp then cleared stamp label else map

/-- The reset stamps of a list of writes never go back. -/
def Ordered (writes : List (Write κ β α τ)) : Prop :=
  (writes.filterMap fun
    | .put _ _ => none
    | .reset stamp _ => some stamp).Pairwise (· ≤ ·)

/-- The value the last put to a cell leaves there, if the list has one. -/
def lastPut (cell : κ) : List (Write κ β α τ) → Option (Option β)
  | [] => none
  | .put target value :: rest =>
      (lastPut cell rest).orElse fun _ =>
        if target = cell then some value else none
  | .reset _ _ :: rest => lastPut cell rest

/-- Where no reset takes effect, a list of writes leaves stamp and label
alone and each cell as the last put to it, if any, left it. -/
theorem foldl_apply_of_refused (writes : List (Write κ β α τ))
    (map : ResettableMap κ β α τ)
    (refused : ∀ stamp label, .reset stamp label ∈ writes →
      map.admits stamp = false) :
    writes.foldl apply map =
      { map with
        cells := fun cell => (lastPut cell writes).getD (map.cells cell) } := by
  induction writes generalizing map with
  | nil => rfl
  | cons write writes induction =>
      rw [List.foldl_cons]
      cases write with
      | put cell value =>
          rw [induction (map.apply (.put cell value))]
          · ext other
            · rfl
            · rfl
            · simp only [apply, lastPut]
              cases lastPut other writes with
              | some later => simp
              | none =>
                  by_cases same : cell = other
                  · subst other
                    simp
                  · simp [same, Function.update_of_ne (Ne.symm same)]
          · intro stamp label member
            exact refused stamp label (List.mem_cons_of_mem _ member)
      | reset stamp label =>
          have ignored : map.apply (.reset stamp label) = map := by
            simp [apply, refused stamp label List.mem_cons_self]
          rw [ignored, induction map]
          · rfl
          · intro later other member
            exact refused later other (List.mem_cons_of_mem _ member)

theorem foldl_apply_stamp_le (writes : List (Write κ β α τ))
    (map : ResettableMap κ β α τ) (bound : τ)
    (below : map.stamp.all (· ≤ bound) = true)
    (bounded : ∀ stamp label, .reset stamp label ∈ writes →
      stamp ≤ bound) :
    (writes.foldl apply map).stamp.all (· ≤ bound) = true := by
  induction writes generalizing map with
  | nil => exact below
  | cons write writes induction =>
      have tail : ∀ stamp label, .reset stamp label ∈ writes →
          stamp ≤ bound := fun stamp label member =>
        bounded stamp label (List.mem_cons_of_mem _ member)
      rw [List.foldl_cons]
      apply induction _ _ tail
      cases write with
      | put cell value => exact below
      | reset stamp label =>
          have inBound := bounded stamp label List.mem_cons_self
          by_cases admitted : map.admits stamp = true
          · simpa [apply, admitted, cleared] using inBound
          · simpa [apply, admitted] using below

omit [DecidableEq κ] [LinearOrder τ] in
theorem mem_stamps_of_reset {writes : List (Write κ β α τ)}
    {stamp : τ} (label : α) (member : .reset stamp label ∈ writes) :
    stamp ∈ writes.filterMap (fun
      | .put _ _ => none
      | .reset stamp _ => some stamp) :=
  List.mem_filterMap.mpr ⟨_, member, rfl⟩

omit [DecidableEq κ] [LinearOrder τ] in
/-- A list with a reset splits at its last one. -/
theorem exists_last_reset (writes : List (Write κ β α τ)) :
    (∀ stamp label, (.reset stamp label : Write κ β α τ) ∉ writes) ∨
      ∃ before stamp label after,
        writes = before ++ .reset stamp label :: after ∧
          ∀ other tag, (.reset other tag : Write κ β α τ) ∉ after := by
  induction writes with
  | nil => exact .inl (by simp)
  | cons write writes induction =>
      rcases induction with none | ⟨before, stamp, label, after, rfl, clean⟩
      · cases write with
        | put cell value => exact .inl (by simpa using none)
        | reset stamp label =>
            exact .inr ⟨[], stamp, label, writes, rfl, none⟩
      · exact .inr ⟨write :: before, stamp, label, after, rfl, clean⟩

omit [DecidableEq κ] in
/-- The resets before the last one are not newer than it. -/
theorem Ordered.before_le {before after : List (Write κ β α τ)}
    {stamp : τ} {label : α}
    (ordered : Ordered (before ++ .reset stamp label :: after)) :
    ∀ other tag, .reset other tag ∈ before → other ≤ stamp := by
  intro other tag member
  unfold Ordered at ordered
  rw [List.filterMap_append] at ordered
  exact (List.pairwise_append.mp ordered).2.2 other
    (mem_stamps_of_reset tag member) stamp
    (mem_stamps_of_reset label List.mem_cons_self)

/-- An admitted last reset decides everything but the writes after it. -/
theorem foldl_apply_of_admitted {before after : List (Write κ β α τ)}
    {stamp : τ} {label : α} (map : ResettableMap κ β α τ)
    (ordered : Ordered (before ++ .reset stamp label :: after))
    (admitted : map.admits stamp = true) :
    (before ++ .reset stamp label :: after).foldl apply map =
      after.foldl apply (cleared stamp label) := by
  have stillAdmitted : (before.foldl apply map).admits stamp = true :=
    foldl_apply_stamp_le before map stamp admitted ordered.before_le
  rw [List.foldl_append, List.foldl_cons]
  congr 1
  simp [apply, stillAdmitted]

theorem foldl_apply_idempotent (writes : List (Write κ β α τ))
    (map : ResettableMap κ β α τ) (ordered : Ordered writes) :
    writes.foldl apply (writes.foldl apply map) =
      writes.foldl apply map := by
  have putsOnly : (∀ stamp label, .reset stamp label ∈ writes →
      map.admits stamp = false) →
      writes.foldl apply (writes.foldl apply map) =
        writes.foldl apply map := by
    intro refused
    have once := foldl_apply_of_refused writes map refused
    have twice := foldl_apply_of_refused writes
      (writes.foldl apply map) (by rw [once]; exact refused)
    rw [twice, once]
    congr 1
    funext cell
    cases latest : lastPut cell writes <;> simp [latest]
  rcases exists_last_reset writes with
    none | ⟨before, stamp, label, after, rfl, clean⟩
  · exact putsOnly fun stamp label member => absurd member (none stamp label)
  · by_cases admitted : map.admits stamp = true
    · have once := foldl_apply_of_admitted map ordered admitted
      have stampAfter : (after.foldl apply
          (cleared stamp label : ResettableMap κ β α τ)).stamp =
            some stamp := by
        rw [foldl_apply_of_refused after _
          (fun other tag member => absurd member (clean other tag))]
        rfl
      rw [once]
      exact foldl_apply_of_admitted _ ordered
        (by simp [admits, stampAfter])
    · apply putsOnly
      intro other tag member
      have newer : ∃ held, map.stamp = some held ∧ stamp < held := by
        cases held : map.stamp with
        | none => simp [admits, held] at admitted
        | some value => exact ⟨value, rfl, by
            simpa [admits, held] using admitted⟩
      obtain ⟨held, isHeld, later⟩ := newer
      have lower : other ≤ stamp := by
        rcases List.mem_append.mp member with early | late
        · exact ordered.before_le other tag early
        · rcases List.mem_cons.mp late with same | inside
          · cases same
            exact le_refl _
          · exact absurd inside (clean other tag)
      simpa [admits, isHeld] using lower.trans_lt later

/-! ## Ordered writes to a fresh map -/

/-- What a write leaves in a cell it touches. -/
def Write.effect (cell : κ) : Write κ β α τ → Option (Option β)
  | .put target value => if target = cell then some value else none
  | .reset _ _ => some none

def Write.reset? : Write κ β α τ → Option (τ × α)
  | .put _ _ => none
  | .reset stamp label => some (stamp, label)

/-- What the last write that touches a cell leaves there. -/
def lastWrite (cell : κ) (writes : List (Write κ β α τ)) :
    Option (Option β) :=
  (writes.filterMap (Write.effect cell)).getLast?

omit [DecidableEq κ] [LinearOrder τ] in
def lastReset (writes : List (Write κ β α τ)) : Option (τ × α) :=
  (writes.filterMap Write.reset?).getLast?

/-- From a map never reset, ordered writes leave the last reset's stamp and
label and in each cell what the last write to it left. -/
theorem foldl_apply_fresh (writes : List (Write κ β α τ))
    {map : ResettableMap κ β α τ} (fresh : map.stamp = none)
    (ordered : Ordered writes) :
    writes.foldl apply map =
      { stamp := (lastReset writes).map Prod.fst
        label := ((lastReset writes).map Prod.snd).getD map.label
        cells := fun cell =>
          (lastWrite cell writes).getD (map.cells cell) } := by
  induction writes using List.reverseRecOn with
  | nil =>
      rw [List.foldl_nil]
      ext
      · simp [fresh, lastReset]
      · rfl
      · rfl
  | append_singleton writes write induction =>
      unfold Ordered at ordered
      rw [List.filterMap_append] at ordered
      have earlier : Ordered writes := (List.pairwise_append.mp ordered).1
      rw [List.foldl_append, List.foldl_cons, List.foldl_nil,
        induction earlier]
      cases write with
      | put target value =>
          ext cell
          · simp [apply, lastReset, Write.reset?]
          · simp [apply, lastReset, Write.reset?]
          · by_cases same : target = cell
            · subst same
              simp [apply, lastWrite, Write.effect]
            · simp [apply, lastWrite, Write.effect, same,
                Function.update_of_ne (Ne.symm same)]
      | reset stamp label =>
          have admitted : ((lastReset writes).map Prod.fst).all
              (· ≤ stamp) = true := by
            cases last : lastReset writes with
            | none => rfl
            | some reset =>
                obtain ⟨held, tag⟩ := reset
                have member := List.mem_of_getLast? last
                obtain ⟨write, inside, isReset⟩ := List.mem_filterMap.mp member
                have below := (List.pairwise_append.mp ordered).2.2 held
                  (mem_stamps_of_reset tag (by
                    cases write <;> cases isReset
                    exact inside)) stamp (by simp)
                simpa using below
          refine (if_pos admitted).trans ?_
          ext cell
          · simp [cleared, lastReset, Write.reset?]
          · simp [cleared, lastReset, Write.reset?]
          · simp [cleared, lastWrite, Write.effect]

theorem apply_put_eq_iff {map : ResettableMap κ β α τ} {cell : κ}
    {value : Option β} :
    map.apply (.put cell value) = map ↔ map.cells cell = value := by
  constructor
  · intro same
    have cells := congrFun (congrArg ResettableMap.cells same) cell
    simpa [apply] using cells.symm
  · rintro rfl
    simp [apply]

theorem apply_reset_eq_iff {map : ResettableMap κ β α τ} {stamp : τ}
    {label : α} :
    map.apply (.reset stamp label) = map ↔
      map.admits stamp = false ∨ map = cleared stamp label := by
  by_cases admitted : map.admits stamp = true
  · simp [apply, admitted, eq_comm]
  · simp [apply, admitted]

end ResettableMap
