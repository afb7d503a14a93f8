import Stellar8004.Library.Accepted
import Stellar8004.Library.IndexedList

/-!
# Reading a growing list by pages

A list kept under numbered keys is read a page at a time, from a `u32` start
and with a `u32` limit.  The reads tile the list, also when it grows between
them.
-/

/-- Addition of `u32` that stops at the largest. -/
def saturatingAdd (left right : UInt32) : Nat :=
  min (left.toNat + right.toNat) (2 ^ 32 - 1)

/-- The loop over the positions of a page.  Positions without an entry are
passed over. -/
def listPage {α : Type*} (count : Nat) (entry : Nat → Option α)
    (start limit : UInt32) : List α :=
  let stop := min (saturatingAdd start limit) count
  (List.range' start.toNat (stop - start.toNat)).filterMap entry

theorem filterMap_range' {α : Type*} {items : List α} (start : Nat) :
    ∀ size, start + size ≤ items.length →
      (List.range' start size).filterMap (fun position => items[position]?) =
        (items.drop start).take size := by
  intro size
  induction size generalizing start with
  | zero => simp
  | succ size induction =>
      intro inside
      have here : start < items.length := by omega
      rw [List.range'_succ, List.filterMap_cons_some
        (List.getElem?_eq_getElem here), induction (start + 1) (by omega),
        List.drop_eq_getElem_cons here, List.take_succ_cons]

/-- A page is a slice of the list. -/
theorem IndexedList.listPage_eq {α : Type*} {count : Nat}
    {entry : Nat → Option α} {items : List α}
    (listed : IndexedList count entry items) (few : count < 2 ^ 32)
    (start limit : UInt32) :
    listPage count entry start limit =
      (items.drop start.toNat).take limit.toNat := by
  have stops : min (saturatingAdd start limit) count =
      min (start.toNat + limit.toNat) count := by
    unfold saturatingAdd
    omega
  have isEntry : entry = fun position => items[position]? :=
    funext listed.entries
  have counts := listed.counts
  unfold listPage
  dsimp only
  rw [stops, isEntry]
  by_cases inside : start.toNat ≤ items.length
  · rw [filterMap_range' start.toNat _ (by omega), List.take_eq_take_iff,
      List.length_drop]
    omega
  · rw [List.drop_eq_nil_of_le (by omega), List.take_nil]
    have none : min (start.toNat + limit.toNat) count - start.toNat = 0 := by
      omega
    rw [none]
    rfl

section

variable {σ α β : Type*} (step : σ → α → Option σ) (initial : σ)
  (read : σ → UInt32 → UInt32 → List β)

/-- A reader takes pages of any size and advances by what it received, while
the machine goes on between the reads. -/
inductive Walk : List α → σ → UInt32 → List β → Prop where
  | start {actions : List α} {state : σ}
      (run : Accepted step initial actions state) : Walk actions state 0 []
  | moved {actions more : List α} {state later : σ} {start : UInt32}
      {collected : List β} (walk : Walk actions state start collected)
      (continued : Accepted step state more later) :
      Walk (actions ++ more) later start collected
  | read {actions : List α} {state : σ} {start : UInt32}
      {collected : List β} (walk : Walk actions state start collected)
      (limit : UInt32) (some : 0 < limit) :
      Walk actions state
        (start + UInt32.ofNat (read state start limit).length)
        (collected ++ read state start limit)

/-- Every read is a slice of the list, and the pages of a walk are the
beginning of the list, all of it at an empty page. -/
structure Tiles (items : List α → List β) : Prop where
  slice : ∀ actions state, Accepted step initial actions state →
    ∀ start limit, read state start limit =
      ((items actions).drop start.toNat).take limit.toNat
  walk : ∀ actions state start collected,
    Walk step initial read actions state start collected →
      collected <+: items actions ∧ collected.Nodup ∧
        start.toNat = collected.length ∧
        ∀ limit, 0 < limit → read state start limit = [] →
          collected = items actions

variable {step initial read} {actions : List α} {state : σ} {start : UInt32}
  {collected : List β}

theorem Walk.run (walk : Walk step initial read actions state start collected) :
    Accepted step initial actions state := by
  induction walk with
  | start run => exact run
  | moved walk continued induction => exact induction.append continued
  | read walk limit some induction => exact induction

/-- A slice next to what was read so far. -/
theorem append_slice_isPrefix {list before : List β}
    (isPrefix : before <+: list) (size : Nat) :
    before ++ (list.drop before.length).take size <+: list := by
  obtain ⟨rest, rfl⟩ := isPrefix
  rw [List.drop_left, List.prefix_append_right_inj]
  exact List.take_prefix size rest

/-- Pages of a list that is kept under numbered keys and only grows. -/
theorem Tiles.of_indexed {count : σ → Nat} {entry : σ → Nat → Option β}
    {items : List α → List β}
    (listed : ∀ actions state, Accepted step initial actions state →
      IndexedList (count state) (entry state) (items actions))
    (few : ∀ actions state, Accepted step initial actions state →
      count state < 2 ^ 32)
    (grows : ∀ actions more, items actions <+: items (actions ++ more))
    (distinct : ∀ actions state, Accepted step initial actions state →
      (items actions).Nodup) :
    Tiles step initial (fun state => listPage (count state) (entry state))
      items := by
  have slices : ∀ actions state, Accepted step initial actions state →
      ∀ start limit, listPage (count state) (entry state) start limit =
        ((items actions).drop start.toNat).take limit.toNat :=
    fun actions state run =>
      (listed actions state run).listPage_eq (few actions state run)
  have prefixes : ∀ actions state start collected,
      Walk step initial (fun state => listPage (count state) (entry state))
          actions state start collected →
        collected <+: items actions ∧ start.toNat = collected.length := by
    intro actions state start collected walk
    induction walk with
    | start run => exact ⟨List.nil_prefix, rfl⟩
    | moved walk continued induction =>
        exact ⟨induction.1.trans (grows _ _), induction.2⟩
    | @read actions state start collected walk limit some induction =>
        obtain ⟨before, advanced⟩ := induction
        have longer := append_slice_isPrefix before limit.toNat
        have bound := few actions state walk.run
        rw [(listed actions state walk.run).counts] at bound
        have slice := slices actions state walk.run start limit
        rw [advanced] at slice
        rw [slice]
        refine ⟨longer, ?_⟩
        have shorter := longer.length_le
        rw [List.length_append] at shorter ⊢
        rw [UInt32.toNat_add, UInt32.toNat_ofNat_of_lt' (by
          change _ < 2 ^ 32
          omega), advanced, Nat.mod_eq_of_lt (by omega)]
  refine ⟨slices, fun actions state start collected walk => ?_⟩
  obtain ⟨before, advanced⟩ := prefixes actions state start collected walk
  have once := distinct actions state walk.run
  refine ⟨before, once.sublist before.sublist, advanced, ?_⟩
  intro limit some empty
  have positive : 0 < limit.toNat := some
  rw [slices actions state walk.run, advanced] at empty
  apply before.eq_of_length_le
  rw [List.take_eq_nil_iff, List.drop_eq_nil_iff] at empty
  omega

end
