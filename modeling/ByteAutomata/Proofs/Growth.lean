import ByteAutomata.Proofs.Yields

/-!
How arenas grow.

While a fragment is built its arena grows at the end, keeps the states that were there before the
fragment was begun, stays well-formed, and comes to report nothing that it did not report before. All
of this is one relation, which every operation on arenas satisfies.
-/

namespace ByteAutomata.Arena

/-- The arena has grown, with its first `kept` states untouched. -/
structure Extends (kept : Nat) (arena after : Arena) : Prop where
  formed : after.WellFormed
  size : arena.size ≤ after.size
  kept : ∀ id < kept, after.get? id = arena.get? id
  holds : ∀ id x, after.Holds id x → ∃ original, arena.Holds original x

variable {kept fewer : Nat} {arena middle after : Arena} {id : StateId} {state : State}

namespace Extends

theorem refl (kept : Nat) (formed : arena.WellFormed) : Extends kept arena arena :=
  ⟨formed, Nat.le_refl _, fun _ _ => rfl, fun id _ holds => ⟨id, holds⟩⟩

theorem trans (first : Extends kept arena middle) (second : Extends kept middle after) :
    Extends kept arena after where
  formed := second.formed
  size := Nat.le_trans first.size second.size
  kept := fun id inside => (second.kept id inside).trans (first.kept id inside)
  holds := by
    intro id x holds
    obtain ⟨original, held⟩ := second.holds id x holds
    exact first.holds original x held

theorem mono (extends_ : Extends kept arena after) (order : fewer ≤ kept) :
    Extends fewer arena after where
  formed := extends_.formed
  size := extends_.size
  kept := fun id inside => extends_.kept id (lt_of_lt_of_le inside order)
  holds := extends_.holds

theorem lt (extends_ : Extends kept arena after) (inside : id < arena.size) : id < after.size :=
  lt_of_lt_of_le inside extends_.size

theorem within (extends_ : Extends kept arena after) {target : Target}
    (inside : arena.TargetWithin target) : after.TargetWithin target :=
  fun id leads => extends_.lt (inside id leads)

/-- Two parts built one after the other make one. -/
theorem append (first : Extends arena.size arena middle) (second : Extends middle.size middle after) :
    Extends arena.size arena after :=
  first.trans (second.mono first.size)

end Extends

theorem WellFormed.extends_push (formed : arena.WellFormed) {table : Table}
    (fits : State.Fits (arena.size + 1) { table }) :
    Extends arena.size arena (arena.pushTable table).1 where
  formed := formed.push fits
  size := (size_push arena _).symm ▸ Nat.le_succ _
  kept := fun id inside => get?_push_of_lt inside
  holds := by
    rintro id x ⟨state, found, held⟩
    rw [pushTable, get?_push] at found
    by_cases last : id = arena.size
    · rw [if_pos last, Option.some.injEq] at found
      subst found
      cases held
    · rw [if_neg last] at found
      exact ⟨id, state, found, held⟩

theorem WellFormed.extends_modify (formed : arena.WellFormed) (new : kept ≤ id)
    (change : Table → Table) (fits : ∀ state, arena.get? id = some state →
      State.Fits arena.size { state with table := change state.table }) :
    Extends kept arena (arena.modifyTable id change) where
  formed := formed.modifyTable change fits
  size := (size_modifyTable arena id change).symm ▸ Nat.le_refl _
  kept := fun other inside =>
    get?_modifyTable_of_ne arena change (Nat.ne_of_gt (lt_of_lt_of_le inside new))
  holds := by
    rintro other x ⟨state, found, held⟩
    rw [get?_modifyTable] at found
    by_cases same : id = other
    · rw [if_pos same] at found
      obtain ⟨original, stored, rfl⟩ := Option.map_eq_some_iff.mp found
      exact ⟨other, original, stored, held⟩
    · rw [if_neg same] at found
      exact ⟨other, state, found, held⟩

/-- The result is the grown arena and a state of it. -/
structure Grows (arena : Arena) (result : Arena × StateId) : Prop where
  extends_ : Extends arena.size arena result.1
  entry : result.2 < result.1.size

theorem WellFormed.grows_pushTable (formed : arena.WellFormed) {table : Table}
    (fits : State.Fits (arena.size + 1) { table }) : arena.Grows (arena.pushTable table) where
  extends_ := formed.extends_push fits
  entry := (size_push arena _).symm ▸ Nat.lt_succ_self _

/-- A new state may forward to states that are there. -/
theorem WellFormed.grows_pushSplice (formed : arena.WellFormed) {targets : List Target}
    (inside : ∀ target ∈ targets, ∃ id < arena.size, target = some id) :
    arena.Grows (arena.pushSplice targets) := by
  refine formed.grows_pushTable (.of_splice fun target listed => ?_)
  obtain ⟨id, bound, same⟩ := inside target listed
  exact ⟨id, Nat.lt_succ_of_lt bound, same⟩

theorem WellFormed.grows_pushEmpty (formed : arena.WellFormed) : arena.Grows arena.pushEmpty :=
  formed.grows_pushTable (.of_idle _ [])

end ByteAutomata.Arena

namespace ByteAutomata.State.Fits

variable {size : Nat} {state : State}

theorem of_always {target : Target} (inside : ∀ id, target = some id → id < size) :
    State.Fits size { table := .always target } where
  table := Table.wellFormed_always target
  steps := by
    intro id listed
    exact inside id (List.mem_singleton.mp listed).symm
  spinout := by simp [Table.always]
  epsilons := by simp [Table.always]

theorem of_mapping {fallback : Target} {entries : List (UInt8 × Target)}
    (inside : ∀ id, some id = fallback ∨ some id ∈ entries.map (·.2) → id < size) :
    State.Fits size { table := .mapping fallback entries } where
  table := Table.wellFormed_mapping fallback entries
  steps := fun id listed => inside id (Table.mem_steps_mapping fallback entries listed)
  spinout := by simp [Table.mapping, Table.ofCells, Table.empty, Table.always]
  epsilons := by simp [Table.mapping, Table.ofCells, Table.empty, Table.always]

theorem of_single (byte : UInt8) {target : Target} (inside : ∀ id, target = some id → id < size) :
    State.Fits size { table := .single byte target } := by
  apply of_mapping
  intro id leads
  rcases leads with nowhere | listed
  · cases nowhere
  · exact inside id (List.mem_singleton.mp listed).symm

theorem override (fits : state.Fits size) (byte : UInt8) {target : Target}
    (inside : ∀ id, target = some id → id < size) :
    State.Fits size { state with table := state.table.override byte target } where
  table := Table.wellFormed_override fits.table byte target
  steps := by
    intro id listed
    rcases Table.mem_steps_override fits.table byte target listed with here | earlier
    · exact inside id here.symm
    · exact fits.steps id earlier
  spinout := fits.spinout
  epsilons := fits.epsilons

theorem overrideRange (fits : state.Fits size) {lo hi : UInt8} (order : lo ≤ hi)
    (below : hi < byteCeiling) {target : Target} (inside : ∀ id, target = some id → id < size) :
    State.Fits size { state with table := state.table.overrideRange lo hi target } where
  table := Table.wellFormed_overrideRange fits.table target order below
  steps := by
    intro id listed
    rcases Table.mem_steps_overrideRange fits.table lo hi target listed with here | earlier
    · exact inside id here.symm
    · exact fits.steps id earlier
  spinout := fits.spinout
  epsilons := fits.epsilons

theorem setDefault (fits : state.Fits size) {target : Target}
    (inside : ∀ id, target = some id → id < size) :
    State.Fits size { state with table := state.table.setDefault target } where
  table := Table.wellFormed_setDefault state.table target
  steps := by
    intro id listed
    exact inside id (List.mem_singleton.mp listed).symm
  spinout := fits.spinout
  epsilons := fits.epsilons

theorem setSpinout (fits : state.Fits size) {target : Target}
    (inside : ∀ id, target = some id → id < size) :
    State.Fits size { state with table := { state.table with spinout := target } } where
  table := fits.table
  steps := fits.steps
  spinout := inside
  epsilons := fits.epsilons

theorem setEpsilons (fits : state.Fits size) {targets : List Target}
    (inside : ∀ target ∈ targets, ∃ id < size, target = some id) :
    State.Fits size { state with table := { state.table with epsilons := targets } } where
  table := fits.table
  steps := fits.steps
  spinout := fits.spinout
  epsilons := inside

end ByteAutomata.State.Fits
