import ByteAutomata.Proofs.ArenaStates

/-!
Automata behind the states of another arena.

`base.above arena` puts the states of `arena` behind those of `base` and raises every name by the
number of states below. Tables and arenas are built in the same way there: every operation commutes
with raising. Where a table is packed into ranges this rests on raising being injective.
-/

namespace ByteAutomata

/-- The target behind `below` more states. -/
def Target.raise (below : Nat) (target : Target) : Target := target.map (below + ·)

variable {below : Nat}

@[simp] theorem Target.raise_none (below : Nat) : Target.raise below none = none := rfl

@[simp] theorem Target.raise_some (below : Nat) (id : StateId) :
    Target.raise below (some id) = some (below + id) := rfl

theorem Target.raise_injective (below : Nat) : Function.Injective (Target.raise below) :=
  Option.map_injective fun _ _ same => Nat.add_left_cancel same

@[simp] theorem Target.raise_inj (a b : Target) :
    Target.raise below a = Target.raise below b ↔ a = b :=
  (Target.raise_injective below).eq_iff

namespace Table

/-- The table with every target passed through `name`. -/
def mapTargets (name : Target → Target) (table : Table) : Table where
  ceilings := table.ceilings
  steps := table.steps.map name
  epsilons := table.epsilons.map name
  spinout := name table.spinout

/-- The table with every target raised. -/
def raise (below : Nat) : Table → Table := mapTargets (Target.raise below)

variable {table : Table} {byte : UInt8} {target : Target}

@[simp] theorem raise_empty (below : Nat) : Table.empty.raise below = Table.empty := rfl

@[simp] theorem raise_always (below : Nat) (target : Target) :
    (always target).raise below = always (target.raise below) := rfl

@[simp] theorem epsilons_raise : (table.raise below).epsilons = table.epsilons.map (Target.raise below) :=
  rfl

@[simp] theorem wellFormed_raise : (table.raise below).WellFormed ↔ table.WellFormed := by
  simp [wellFormed_iff, raise, mapTargets]

theorem firstAbove_raise (byte : UInt8) (ceilings : List UInt8) (steps : List Target) :
    firstAbove byte ceilings (steps.map (Target.raise below)) =
      (Option.map (Target.raise below)) <$> firstAbove byte ceilings steps := by
  induction ceilings generalizing steps with
  | nil => rfl
  | cons ceiling rest ih =>
    cases steps with
    | nil =>
      by_cases lower : byte < ceiling
      · simp [firstAbove, lower]
      · simpa [firstAbove, lower] using ih []
    | cons target steps =>
      by_cases lower : byte < ceiling
      · simp [firstAbove, lower]
      · simpa [firstAbove, lower] using ih steps

theorem step_raise (table : Table) (byte : UInt8) :
    (table.raise below).step byte = Target.raise below <$> table.step byte := by
  simp only [step, raise, mapTargets, firstAbove_raise]
  cases found : firstAbove byte table.ceilings table.steps with
  | error fault => rfl
  | ok result =>
    cases result with
    | some target => rfl
    | none =>
      by_cases lower : byte < byteCeiling <;>
        simp [lower, bind, Except.bind, pure, Except.pure, Functor.map, Except.map, throw,
          throwThe, MonadExceptOf.throw]

@[simp] theorem lookup_raise (table : Table) (byte : UInt8) :
    (table.raise below).lookup byte = Target.raise below (table.lookup byte) := by
  unfold lookup
  rw [step_raise]
  cases table.step byte <;> rfl

theorem cellsFrom_raise (floor : Nat) (ceilings : List UInt8) (steps : List Target) :
    cellsFrom floor ceilings (steps.map (Target.raise below)) =
      (List.map (Target.raise below)) <$> cellsFrom floor ceilings steps := by
  induction ceilings generalizing floor steps with
  | nil => simp [cellsFrom, Functor.map, Except.map]
  | cons ceiling rest ih =>
    by_cases wide : floor < min ceiling.toNat tableWidth
    · cases steps with
      | nil =>
        simp only [cellsFrom, wide, ↓reduceIte, List.map_nil]
        rfl
      | cons target steps =>
        simp only [cellsFrom, wide, ↓reduceIte, List.map_cons, ih]
        cases cellsFrom (min ceiling.toNat tableWidth) rest steps <;>
          simp [Functor.map, Except.map]
    · simp only [cellsFrom, wide, ↓reduceIte, ← List.map_tail, ih]

theorem unpack_raise (table : Table) :
    (table.raise below).unpack = (List.map (Target.raise below)) <$> table.unpack :=
  cellsFrom_raise 0 table.ceilings table.steps

@[simp] theorem cells_raise (table : Table) :
    (table.raise below).cells = table.cells.map (Target.raise below) := by
  unfold cells
  rw [unpack_raise]
  cases table.unpack <;> simp [Functor.map, Except.map]

theorem runsFrom_raise (floor : Nat) (last : Target) (cells : List Target) :
    runsFrom floor (last.raise below) (cells.map (Target.raise below)) =
      (runsFrom floor last cells).map fun run => (run.1, run.2.raise below) := by
  induction cells generalizing floor last with
  | nil => rfl
  | cons target rest ih =>
    by_cases same : target = last
    · simp only [List.map_cons, runsFrom, same, ↓reduceIte, ih]
    · simp only [List.map_cons, runsFrom, Target.raise_inj, same, ↓reduceIte, ih]

theorem withRuns_raise (table : Table) (runs : List (UInt8 × Target)) :
    (table.raise below).withRuns (runs.map fun run => (run.1, run.2.raise below)) =
      (table.withRuns runs).raise below := by
  simp [withRuns, raise, mapTargets, Function.comp_def]

theorem runs_raise (table : Table) :
    (table.raise below).runs = table.runs.map fun run => (run.1, run.2.raise below) := by
  simp only [runs, raise, mapTargets, List.zip_map_right]
  rfl

theorem withCells_raise (table : Table) (cells : List Target) :
    (table.raise below).withCells (cells.map (Target.raise below)) =
      (table.withCells cells).raise below := by
  have head : (cells.map (Target.raise below)).headD none = (cells.headD none).raise below := by
    cases cells <;> rfl
  rw [withCells, head, runsFrom_raise, withRuns_raise]
  rfl

theorem override_raise (table : Table) (byte : UInt8) (target : Target) :
    (table.raise below).override byte (target.raise below) =
      (table.override byte target).raise below := by
  rw [override, cells_raise, ← List.map_set, withCells_raise]
  rfl

theorem overrideRange_raise (table : Table) (lo hi : UInt8) (target : Target) :
    (table.raise below).overrideRange lo hi (target.raise below) =
      (table.overrideRange lo hi target).raise below := by
  have filled : fillCells (table.cells.map (Target.raise below)) lo.toNat hi.toNat
      (target.raise below) =
      (fillCells table.cells lo.toNat hi.toNat target).map (Target.raise below) := by
    simp [fillCells]
  rw [overrideRange, cells_raise, filled, withCells_raise]
  rfl

theorem mapping_raise (fallback : Target) (entries : List (UInt8 × Target)) :
    mapping (fallback.raise below) (entries.map fun entry => (entry.1, entry.2.raise below)) =
      (mapping fallback entries).raise below := by
  have filled (cells : List Target) :
      (entries.map fun entry => (entry.1, entry.2.raise below)).foldl
        (fun cells entry => cells.set entry.1.toNat entry.2) (cells.map (Target.raise below)) =
      (entries.foldl (fun cells entry => cells.set entry.1.toNat entry.2) cells).map
        (Target.raise below) := by
    induction entries generalizing cells with
    | nil => rfl
    | cons entry rest ih =>
      rw [List.map_cons, List.foldl_cons, List.foldl_cons, ← List.map_set, ih]
  unfold mapping ofCells
  rw [← List.map_replicate, filled]
  exact withCells_raise Table.empty _

theorem single_raise (byte : UInt8) (target : Target) :
    single byte (target.raise below) = (single byte target).raise below :=
  mapping_raise none [(byte, target)]

/-- The table, packed again if two neighbouring ranges lead to the same target. -/
def coalesce (table : Table) : Checked Table :=
  if (table.steps.zip table.steps.tail).any (fun pair => pair.1 = pair.2) then
    table.withCells <$> table.unpack
  else .ok table

theorem rename_eq_coalesce (table : Table) (name : Target → Target) :
    table.rename name = (table.mapTargets name).coalesce :=
  rfl

theorem coalesce_raise (table : Table) :
    (table.raise below).coalesce = raise below <$> table.coalesce := by
  have adjoin : ((table.raise below).steps.zip (table.raise below).steps.tail).any
        (fun pair => decide (pair.1 = pair.2)) =
      (table.steps.zip table.steps.tail).any fun pair => decide (pair.1 = pair.2) := by
    simp only [raise, mapTargets, ← List.map_tail, List.zip_map, List.any_map, Function.comp_def,
      Prod.map_fst, Prod.map_snd, Target.raise_inj]
  unfold coalesce
  rw [adjoin]
  by_cases joins : (table.steps.zip table.steps.tail).any (fun pair => decide (pair.1 = pair.2)) = true
  · rw [if_pos joins, if_pos joins, unpack_raise]
    cases table.unpack with
    | error fault => rfl
    | ok cells => exact congrArg Except.ok (withCells_raise table cells)
  · rw [if_neg joins, if_neg joins]
    rfl

/-- Renaming to raised names raises the renamed table. -/
theorem rename_raise (table : Table) (name : Target → Target) :
    table.rename (fun target => (name target).raise below) =
      raise below <$> table.rename name := by
  have raised : table.mapTargets (fun target => (name target).raise below) =
      (table.mapTargets name).raise below := by
    simp [mapTargets, raise, Function.comp_def]
  rw [rename_eq_coalesce, rename_eq_coalesce, raised, coalesce_raise]

end Table

/-- The state with every target raised. -/
def State.raise (below : Nat) (state : State) : State :=
  { state with table := state.table.raise below }

theorem State.Fits.raise {size : Nat} {state : State} (fits : state.Fits size) (below : Nat) :
    (state.raise below).Fits (below + size) where
  table := Table.wellFormed_raise.mpr fits.table
  steps := by
    intro id listed
    obtain ⟨target, member, same⟩ := List.mem_map.mp listed
    obtain ⟨original, rfl, rfl⟩ := Option.map_eq_some_iff.mp same
    exact Nat.add_lt_add_left (fits.steps original member) below
  spinout := by
    intro id spins
    obtain ⟨original, same, rfl⟩ := Option.map_eq_some_iff.mp spins
    exact Nat.add_lt_add_left (fits.spinout original same) below
  epsilons := by
    intro target listed
    obtain ⟨aim, member, rfl⟩ := List.mem_map.mp listed
    obtain ⟨id, inside, rfl⟩ := fits.epsilons aim member
    exact ⟨below + id, Nat.add_lt_add_left inside below, rfl⟩

namespace Arena

/-- The states of an arena behind those of another. -/
def above (base arena : Arena) : Arena :=
  ⟨base.states ++ arena.states.map (State.raise base.size)⟩

/-- An arena and a name in it behind another arena. -/
def raised (base : Arena) (result : Arena × StateId) : Arena × StateId :=
  (base.above result.1, base.size + result.2)

variable {base arena : Arena} {id : StateId} {state : State}

@[simp] theorem size_above (base arena : Arena) :
    (base.above arena).size = base.size + arena.size := by
  simp [above, size]

theorem get?_above_of_lt (arena : Arena) (inside : id < base.size) :
    (base.above arena).get? id = base.get? id :=
  Array.getElem?_append_left inside

@[simp] theorem get?_above (base arena : Arena) (id : StateId) :
    (base.above arena).get? (base.size + id) = (arena.get? id).map (State.raise base.size) := by
  unfold get? above size
  rw [Array.getElem?_append_right (Nat.le_add_right _ _), Nat.add_sub_cancel_left,
    Array.getElem?_map]

theorem above_empty (base : Arena) : base.above {} = base := by
  simp [above]

theorem empty_above (arena : Arena) : ({} : Arena).above arena = arena := by
  have table (table : Table) : table.raise 0 = table := by
    have target : Target.raise 0 = fun target => target := by
      funext target
      cases target <;> simp
    simp [Table.raise, Table.mapTargets, target]
  have state : State.raise 0 = fun state => state := by
    funext state
    simp [State.raise, table]
  simp [above, size, state]

theorem truncate_above (base arena : Arena) : (base.above arena).truncate base.size = base := by
  simp [truncate, above, size]

@[simp] theorem push_above (base arena : Arena) (state : State) :
    (base.above arena).push (state.raise base.size) = base.raised (arena.push state) := by
  simp [push, raised, above, size]

@[simp] theorem pushTable_above (base arena : Arena) (table : Table) :
    (base.above arena).pushTable (table.raise base.size) = base.raised (arena.pushTable table) :=
  push_above base arena { table }

@[simp] theorem pushEmpty_above (base arena : Arena) :
    (base.above arena).pushEmpty = base.raised arena.pushEmpty :=
  push_above base arena {}

@[simp] theorem pushMatch_above (base arena : Arena) (x : Continuation) :
    (base.above arena).pushMatch x = base.raised (arena.pushMatch x) :=
  push_above base arena { continuations := [x] }

@[simp] theorem pushSplice_above (base arena : Arena) (targets : List Target) :
    (base.above arena).pushSplice (targets.map (Target.raise base.size)) =
      base.raised (arena.pushSplice targets) :=
  pushTable_above base arena { Table.empty with epsilons := targets }

/-- Two arenas of one size are equal if they hold the same states. -/
theorem ext_get? {left right : Arena} (same : ∀ id, left.get? id = right.get? id) : left = right :=
  congrArg Arena.mk (Array.ext_getElem? same)

/-- What holds of the names below and of those behind holds of all. -/
theorem forall_above (base : Arena) {holds : StateId → Prop} (below : ∀ id < base.size, holds id)
    (behind : ∀ id, holds (base.size + id)) (id : StateId) : holds id := by
  by_cases early : id < base.size
  · exact below id early
  · have there := behind (id - base.size)
    rwa [Nat.add_sub_cancel' (Nat.not_lt.mp early)] at there

/-- Changes that commute with raising can be made behind another arena. -/
theorem modifyTable_above (base arena : Arena) (id : StateId) {change changeRaised : Table → Table}
    (commutes : ∀ table, changeRaised (table.raise base.size) = (change table).raise base.size) :
    (base.above arena).modifyTable (base.size + id) changeRaised =
      base.above (arena.modifyTable id change) := by
  refine ext_get? (forall_above base (fun other early => ?_) fun other => ?_)
  · have apart : base.size + id ≠ other := Nat.ne_of_gt (lt_of_lt_of_le early (Nat.le_add_right _ _))
    rw [get?_modifyTable, if_neg apart, get?_above_of_lt _ early, get?_above_of_lt _ early]
  · rw [get?_modifyTable, get?_above, get?_above, get?_modifyTable]
    by_cases same : id = other
    · subst same
      cases arena.get? id <;> simp [State.raise, commutes]
    · simp [same]

theorem put_above (base arena : Arena) (id : StateId) (state : State) :
    (base.above arena).put (base.size + id) (state.raise base.size) =
      base.above (arena.put id state) := by
  simp only [put, above, size]
  rw [Array.setIfInBounds_append_right (Nat.le_add_right _ _), Nat.add_sub_cancel_left,
    Array.map_setIfInBounds]

theorem setEpsilons_above (base arena : Arena) (id : StateId) (targets : List Target) :
    (base.above arena).setEpsilons (base.size + id) (targets.map (Target.raise base.size)) =
      base.above (arena.setEpsilons id targets) :=
  modifyTable_above base arena id fun _ => rfl

theorem setSpinout_above (base arena : Arena) (id : StateId) (target : Target) :
    (base.above arena).setSpinout (base.size + id) (target.raise base.size) =
      base.above (arena.setSpinout id target) :=
  modifyTable_above base arena id fun _ => rfl

theorem WellFormed.above (below : base.WellFormed) (formed : arena.WellFormed) :
    (base.above arena).WellFormed := by
  refine wellFormed_iff.mpr (forall_above base (fun id early state found => ?_) fun id state found => ?_)
  · rw [get?_above_of_lt _ early] at found
    rw [size_above]
    exact (below.fits found).mono (Nat.le_add_right _ _)
  · rw [get?_above] at found
    obtain ⟨original, stored, rfl⟩ := Option.map_eq_some_iff.mp found
    rw [size_above]
    exact (formed.fits stored).raise base.size

end Arena

end ByteAutomata
