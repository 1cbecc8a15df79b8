import ByteAutomata.Proofs.TableCells
import ByteAutomata.Arena

/-!
Well-formed arenas, state by state.

An arena is well-formed if each of its states fits it: its table is well-formed and its targets are
states of the arena. A state that fits an arena fits every larger one, so adding states and
changing one state at a time keep an arena well-formed as long as the new states fit.
-/

namespace ByteAutomata

/-! ## Adding what is missing -/

section

variable {found more : List Continuation} {x : Continuation}

theorem mem_addMissing (found more : List Continuation) (x : Continuation) :
    x ∈ addMissing found more ↔ x ∈ found ∨ x ∈ more := by
  induction more generalizing found with
  | nil => simp [addMissing]
  | cons first rest ih =>
    change x ∈ addMissing (if found.contains first then found else found ++ [first]) rest ↔ _
    rw [ih]
    by_cases known : first ∈ found
    · simp only [List.contains_iff_mem.mpr known, ↓reduceIte, List.mem_cons]
      grind
    · simp only [List.contains_iff_mem, known, ↓reduceIte, List.mem_append, List.mem_cons]
      tauto

theorem nodup_addMissing {found : List Continuation} (distinct : found.Nodup)
    (more : List Continuation) : (addMissing found more).Nodup := by
  induction more generalizing found with
  | nil => exact distinct
  | cons first rest ih =>
    change (addMissing (if found.contains first then found else found ++ [first]) rest).Nodup
    by_cases known : first ∈ found
    · rw [if_pos (List.contains_iff_mem.mpr known)]
      exact ih distinct
    · rw [if_neg (by simpa using known)]
      refine ih (List.nodup_append'.mpr ⟨distinct, List.nodup_singleton first, ?_⟩)
      simpa using known

theorem addMissing_append (found first second : List Continuation) :
    addMissing found (first ++ second) = addMissing (addMissing found first) second :=
  List.foldl_append

theorem addMissing_singleton (found : List Continuation) (x : Continuation) :
    addMissing found [x] = if x ∈ found then found else found ++ [x] := by
  simp [addMissing]

theorem addMissing_of_subset (known : ∀ x ∈ more, x ∈ found) : addMissing found more = found := by
  induction more with
  | nil => rfl
  | cons x rest ih =>
    have listed := known x List.mem_cons_self
    rw [← List.singleton_append, addMissing_append, addMissing_singleton, if_pos listed]
    exact ih fun other member => known other (List.mem_cons_of_mem _ member)

/-- What is missing is appended once each. -/
theorem exists_append_addMissing (found more : List Continuation) :
    ∃ added, addMissing found more = found ++ added ∧ added.Nodup ∧
      ∀ x, x ∈ added ↔ x ∉ found ∧ x ∈ more := by
  induction more using List.reverseRecOn with
  | nil => exact ⟨[], (List.append_nil found).symm, List.nodup_nil, by simp⟩
  | append_singleton more x ih =>
    obtain ⟨added, same, distinct, exactly⟩ := ih
    rw [addMissing_append, addMissing_singleton, same]
    by_cases known : x ∈ found ++ added
    · rw [if_pos known]
      refine ⟨added, rfl, distinct, fun other => ?_⟩
      rw [exactly, List.mem_append, List.mem_singleton]
      rw [List.mem_append, exactly] at known
      grind
    · rw [if_neg known]
      rw [List.mem_append, not_or] at known
      refine ⟨added ++ [x], List.append_assoc _ _ _, ?_, fun other => ?_⟩
      · exact List.nodup_append'.mpr ⟨distinct, List.nodup_singleton x, by simpa using known.2⟩
      · rw [List.mem_append, List.mem_singleton, exactly, List.mem_append, List.mem_singleton]
        grind

/-- Adding what is missing goes along with a renaming that keeps names apart. -/
theorem addMissing_map {rename : Nat → Nat} {known : List Nat} (apart : Set.InjOn rename {id | id ∈ known})
    (inside : ∀ x ∈ found, x ∈ known) (insideMore : ∀ x ∈ more, x ∈ known) :
    addMissing (found.map rename) (more.map rename) = (addMissing found more).map rename := by
  induction more generalizing found with
  | nil => rfl
  | cons x rest ih =>
    have here := insideMore x List.mem_cons_self
    have same : rename x ∈ found.map rename ↔ x ∈ found := by
      rw [List.mem_map]
      constructor
      · rintro ⟨other, listed, equal⟩
        exact apart (inside other listed) here equal ▸ listed
      · exact fun listed => ⟨x, listed, rfl⟩
    have step : addMissing (found.map rename) [rename x] = (addMissing found [x]).map rename := by
      rw [addMissing_singleton, addMissing_singleton]
      by_cases listed : x ∈ found
      · rw [if_pos listed, if_pos (same.mpr listed)]
      · rw [if_neg listed, if_neg (mt same.mp listed), List.map_append, List.map_singleton]
    rw [List.map_cons, ← List.singleton_append, addMissing_append, step,
      ← List.singleton_append (l := rest), addMissing_append]
    refine ih (fun other listed => ?_) fun other listed => insideMore other (List.mem_cons_of_mem _ listed)
    rcases (mem_addMissing found [x] other).mp listed with earlier | last
    · exact inside other earlier
    · exact List.mem_singleton.mp last ▸ here

end

/-! ## States that fit -/

/-- The state may stand in an arena of this size. -/
structure State.Fits (size : Nat) (state : State) : Prop where
  table : state.table.WellFormed
  steps : ∀ id, some id ∈ state.table.steps → id < size
  spinout : ∀ id, state.table.spinout = some id → id < size
  epsilons : ∀ target ∈ state.table.epsilons, ∃ id < size, target = some id

namespace State.Fits

variable {size larger : Nat} {state : State}

theorem mono (fits : state.Fits size) (order : size ≤ larger) : state.Fits larger where
  table := fits.table
  steps := fun id member => lt_of_lt_of_le (fits.steps id member) order
  spinout := fun id spins => lt_of_lt_of_le (fits.spinout id spins) order
  epsilons := by
    intro target member
    obtain ⟨id, inside, same⟩ := fits.epsilons target member
    exact ⟨id, lt_of_lt_of_le inside order, same⟩

theorem lookup_lt (fits : state.Fits size) {byte : UInt8} {id : StateId}
    (led : state.table.lookup byte = some id) : id < size :=
  fits.steps id (Table.lookup_mem_steps fits.table led)

theorem epsilon_lt (fits : state.Fits size) {id : StateId}
    (listed : some id ∈ state.table.epsilons) : id < size := by
  obtain ⟨other, inside, same⟩ := fits.epsilons _ listed
  exact Option.some.inj same ▸ inside

/-- A state without moves fits every arena. -/
theorem of_idle (size : Nat) (continuations : List Continuation) :
    State.Fits size { continuations } where
  table := Table.wellFormed_empty
  steps := by simp [Table.empty, Table.always]
  spinout := by simp [Table.empty, Table.always]
  epsilons := by simp [Table.empty, Table.always]

/-- A state that only forwards fits where its targets are. -/
theorem of_splice {targets : List Target}
    (inside : ∀ target ∈ targets, ∃ id < size, target = some id) :
    State.Fits size { table := { Table.empty with epsilons := targets } } where
  table := Table.wellFormed_empty
  steps := by simp [Table.empty, Table.always]
  spinout := by simp [Table.empty, Table.always]
  epsilons := inside

/-- A state that moves by ranges and a spinout fits where these lead. -/
theorem of_tabulates {runs : List (UInt8 × Target)} {leads : UInt8 → Target → Prop}
    (tabulates : Table.Tabulates runs byteCeiling leads) (named : ∀ id, some id ∈ runs.map (·.2) → id < size)
    {spinout : Target} (spins : ∀ id, spinout = some id → id < size) (continuations : List Continuation) :
    State.Fits size { table := { Table.empty with spinout }.withRuns runs.reverse, continuations } where
  table := tabulates.wellFormed_withRuns _
  steps := fun id listed => named id ((tabulates.mem_steps_withRuns _).mp listed)
  spinout := spins
  epsilons := by simp [Table.withRuns, Table.empty, Table.always]

end State.Fits

namespace Arena

variable {arena : Arena} {id : StateId} {state : State}

theorem targetWithin_some (inside : id < arena.size) : arena.TargetWithin (some id) :=
  fun _ same => Option.some.inj same ▸ inside

theorem get?_isSome_iff : (∃ state, arena.get? id = some state) ↔ id < arena.size := by
  constructor
  · rintro ⟨state, found⟩
    exact (Array.getElem?_eq_some_iff.mp found).1
  · intro inside
    exact ⟨_, Array.getElem?_eq_getElem inside⟩

theorem exists_get? (inside : id < arena.size) : ∃ state, arena.get? id = some state :=
  get?_isSome_iff.mpr inside

theorem lt_size_of_get? (found : arena.get? id = some state) : id < arena.size :=
  get?_isSome_iff.mp ⟨state, found⟩

theorem get_of_get? (found : arena.get? id = some state) : arena.get id = .ok state :=
  get_eq_ok_iff.mpr found

theorem get?_put_self {other : State} (inside : id < arena.size) :
    (arena.put id other).get? id = some other := by
  have bound : id < arena.states.size := inside
  simp [get?, put, bound]

theorem get?_modifyTable (arena : Arena) (id other : StateId) (change : Table → Table) :
    (arena.modifyTable id change).get? other = if id = other
      then (arena.get? other).map (fun state => { state with table := change state.table })
      else arena.get? other :=
  Array.getElem?_modify

theorem get?_modifyTable_self (change : Table → Table) (found : arena.get? id = some state) :
    (arena.modifyTable id change).get? id =
      some { state with table := change state.table } := by
  have listed : arena.states[id]? = some state := found
  simp [get?, modifyTable, Array.getElem?_modify, listed]

theorem get?_push_of_lt {other : State} (inside : id < arena.size) :
    (arena.push other).1.get? id = arena.get? id := by
  rw [get?_push, if_neg (Nat.ne_of_lt inside)]

theorem get?_push_self (other : State) : (arena.push other).1.get? arena.size = some other := by
  rw [get?_push, if_pos rfl]

theorem mem_states_iff : state ∈ arena.states ↔ ∃ id, arena.get? id = some state :=
  Array.mem_iff_getElem?

theorem wellFormed_iff :
    arena.WellFormed ↔ ∀ id state, arena.get? id = some state → state.Fits arena.size := by
  constructor
  · intro formed id state found
    have member := mem_states_iff.mpr ⟨id, found⟩
    refine ⟨formed.table state member, ?_, ?_, ?_⟩
    · intro next listed
      exact formed.step state member _ listed next rfl
    · intro next spins
      exact formed.spinout state member next spins
    · intro target listed
      obtain ⟨next, same, inside⟩ := formed.epsilon state member target listed
      exact ⟨next, inside, same⟩
  · intro fits
    have fitting (state : State) (member : state ∈ arena.states) : state.Fits arena.size := by
      obtain ⟨id, found⟩ := mem_states_iff.mp member
      exact fits id state found
    constructor
    · intro state member
      exact (fitting state member).table
    · intro state member target listed id same
      exact (fitting state member).steps id (same ▸ listed)
    · intro state member id spins
      exact (fitting state member).spinout id spins
    · intro state member target listed
      obtain ⟨id, inside, same⟩ := (fitting state member).epsilons target listed
      exact ⟨id, same, inside⟩

theorem WellFormed.fits (formed : arena.WellFormed) (found : arena.get? id = some state) :
    state.Fits arena.size :=
  wellFormed_iff.mp formed id state found

theorem wellFormed_empty : ({} : Arena).WellFormed := by
  rw [wellFormed_iff]
  intro id state found
  have outside := lt_size_of_get? found
  simp [Arena.size] at outside

/-- A new state may refer to itself. -/
theorem WellFormed.push (formed : arena.WellFormed) (fits : state.Fits (arena.size + 1)) :
    (arena.push state).1.WellFormed := by
  rw [wellFormed_iff]
  intro id other found
  rw [size_push]
  rw [get?_push] at found
  by_cases last : id = arena.size
  · rw [if_pos last, Option.some.injEq] at found
    exact found ▸ fits
  · rw [if_neg last] at found
    exact (formed.fits found).mono (Nat.le_succ _)

theorem WellFormed.put (formed : arena.WellFormed) (fits : state.Fits arena.size) :
    (arena.put id state).WellFormed := by
  rw [wellFormed_iff]
  intro other held found
  rw [size_put]
  by_cases same : id = other
  · subst same
    have inside := lt_size_of_get? found
    rw [size_put] at inside
    rw [get?_put_self inside, Option.some.injEq] at found
    exact found ▸ fits
  · rw [get?_put_of_ne _ _ same] at found
    exact formed.fits found

theorem WellFormed.modifyTable (formed : arena.WellFormed) (change : Table → Table)
    (fits : ∀ state, arena.get? id = some state →
      State.Fits arena.size { state with table := change state.table }) :
    (arena.modifyTable id change).WellFormed := by
  rw [wellFormed_iff]
  intro other held found
  rw [size_modifyTable]
  by_cases same : id = other
  · subst same
    have inside := lt_size_of_get? found
    rw [size_modifyTable] at inside
    obtain ⟨state, stored⟩ := exists_get? inside
    rw [get?_modifyTable_self change stored, Option.some.injEq] at found
    exact found ▸ fits state stored
  · rw [get?_modifyTable_of_ne _ _ same] at found
    exact formed.fits found

/-! ## Deciding well-formedness -/

instance (arena : Arena) (target : Target) : Decidable (arena.TargetWithin target) :=
  inferInstanceAs (Decidable (∀ id ∈ target, id < arena.size))

instance (arena : Arena) (target : Target) : Decidable (arena.EpsilonWithin target) :=
  inferInstanceAs (Decidable (∃ id ∈ target, id < arena.size))

instance (arena : Arena) : Decidable arena.WellFormed :=
  decidable_of_iff
    ((∀ state ∈ arena.states, state.table.WellFormed) ∧
      (∀ state ∈ arena.states, ∀ target ∈ state.table.steps, arena.TargetWithin target) ∧
      (∀ state ∈ arena.states, arena.TargetWithin state.table.spinout) ∧
      ∀ state ∈ arena.states, ∀ target ∈ state.table.epsilons, arena.EpsilonWithin target)
    ⟨fun ⟨table, step, spinout, epsilon⟩ => ⟨table, step, spinout, epsilon⟩,
      fun formed => ⟨formed.table, formed.step, formed.spinout, formed.epsilon⟩⟩

end Arena

end ByteAutomata
