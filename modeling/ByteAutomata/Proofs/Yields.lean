import ByteAutomata.Proofs.ArenaStates
import ByteAutomata.Run

/-!
What an automaton reports, said without running it.

A state yields a continuation on some bytes if following epsilons, byte steps, spinouts and states
that stay where they are can lead over these bytes to a state that holds the continuation. A value
reports what its start yields on a leading part of the terminated value. Runs by frontier and
deterministic runs are compared with this relation and never with one another.
-/

namespace ByteAutomata

/-- Where a state of this name can be after one byte, before following epsilons. -/
def State.MovesTo (state : State) (id : StateId) (byte : UInt8) (next : StateId) : Prop :=
  state.table.lookup byte = some next ∨
    (byte ≠ valueTerminator ∧ state.table.spinout = some next) ∨
    (some id ∈ state.table.epsilons ∧ next = id)

/-- A state with its targets passed through `name`. -/
structure State.RenamesTo (name : StateId → StateId) (state copy : State) : Prop where
  continuations : copy.continuations = state.continuations
  lookup : ∀ byte, copy.table.lookup byte = (state.table.lookup byte).map name
  spinout : copy.table.spinout = state.table.spinout.map name
  epsilons : copy.table.epsilons = state.table.epsilons.map (Option.map name)

/-- A state leads to another through a byte step, its spinout or an epsilon. -/
def State.LeadsTo (state : State) (next : StateId) : Prop :=
  (∃ byte, state.table.lookup byte = some next) ∨ state.table.spinout = some next ∨
    some next ∈ state.table.epsilons

theorem State.LeadsTo.mem_targets {size : Nat} {state : State} {next : StateId}
    (leads : state.LeadsTo next) (fits : state.Fits size) : some next ∈ state.targets := by
  simp only [State.targets, List.mem_append, List.mem_singleton]
  rcases leads with ⟨byte, led⟩ | spins | listed
  · exact Or.inl (Or.inl (Table.lookup_mem_steps fits.table led))
  · exact Or.inr spins.symm
  · exact Or.inl (Or.inr listed)

theorem State.Fits.lt_of_leadsTo {size : Nat} {state : State} (fits : state.Fits size)
    {next : StateId} (leads : state.LeadsTo next) : next < size := by
  rcases leads with ⟨byte, led⟩ | spins | listed
  · exact fits.lookup_lt led
  · exact fits.spinout next spins
  · exact fits.epsilon_lt listed

/-- A move goes to a target of the state or stays. -/
theorem State.MovesTo.leadsTo {state : State} {id next : StateId} {byte : UInt8}
    (moves : state.MovesTo id byte next) : state.LeadsTo next := by
  rcases moves with led | ⟨_, spins⟩ | ⟨listed, same⟩
  · exact Or.inl ⟨byte, led⟩
  · exact Or.inr (Or.inl spins)
  · exact Or.inr (Or.inr (same ▸ listed))

namespace State.RenamesTo

variable {name : StateId → StateId} {state copy : State}

theorem refl (state : State) : state.RenamesTo (fun id => id) state where
  continuations := rfl
  lookup := by simp
  spinout := by simp
  epsilons := by simp

theorem mem_epsilons_iff (same : state.RenamesTo name copy) {copyNext : StateId} :
    some copyNext ∈ copy.table.epsilons ↔
      ∃ next, some next ∈ state.table.epsilons ∧ name next = copyNext := by
  rw [same.epsilons, List.mem_map]
  constructor
  · rintro ⟨target, listed, aimed⟩
    obtain ⟨next, rfl, named⟩ := Option.map_eq_some_iff.mp aimed
    exact ⟨next, listed, named⟩
  · rintro ⟨next, listed, rfl⟩
    exact ⟨some next, listed, rfl⟩

/-- A copy stays where the state stays, if no other state behind it shares its name. -/
theorem self_mem_epsilons_iff (same : state.RenamesTo name copy) {id : StateId}
    (apart : ∀ next, state.LeadsTo next → name next = name id → next = id) :
    some (name id) ∈ copy.table.epsilons ↔ some id ∈ state.table.epsilons := by
  rw [same.mem_epsilons_iff]
  constructor
  · rintro ⟨next, listed, named⟩
    exact apart next (Or.inr (Or.inr listed)) named ▸ listed
  · exact fun listed => ⟨id, listed, rfl⟩

/-- The moves of a copy are the renamed moves of the state. -/
theorem movesTo_iff (same : state.RenamesTo name copy) {id copyNext : StateId} {byte : UInt8}
    (apart : ∀ next, state.LeadsTo next → name next = name id → next = id) :
    copy.MovesTo (name id) byte copyNext ↔
      ∃ next, state.MovesTo id byte next ∧ name next = copyNext := by
  rw [MovesTo, same.lookup, same.spinout, same.self_mem_epsilons_iff apart, Option.map_eq_some_iff,
    Option.map_eq_some_iff]
  constructor
  · rintro (⟨next, led, named⟩ | ⟨early, next, spins, named⟩ | ⟨listed, rfl⟩)
    · exact ⟨next, Or.inl led, named⟩
    · exact ⟨next, Or.inr (Or.inl ⟨early, spins⟩), named⟩
    · exact ⟨id, Or.inr (Or.inr ⟨listed, rfl⟩), rfl⟩
  · rintro ⟨next, led | ⟨early, spins⟩ | ⟨listed, rfl⟩, named⟩
    · exact Or.inl ⟨next, led, named⟩
    · exact Or.inr (Or.inl ⟨early, next, spins, named⟩)
    · exact Or.inr (Or.inr ⟨listed, named.symm⟩)

end State.RenamesTo

/-- A state with its targets passed through a map that can also drop some. -/
structure State.Copies (name : Target → Target) (state copy : State) : Prop where
  continuations : copy.continuations = state.continuations
  table : copy.table.WellFormed
  epsilons : copy.table.epsilons = state.table.epsilons.map name
  spinout : copy.table.spinout = name state.table.spinout
  steps : ∀ id, some id ∈ copy.table.steps → some id ∈ state.table.steps.map name
  lookup : ∀ byte, copy.table.lookup byte = name (state.table.lookup byte)

/-- Renaming the table of a state never faults and copies the state. -/
theorem State.Fits.copies {size : Nat} {state : State} (fits : state.Fits size)
    (name : Target → Target) (nowhere : name none = none) (continuations : List Continuation)
    (same : continuations = state.continuations) :
    ∃ table, state.table.rename name = .ok table ∧
      state.Copies name { table, continuations } := by
  obtain ⟨table, renamed, formed, epsilons, spinout, steps, lookup⟩ :=
    Table.rename_eq fits.table name
  exact ⟨table, renamed, same, formed, epsilons, spinout, steps, lookup nowhere⟩

namespace State.Copies

variable {name : Target → Target} {state copy : State} {size larger : Nat}

/-- A copy fits where all targets of the state have names. -/
theorem fits (copies : state.Copies name copy) (nowhere : name none = none)
    (original : state.Fits size)
    (inside : ∀ next, some next ∈ state.targets → ∃ id < larger, name (some next) = some id) :
    copy.Fits larger := by
  have within {target : Target} (listed : target ∈ state.targets) {id : StateId}
      (named : name target = some id) : id < larger := by
    cases target with
    | none =>
      rw [nowhere] at named
      cases named
    | some next =>
      obtain ⟨other, bound, same⟩ := inside next listed
      rw [named, Option.some.injEq] at same
      exact same ▸ bound
  refine ⟨copies.table, ?_, ?_, ?_⟩
  · intro id listed
    obtain ⟨target, member, named⟩ := List.mem_map.mp (copies.steps id listed)
    exact within (by simp [State.targets, member]) named
  · intro id spins
    rw [copies.spinout] at spins
    exact within (by simp [State.targets]) spins
  · intro target listed
    rw [copies.epsilons] at listed
    obtain ⟨aim, member, rfl⟩ := List.mem_map.mp listed
    obtain ⟨next, _, rfl⟩ := original.epsilons aim member
    exact inside next (by simp [State.targets, member])

/-- Where no target is dropped, a copy is a renamed state. -/
theorem renamesTo (copies : state.Copies name copy) (nowhere : name none = none)
    (original : state.Fits size) {rename : StateId → StateId}
    (named : ∀ next, state.LeadsTo next → name (some next) = some (rename next)) :
    state.RenamesTo rename copy where
  continuations := copies.continuations
  lookup := by
    intro byte
    rw [copies.lookup]
    cases led : state.table.lookup byte with
    | none => exact nowhere
    | some next => exact named next (Or.inl ⟨byte, led⟩)
  spinout := by
    rw [copies.spinout]
    cases spins : state.table.spinout with
    | none => exact nowhere
    | some next => exact named next (Or.inr (Or.inl spins))
  epsilons := by
    rw [copies.epsilons]
    refine List.map_congr_left fun target listed => ?_
    obtain ⟨next, _, rfl⟩ := original.epsilons target listed
    exact named next (Or.inr (Or.inr listed))

end State.Copies

/-- What a state of this name accepts, given what each state behind it accepts. -/
def State.Accepts (state : State) (x : Continuation) (id : StateId)
    (accepts : StateId → List UInt8 → Prop) : List UInt8 → Prop
  | [] => x ∈ state.continuations ∨ ∃ next, some next ∈ state.table.epsilons ∧ accepts next []
  | byte :: rest =>
    (∃ next, some next ∈ state.table.epsilons ∧ accepts next (byte :: rest)) ∨
      ∃ next, state.MovesTo id byte next ∧ accepts next rest

namespace Arena

/-- An epsilon leads from one state to the other. -/
def Forwards (arena : Arena) (id next : StateId) : Prop :=
  ∃ state, arena.get? id = some state ∧ some next ∈ state.table.epsilons

/-- The state can be at `next` after one byte. -/
def Moves (arena : Arena) (byte : UInt8) (id next : StateId) : Prop :=
  ∃ state, arena.get? id = some state ∧ state.MovesTo id byte next

/-- The state reports the continuation itself. -/
def Holds (arena : Arena) (id : StateId) (x : Continuation) : Prop :=
  ∃ state, arena.get? id = some state ∧ x ∈ state.continuations

/-- Reading the bytes from the state can end where the continuation is reported. -/
inductive Yields (arena : Arena) (x : Continuation) : StateId → List UInt8 → Prop
  | here {id : StateId} : arena.Holds id x → Yields arena x id []
  | forward {id next : StateId} {read : List UInt8} :
      arena.Forwards id next → Yields arena x next read → Yields arena x id read
  | read {id next : StateId} {byte : UInt8} {rest : List UInt8} :
      arena.Moves byte id next → Yields arena x next rest → Yields arena x id (byte :: rest)

/-- What a run over the value reports: everything that a leading part of it leads to. -/
def Reports (arena : Arena) (start : Target) (value : List UInt8) (x : Continuation) : Prop :=
  ∃ id, start = some id ∧ ∃ read, read <+: terminated value ∧ arena.Yields x id read

@[simp] theorem not_reports_none (arena : Arena) (value : List UInt8) (x : Continuation) :
    ¬ arena.Reports none value x := by
  simp [Reports]

theorem reports_some_iff (arena : Arena) (id : StateId) (value : List UInt8) (x : Continuation) :
    arena.Reports (some id) value x ↔ ∃ read, read <+: terminated value ∧ arena.Yields x id read := by
  simp [Reports]

variable {arena : Arena} {id next : StateId} {byte : UInt8} {x : Continuation}

theorem WellFormed.lt_of_forwards (formed : arena.WellFormed) (forwards : arena.Forwards id next) :
    next < arena.size := by
  obtain ⟨state, found, listed⟩ := forwards
  exact (formed.fits found).epsilon_lt listed

theorem WellFormed.lt_of_moves (formed : arena.WellFormed) (moves : arena.Moves byte id next) :
    next < arena.size := by
  obtain ⟨state, found, move⟩ := moves
  exact (formed.fits found).lt_of_leadsTo move.leadsTo

/-! ## One step at a time -/

/-- At this state, what every state accepts agrees with what it accepts by one step more. -/
def Obeys (arena : Arena) (x : Continuation) (accepts : StateId → List UInt8 → Prop)
    (id : StateId) : Prop :=
  ∃ state, arena.get? id = some state ∧ ∀ read, accepts id read ↔ state.Accepts x id accepts read

theorem yields_iff {state : State} (found : arena.get? id = some state) (read : List UInt8) :
    arena.Yields x id read ↔ state.Accepts x id (arena.Yields x) read := by
  constructor
  · intro yields
    cases yields with
    | here holds =>
      obtain ⟨other, stored, held⟩ := holds
      rw [found, Option.some.injEq] at stored
      exact Or.inl (stored ▸ held)
    | @forward _ next _ forwards later =>
      obtain ⟨other, stored, listed⟩ := forwards
      rw [found, Option.some.injEq] at stored
      subst other
      cases read with
      | nil => exact Or.inr ⟨next, listed, later⟩
      | cons byte rest => exact Or.inl ⟨next, listed, later⟩
    | @read _ next _ _ moves later =>
      obtain ⟨other, stored, move⟩ := moves
      rw [found, Option.some.injEq] at stored
      exact Or.inr ⟨next, stored ▸ move, later⟩
  · intro accepts
    cases read with
    | nil =>
      rcases accepts with held | ⟨next, listed, later⟩
      · exact .here ⟨state, found, held⟩
      · exact .forward ⟨state, found, listed⟩ later
    | cons byte rest =>
      rcases accepts with ⟨next, listed, later⟩ | ⟨next, move, later⟩
      · exact .forward ⟨state, found, listed⟩ later
      · exact .read ⟨state, found, move⟩ later

end Arena

end ByteAutomata
