import ByteAutomata.Table

/-!
States and the arena that holds them.

A state is a table and the continuations it reports. States refer to one another by position, so
loops need no special form. States are only ever added at the end, and a position keeps its meaning
until the arena is truncated below it. A position is a natural number, so that an arena never runs
out of names for its states.
-/

namespace ByteAutomata

def addMissing (found more : List Continuation) : List Continuation :=
  more.foldl (fun found x => if found.contains x then found else found ++ [x]) found

structure State where
  table : Table := Table.empty
  continuations : List Continuation := []
  deriving DecidableEq, Repr

namespace State

instance : Inhabited State := ⟨{}⟩

def targets (state : State) : List Target :=
  state.table.steps ++ state.table.epsilons ++ [state.table.spinout]

end State

structure Arena where
  states : Array State := #[]
  deriving DecidableEq, Repr

namespace Arena

instance : Inhabited Arena := ⟨{}⟩

def size (arena : Arena) : Nat := arena.states.size

def isEmpty (arena : Arena) : Bool := arena.states.isEmpty

def get? (arena : Arena) (id : StateId) : Option State := arena.states[id]?

def get (arena : Arena) (id : StateId) : Checked State :=
  match arena.get? id with
  | some state => .ok state
  | none => .error (.noSuchState id)

/-! ## Adding states -/

def push (arena : Arena) (state : State) : Arena × StateId :=
  let id := arena.size
  (⟨arena.states.push state⟩, id)

def pushTable (arena : Arena) (table : Table) : Arena × StateId :=
  arena.push { table }

def pushEmpty (arena : Arena) : Arena × StateId :=
  arena.push {}

def pushMatch (arena : Arena) (continuation : Continuation) : Arena × StateId :=
  arena.push { continuations := [continuation] }

/-- Adds a state that only forwards to `targets` through epsilons. -/
def pushSplice (arena : Arena) (targets : List Target) : Arena × StateId :=
  arena.pushTable { Table.empty with epsilons := targets }

def truncate (arena : Arena) (size : Nat) : Arena :=
  ⟨arena.states.take size⟩

/-! ## Changing one state -/

def put (arena : Arena) (id : StateId) (state : State) : Arena :=
  ⟨arena.states.setIfInBounds id state⟩

def modifyTable (arena : Arena) (id : StateId) (change : Table → Table) : Arena :=
  ⟨arena.states.modify id fun state => { state with table := change state.table }⟩

def setEpsilons (arena : Arena) (id : StateId) (targets : List Target) : Arena :=
  arena.modifyTable id ({ · with epsilons := targets })

def setSpinout (arena : Arena) (id : StateId) (target : Target) : Arena :=
  arena.modifyTable id ({ · with spinout := target })

/-! ## What each operation leaves -/

theorem get_eq_ok_iff {arena : Arena} {id : StateId} {state : State} :
    arena.get id = .ok state ↔ arena.get? id = some state := by
  unfold get
  cases arena.get? id <;> simp

@[simp] theorem size_push (arena : Arena) (state : State) :
    (arena.push state).1.size = arena.size + 1 :=
  Array.size_push state

theorem get?_push (arena : Arena) (state : State) (id : StateId) :
    (arena.push state).1.get? id = if id = arena.size then some state else arena.get? id :=
  Array.getElem?_push

@[simp] theorem size_put (arena : Arena) (id : StateId) (state : State) :
    (arena.put id state).size = arena.size :=
  Array.size_setIfInBounds

theorem get?_put_of_ne (arena : Arena) (state : State) {id other : StateId} (h : id ≠ other) :
    (arena.put id state).get? other = arena.get? other :=
  Array.getElem?_setIfInBounds_ne h

@[simp] theorem size_modifyTable (arena : Arena) (id : StateId) (change : Table → Table) :
    (arena.modifyTable id change).size = arena.size :=
  Array.size_modify

theorem get?_modifyTable_of_ne (arena : Arena) (change : Table → Table) {id other : StateId}
    (h : id ≠ other) : (arena.modifyTable id change).get? other = arena.get? other := by
  simp [get?, modifyTable, Array.getElem?_modify, h]

/-! ## Kinds of states -/

/-- True if the state lists itself among its epsilons, and so stays alive on every byte. -/
def hasSelfEpsilon (arena : Arena) (id : StateId) : Checked Bool := do
  return (← arena.get id).table.epsilons.contains (some id)

/-- True if the state only forwards through epsilons to other states. -/
def isEpsilonOnly (arena : Arena) (id : StateId) : Checked Bool := do
  let state ← arena.get id
  return !state.table.epsilons.isEmpty
    && state.table.hasNoByteSteps
    && state.table.spinout.isNone
    && state.continuations.isEmpty
    && !state.table.epsilons.contains (some id)

/-! ## Well-formed arenas -/

/-- A step or a spinout leads nowhere or to a state of the arena. -/
def TargetWithin (arena : Arena) (target : Target) : Prop :=
  ∀ id ∈ target, id < arena.size

/-- An epsilon leads to a state of the arena. -/
def EpsilonWithin (arena : Arena) (target : Target) : Prop :=
  ∃ id ∈ target, id < arena.size

structure WellFormed (arena : Arena) : Prop where
  table : ∀ state ∈ arena.states, state.table.WellFormed
  step : ∀ state ∈ arena.states, ∀ target ∈ state.table.steps, arena.TargetWithin target
  spinout : ∀ state ∈ arena.states, arena.TargetWithin state.table.spinout
  epsilon : ∀ state ∈ arena.states, ∀ target ∈ state.table.epsilons, arena.EpsilonWithin target

end Arena

end ByteAutomata
