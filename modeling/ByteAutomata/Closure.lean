import ByteAutomata.Arena
import Std.Data.HashSet

/-!
Epsilon closures.

The closure of a state lists the states that it reaches through epsilons alone and that can do
something of their own: take a byte step, spin out, stay where they are, or report. States that only
forward are left out, for their targets stand in the list themselves. A state without epsilons is
its own closure.
-/

namespace ByteAutomata

/-- True if a state of this name acts by itself and does not only forward. -/
def State.acts (state : State) (id : StateId) : Bool :=
  !state.table.hasNoByteSteps
    || state.table.spinout.isSome
    || !state.continuations.isEmpty
    || state.table.epsilons.contains (some id)

/-- The states seen and those still to be followed, the next one first. -/
structure EpsilonSearch where
  seen : Std.HashSet Target
  stack : List Target

namespace EpsilonSearch

def visit (search : EpsilonSearch) (id : Target) : EpsilonSearch :=
  if search.seen.contains id then search
  else ⟨search.seen.insert id, id :: search.stack⟩

end EpsilonSearch

namespace Arena

/-- Follows the stacked states. No state is stacked twice, so each round takes another state of the
arena, or stops at a name without a state. -/
def closureFrom (arena : Arena) :
    (rounds : Nat) → EpsilonSearch → Checked (List StateId)
  | 0, _ => .ok []
  | rounds + 1, search =>
    match search.stack with
    | [] => .ok []
    | none :: _ => .error .nowhere
    | some id :: stack => do
      let state ← arena.get id
      let rest ← arena.closureFrom rounds
        (state.table.epsilons.foldr (fun target search => search.visit target) { search with stack })
      return if state.acts id then id :: rest else rest

/-- The epsilon closure of `start`. The first epsilon of a state is followed first. -/
def epsilonClosure (arena : Arena) (start : StateId) : Checked (List StateId) := do
  if (← arena.get start).table.epsilons.isEmpty then return [start]
  arena.closureFrom (arena.size + 1) ⟨{some start}, [some start]⟩

end Arena

structure ClosureCache where
  slots : Array (Option (List StateId)) := #[]

namespace ClosureCache

def ofSize (size : Nat) : ClosureCache := ⟨Array.replicate size none⟩

def size (cache : ClosureCache) : Nat := cache.slots.size

def isEmpty (cache : ClosureCache) : Bool := cache.slots.isEmpty

def cleared (cache : ClosureCache) : ClosureCache := ofSize cache.size

def get (cache : ClosureCache) (arena : Arena) (id : StateId) :
    Checked (List StateId × ClosureCache) :=
  match cache.slots[id]? with
  | none => .error (.noSuchState id)
  | some (some closure) => .ok (closure, cache)
  | some none => do
    let closure ← arena.epsilonClosure id
    return (closure, ⟨cache.slots.setIfInBounds id (some closure)⟩)

end ClosureCache

end ByteAutomata
