import ByteAutomata.Arena
import Std.Data.HashMap

/-!
Breadth-first exploration of an arena.

The states reachable from a start are listed in the order of their discovery: a state's successors
are its steps by range, then its epsilons, then its spinout. The position in that list is the name a
state takes when the explored part is copied out.
-/

namespace ByteAutomata

/-- The states discovered so far and where each stands among them. -/
structure Discovery where
  order : Array StateId := #[]
  position : Std.HashMap StateId Nat := ∅

namespace Discovery

def add (found : Discovery) (id : StateId) : Discovery where
  order := found.order.push id
  position := found.position.insert id found.order.size

def visit (avoid : Target) (found : Discovery) : Target → Discovery
  | none => found
  | some id =>
    if some id = avoid ∨ found.position.contains id then found else found.add id

end Discovery

namespace Arena

/-- Expands the discovered states from position `next` on. Each round expands one state of the
arena, so one round more than there are states is enough: the last one finds nothing to expand, or
a name without a state. -/
def exploreFrom (arena : Arena) (avoid : Target) :
    (rounds : Nat) → (next : Nat) → Discovery → Checked Discovery
  | 0, _, found => .ok found
  | rounds + 1, next, found =>
    match found.order[next]? with
    | none => .ok found
    | some id => do
      let state ← arena.get id
      arena.exploreFrom avoid rounds (next + 1) (state.targets.foldl (Discovery.visit avoid) found)

/-- The states reachable from `start` without passing through `avoid`. -/
def explore (arena : Arena) (start : StateId) (avoid : Target) : Checked Discovery :=
  arena.exploreFrom avoid (arena.size + 1) 0 (Discovery.add {} start)

/-- All states reachable from `start`, in the order of their discovery. -/
def reachable (arena : Arena) (start : Target) : Checked (List StateId) :=
  match start with
  | none => .ok []
  | some id => (·.order.toList) <$> arena.explore id none

/-- True if no state reachable from `start` has epsilons or a spinout, so that one active state is
enough to walk the automaton. -/
def isDeterministic (arena : Arena) (start : Target) : Checked Bool := do
  (← arena.reachable start).allM fun id => do
    let state ← arena.get id
    return state.table.epsilons.isEmpty && state.table.spinout.isNone

/-- Copies the states reachable from `start` into an arena of their own, where `start` has
position 0. -/
def extract (arena : Arena) (start : Target) : Checked (Arena × Target) :=
  match start with
  | none => .ok ({}, none)
  | some id => do
    let found ← arena.explore id none
    let name (target : Target) : Target := target.bind (found.position[·]?)
    let states ← found.order.mapM fun id => do
      let state ← arena.get id
      return { state with table := ← state.table.rename name }
    return (⟨states⟩, name (some id))

end Arena

end ByteAutomata
