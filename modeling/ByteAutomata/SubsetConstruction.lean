import ByteAutomata.Closure
import Std.Data.HashMap

/-!
Subset construction.

A state of the deterministic automaton stands for a closed set of states of the given one, kept as
an ascending list without repetitions. Sets are named before their moves are worked out, so the
construction ends on automata with loops. A budget can limit the number of states.
-/

namespace ByteAutomata

/-- A set of states, ascending and without repetitions. -/
abbrev StateSet := List StateId

namespace StateSet

def ofList (ids : List StateId) : StateSet :=
  (ids.mergeSort (· ≤ ·)).eraseReps

end StateSet

/-- Where the members of a set lead on one byte, before closing. -/
def Arena.moves (arena : Arena) (byte : UInt8) (members : StateSet) : Checked (List StateId) := do
  let moves ← members.mapM fun member => do
    let table := (← arena.get member).table
    let step ← table.step byte
    let spinout := if byte = valueTerminator then none else table.spinout
    let self := if table.epsilons.contains (some member) then some member else none
    return step.toList ++ spinout.toList ++ self.toList
  return moves.flatten

namespace ClosureCache

def closures (cache : ClosureCache) (arena : Arena) :
    List StateId → Checked (List StateId × ClosureCache)
  | [] => .ok ([], cache)
  | id :: rest => do
    let (closure, cache) ← cache.get arena id
    let (closures, cache) ← cache.closures arena rest
    return (closure ++ closures, cache)

def closeAll (cache : ClosureCache) (arena : Arena) (ids : List StateId) :
    Checked (StateSet × ClosureCache) := do
  let (closed, cache) ← cache.closures arena ids
  return (StateSet.ofList closed, cache)

end ClosureCache

/-- The deterministic states found so far, the names of their sets, the sets whose moves are still
to be worked out, the next one first, and the closures known. -/
structure Subsets where
  arena : Arena := {}
  named : Std.HashMap StateSet StateId := ∅
  pending : List (StateId × StateSet) := []
  closures : ClosureCache

namespace Subsets

def add (subsets : Subsets) (members : StateSet) : Subsets × StateId :=
  let (arena, id) := subsets.arena.pushEmpty
  ({ subsets with
      arena
      named := subsets.named.insert members id
      pending := (id, members) :: subsets.pending }, id)

/-- Names a set, if it is named already or the budget allows for one more. The empty set is nowhere. -/
def name (budget : Option Nat) (subsets : Subsets) (members : StateSet) :
    Option (Subsets × Target) :=
  if members.isEmpty then some (subsets, none)
  else match subsets.named[members]? with
    | some id => some (subsets, some id)
    | none =>
      if budget.any (· ≤ subsets.arena.size) then none
      else
        let (subsets, id) := subsets.add members
        some (subsets, some id)

/-- The ceilings at which moves of the set can change. The terminator takes no spinout, so it stands
alone. -/
def ceilings (states : List State) : List UInt8 :=
  let all := states.flatMap (·.table.ceilings) ++ [valueTerminator, byteCeiling]
  (all.mergeSort (· ≤ ·)).eraseReps

/-- Works out the moves of a set range by range, from `floor` up. Nothing remains when the budget is
exceeded. -/
def fillRanges (nfa : Arena) (budget : Option Nat) (members : StateSet) (floor : UInt8)
    (runs : List (UInt8 × Target)) :
    List UInt8 → Subsets → Checked (Option (Subsets × List (UInt8 × Target)))
  | [], subsets => .ok (some (subsets, runs))
  | ceiling :: rest, subsets => do
    let moves ← nfa.moves floor members
    let (reached, closures) ← subsets.closures.closeAll nfa moves
    match { subsets with closures }.name budget reached with
    | none => return none
    | some (subsets, target) =>
      fillRanges nfa budget members ceiling (Table.extendRuns ceiling target runs) rest subsets

def fill (nfa : Arena) (budget : Option Nat) (id : StateId) (members : StateSet)
    (subsets : Subsets) : Checked (Option Subsets) := do
  let states ← members.mapM fun member => nfa.get member
  let filled ← fillRanges nfa budget members 0 [] (ceilings states) subsets
  return filled.map fun (subsets, runs) =>
    let state : State :=
      { table := Table.empty.withRuns runs.reverse
        continuations := states.foldl (addMissing · ·.continuations) [] }
    { subsets with arena := subsets.arena.put id state }

def run (nfa : Arena) (budget : Option Nat) : (rounds : Nat) → Subsets → Checked (Option Subsets)
  | 0, subsets => .ok (some subsets)
  | rounds + 1, subsets =>
    match subsets.pending with
    | [] => .ok (some subsets)
    | (id, members) :: rest => do
      match ← fill nfa budget id members { subsets with pending := rest } with
      | none => return none
      | some subsets => run nfa budget rounds subsets

end Subsets

namespace Arena

/-- The deterministic automaton for the one at `start`, in an arena of its own: no epsilons, no
spinouts, and one state for each set of states that can be active together. Nothing, if it would
need more states than the budget. A round takes one set of states and none comes twice, so there
are no more rounds than sets. -/
def determinize (arena : Arena) (start : Target) (budget : Option Nat) :
    Checked (Option (Arena × Target)) :=
  match start with
  | none => .ok (some ({}, none))
  | some start => do
    let (closure, closures) ← (ClosureCache.ofSize arena.size).get arena start
    let (subsets, id) := Subsets.add { closures } (StateSet.ofList closure)
    let subsets ← Subsets.run arena budget (Nat.pow 2 arena.size) subsets
    return subsets.map fun subsets => (subsets.arena, some id)

end Arena

end ByteAutomata
