import ByteAutomata.Arena
import ByteAutomata.Word
import Std.Data.HashMap

/-!
The union of two automata of one arena.

A state of the union stands for a pair of states that the two automata can occupy at the same time.
Each pair is named before its moves are worked out, so loops close and shared parts are joined once.
A state with epsilons is not combined: the pair becomes a splice that forwards to both.
-/

namespace ByteAutomata

/-- A new state and the two states that it combines. -/
structure Pairing where
  joint : StateId
  left : StateId
  right : StateId

/-- The growing arena, the names given to pairs, and the pairs whose moves are still to be worked
out, the next one first. -/
structure Joining where
  arena : Arena
  named : Std.HashMap (StateId × StateId) StateId := ∅
  pending : List Pairing := []

def orderedPair (a b : StateId) : StateId × StateId :=
  if a < b then (a, b) else (b, a)

namespace Joining

/-- Names a pair by a state with no moves of its own yet. -/
def name (joining : Joining) (a b : StateId) (state : State) : Joining × StateId :=
  let (arena, id) := joining.arena.push state
  ({ joining with arena, named := joining.named.insert (orderedPair a b) id }, id)

/-- The state for two states that are active together. -/
def resolvePair (joining : Joining) (a b : StateId) : Checked (Joining × StateId) := do
  match joining.named[orderedPair a b]? with
  | some id => return (joining, id)
  | none =>
    let left ← joining.arena.get a
    let splice ←
      if left.table.epsilons.isEmpty then do
        pure !(← joining.arena.get b).table.epsilons.isEmpty
      else pure true
    if splice then
      return joining.name a b { table := { Table.empty with epsilons := [some a, some b] } }
    else
      let (joining, id) := joining.name a b {}
      return ({ joining with pending := ⟨id, a, b⟩ :: joining.pending }, id)

/-- The target of a move when the two automata move to `a` and to `b`. -/
def resolve (joining : Joining) (a b : Target) : Checked (Joining × Target) :=
  match a, b with
  | a, none => .ok (joining, a)
  | none, b => .ok (joining, b)
  | some a, some b =>
    if a = b then .ok (joining, some a)
    else (fun (joining, id) => (joining, some id)) <$> joining.resolvePair a b

/-- Resolves the steps of two tables, given as ceiling and step of each range, over the common
refinement of their ranges. The result lists the topmost range first. -/
def resolveRanges (joining : Joining) (runs : List (UInt8 × Target)) :
    List (UInt8 × Target) → List (UInt8 × Target) →
    Checked (Joining × List (UInt8 × Target))
  | [], _ => .ok (joining, runs)
  | _, [] => .ok (joining, runs)
  | (ceilingA, a) :: restA, (ceilingB, b) :: restB => do
    let (joining, target) ← joining.resolve a b
    if ceilingA < ceilingB then
      joining.resolveRanges (Table.extendRuns ceilingA target runs) restA ((ceilingB, b) :: restB)
    else if ceilingB < ceilingA then
      joining.resolveRanges (Table.extendRuns ceilingB target runs) ((ceilingA, a) :: restA) restB
    else
      joining.resolveRanges (Table.extendRuns ceilingA target runs) restA restB
  termination_by as bs => as.length + bs.length

def fill (joining : Joining) (pairing : Pairing) : Checked Joining := do
  let left ← joining.arena.get pairing.left
  let right ← joining.arena.get pairing.right
  let (joining, spinout) ← joining.resolve left.table.spinout right.table.spinout
  let (joining, runs) ← joining.resolveRanges [] left.table.runs right.table.runs
  let state : State :=
    { table := { Table.empty with spinout }.withRuns runs.reverse
      continuations := addMissing left.continuations right.continuations }
  return { joining with arena := joining.arena.put pairing.joint state }

def run : (rounds : Nat) → Joining → Checked Joining
  | 0, joining => .ok joining
  | rounds + 1, joining =>
    match joining.pending with
    | [] => .ok joining
    | pairing :: rest => do run rounds (← { joining with pending := rest }.fill pairing)

end Joining

namespace Arena

/-- Bounds the rounds of a union. A round takes one pair, and no pair comes twice. The pairs of the
arena's own states bound those of a well-formed arena. An arena with dangling names can come to pair
new states too, of which there are fewer than 32-bit names. -/
def pairBound (arena : Arena) : Nat :=
  max (arena.size * arena.size) word32Bound

/-- Joins the automata that start at `a` and at `b` into one that reports what either reports. No
state of the arena changes; the new automaton can share states with both. -/
def union (arena : Arena) (a b : Target) : Checked (Arena × Target) := do
  let (joining, start) ← Joining.resolve { arena } a b
  let joining ← joining.run arena.pairBound
  return (joining.arena, start)

end Arena

end ByteAutomata
