import ByteAutomata.Closure
import ByteAutomata.SparseSet

/-!
Running an automaton over a value.

Both ways of running feed the bytes of the value and then the terminator, and append to a list the
continuations of the states they reach, without repeating one that the list holds already.
`walk` keeps one active state and is right for deterministic automata. `sweep` keeps a frontier of
active states and follows epsilons.
-/

namespace ByteAutomata

def terminated (value : List UInt8) : List UInt8 := value ++ [valueTerminator]

/-! ## One active state -/

/-- Reads the remaining bytes, up to one that leads nowhere. -/
def Arena.walkFrom (arena : Arena) (current : StateId) (found : List Continuation) :
    List UInt8 → Checked (List Continuation)
  | [] => .ok found
  | byte :: rest => do
    match ← (← arena.get current).table.step byte with
    | none => return found
    | some next =>
      arena.walkFrom next (addMissing found (← arena.get next).continuations) rest

/-- Runs a deterministic automaton from `start` and appends what the states it enters report. -/
def Arena.walk (arena : Arena) (start : Target) (value : List UInt8)
    (found : List Continuation) : Checked (List Continuation) :=
  match start with
  | none => .ok found
  | some id => do
    arena.walkFrom id (addMissing found (← arena.get id).continuations) (terminated value)

/-! ## A frontier of active states -/

structure Sweep where
  frontiers : Frontiers
  closures : ClosureCache
  seen : Std.HashSet Continuation
  found : Array Continuation

namespace Sweep

def report (sweep : Sweep) (x : Continuation) : Sweep :=
  if sweep.seen.contains x then sweep
  else { sweep with seen := sweep.seen.insert x, found := sweep.found.push x }

def closure (sweep : Sweep) (arena : Arena) (id : StateId) : Checked (List StateId × Sweep) := do
  let (closure, closures) ← sweep.closures.get arena id
  return (closure, { sweep with closures })

def enter (sweep : Sweep) : Target → Checked Sweep
  | none => .ok sweep
  | some id => do
    let { frontiers, closures, seen, found } := sweep
    let { current, next } := frontiers
    let (next, _) ← next.insert id
    return { frontiers := { current, next }, closures, seen, found }

/-- Expands one member of a closure on a byte: it reports, steps, spins out unless the byte is the
terminator, and stays if it lists itself among its epsilons. -/
def expand (arena : Arena) (byte : UInt8) (sweep : Sweep) (member : StateId) : Checked Sweep := do
  let state ← arena.get member
  let sweep := state.continuations.foldl report sweep
  let sweep ← sweep.enter (← state.table.step byte)
  let sweep ← sweep.enter (if byte = valueTerminator then none else state.table.spinout)
  if state.table.epsilons.contains (some member) then sweep.enter (some member) else return sweep

def readByte (arena : Arena) (sweep : Sweep) (byte : UInt8) : Checked Sweep := do
  let sweep ← sweep.frontiers.current.toList.foldlM (fun sweep id => do
    let (members, sweep) ← Sweep.closure sweep arena id
    members.foldlM (expand arena byte) sweep) sweep
  let { frontiers, closures, seen, found } := sweep
  return { frontiers := frontiers.advance, closures, seen, found }

/-- Reads the remaining bytes while some state is active. -/
def readAll (arena : Arena) : List UInt8 → Sweep → Checked Sweep
  | [], sweep => .ok sweep
  | byte :: rest, sweep =>
    if sweep.frontiers.current.isEmpty then .ok sweep
    else do readAll arena rest (← sweep.readByte arena byte)

def reportActive (arena : Arena) (sweep : Sweep) : Checked Sweep :=
  sweep.frontiers.current.toList.foldlM (fun sweep id => do
    let (members, sweep) ← Sweep.closure sweep arena id
    members.foldlM (fun sweep member => do
      return (← arena.get member).continuations.foldl report sweep) sweep) sweep

end Sweep

/-- Runs an automaton from `start` and appends what the active states and their closures report,
before each byte and after the terminator. Frontiers and closures come back for the next run; what
the frontiers hold at first does not matter. -/
def Arena.sweep (arena : Arena) (closures : ClosureCache) (start : Target) (value : List UInt8)
    (frontiers : Frontiers) (found : List Continuation) :
    Checked (List Continuation × Frontiers × ClosureCache) :=
  match start with
  | none => .ok (found, frontiers, closures)
  | some id => do
    let frontiers := (frontiers.ensureCapacity arena.size).clear
    let (current, _) ← frontiers.current.insert id
    let sweep : Sweep :=
      { frontiers := { frontiers with current }
        closures
        seen := Std.HashSet.ofList found
        found := found.toArray }
    let sweep ← sweep.readAll arena (terminated value)
    let sweep ← sweep.reportActive arena
    return (sweep.found.toList, sweep.frontiers, sweep.closures)

end ByteAutomata
