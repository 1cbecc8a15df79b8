import ByteAutomata.Fragment.Literal

/-!
Fragments for all values but those of a list.

The fragment follows the excluded values byte by byte. A byte that leaves all of them leads to the
target at once, and only where an excluded value with a first byte ends does the terminator lead nowhere.
-/

namespace ByteAutomata

/-- The bytes that the values begin with, in ascending order, each with what remains of the values
that begin with it. Empty values begin with none. -/
def groupByFirst (values : List (List UInt8)) : List (UInt8 × List (List UInt8)) :=
  let firsts := values.filterMap (·.head?)
  ((List.range 256).map UInt8.ofNat).filterMap fun byte =>
    if firsts.contains byte then
      some (byte, values.filterMap fun
        | [] => none
        | first :: rest => if first = byte then some rest else none)
    else none

namespace Arena

/-- Adds a state for all values but the nonempty ones of a list; what is excluded has at most `depth`
bytes. -/
def pushExcluding (next : Target) : (depth : Nat) → Arena → List (List UInt8) → Arena × StateId
  | 0, arena, _ => arena.pushTable (.always next)
  | depth + 1, arena, values =>
    let (arena, children) := (groupByFirst values).foldl (fun (arena, children) (byte, rests) =>
      let longer := rests.filter (!·.isEmpty)
      let (arena, child) :=
        if longer.isEmpty then arena.pushTable (.always next)
        else pushExcluding next depth arena longer
      let arena :=
        if rests.contains [] then arena.modifyTable child (·.override valueTerminator none)
        else arena
      (arena, (byte, some child) :: children)) (arena, [])
    arena.pushTable (.mapping next children)

/-- Adds a fragment for all values that are not in the list. Empty values of the list are passed over. -/
def pushComplement (arena : Arena) (excluded : List (List UInt8)) (next : Target) :
    Arena × StateId :=
  let values := excluded.filter (!·.isEmpty)
  pushExcluding next ((values.map (·.length)).foldl max 0) arena values

end Arena

end ByteAutomata
