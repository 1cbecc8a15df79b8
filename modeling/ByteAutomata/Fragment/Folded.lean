import ByteAutomata.Fragment.Literal
import ByteAutomata.Unicode.Database

/-!
Fragments for a text in any mixture of upper and lower case.

For each rune of the text, the bytes of all its case variants lead from one state to the next. The
variants share the states of their common leading bytes.
-/

namespace ByteAutomata.Arena

/-- Lets `node` read `bytes` and end in `after`. Leading bytes follow the steps that `node` has
already. -/
def addPath (arena : Arena) (node after : StateId) : List UInt8 → Arena
  | [] => arena
  | [byte] => arena.modifyTable node (·.override byte (some after))
  | byte :: rest =>
    match (arena.get? node).bind (·.table.lookup byte) with
    | some child => arena.addPath child after rest
    | none =>
      let (arena, child) := arena.pushEmpty
      (arena.modifyTable node (·.override byte (some child))).addPath child after rest

/-- Lets `current` read the runes in any case and then the terminator. -/
def fillFolded [Unicode.Database] (arena : Arena) (current : StateId) (next : Target) : List Char → Arena
  | [] => arena.modifyTable current (·.override valueTerminator next)
  | rune :: rest =>
    let (arena, after) := arena.pushEmpty
    let arena := (Unicode.caseVariants rune).foldl
      (fun arena variant => arena.addPath current after (String.utf8EncodeChar variant)) arena
    arena.fillFolded after next rest

def pushFolded [Unicode.Database] (arena : Arena) (text : List Char) (next : Target) : Arena × StateId :=
  let (arena, start) := arena.pushEmpty
  (arena.fillFolded start next text, start)

end ByteAutomata.Arena
