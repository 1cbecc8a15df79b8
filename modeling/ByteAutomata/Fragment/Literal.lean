import ByteAutomata.Arena
import ByteAutomata.PatternError
import ByteAutomata.Utf8

/-!
Fragments for a text and for a leading text.

A fragment is a part of an arena with an entry; it leads to a given target after the values that it
describes. Texts are refused unless they are UTF-8, which keeps their bytes below the terminator.
-/

namespace ByteAutomata

def requireText (bytes : List UInt8) : Except PatternError (List Char) :=
  match Utf8.decode? bytes with
  | some text => .ok text
  | none => .error .invalidUtf8

namespace Arena

/-- Adds a chain of states that reads `bytes` and ends in `last`. The last byte's state comes first. -/
def pushChain (arena : Arena) (bytes : List UInt8) (last : StateId) : Arena × StateId :=
  bytes.foldr (fun byte (arena, next) => arena.pushTable (.single byte (some next))) (arena, last)

def pushExact (arena : Arena) (bytes : List UInt8) (next : Target) : Arena × StateId :=
  let (arena, last) := arena.pushTable (.single valueTerminator next)
  arena.pushChain bytes last

/-- Adds a fragment for all values that begin with `bytes`: after these, every byte and the
terminator lead to `next`. -/
def pushLeading (arena : Arena) (bytes : List UInt8) (next : Target) : Arena × StateId :=
  let (arena, rest) := arena.pushTable (.always next)
  arena.pushChain bytes rest

end Arena

end ByteAutomata
