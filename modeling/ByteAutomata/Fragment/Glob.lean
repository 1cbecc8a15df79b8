import ByteAutomata.Fragment.Literal

/-!
Fragments for globs.

A glob pattern is a sequence of literal bytes and of `*`, which stands for any run of bytes. Shell
patterns have at most one `*` and no escapes. Wildcard patterns have any number of them, no two side
by side, and write a literal `*` or `\` after a `\`.
-/

namespace ByteAutomata

inductive GlobToken where
  | literal (byte : UInt8)
  | any
  deriving DecidableEq, Repr

namespace GlobToken

def star : UInt8 := 0x2A

def backslash : UInt8 := 0x5C

/-- The byte that closes a string of a document. -/
def quote : UInt8 := 0x22

def ofShell (bytes : List UInt8) : Except PatternError (List GlobToken) :=
  if 1 < bytes.count star then .error .multipleGlobs
  else .ok (bytes.map fun byte => if byte = star then .any else .literal byte)

/-- The tokens of a wildcard pattern from `offset` on, where `afterAny` tells whether a `*` stands
right before. A lone `\` at the end, or before a closing quote, escapes nothing. -/
def ofWildcardFrom (offset : Nat) (afterAny : Bool) :
    List UInt8 → Except PatternError (List GlobToken)
  | [] => .ok []
  | byte :: rest =>
    if byte = backslash then
      match rest with
      | [] => .error .trailingEscape
      | escaped :: after =>
        if escaped = star ∨ escaped = backslash then
          (literal escaped :: ·) <$> ofWildcardFrom (offset + 2) false after
        else if escaped = quote ∧ after = [] then .error .trailingEscape
        else .error (.invalidEscape (((Utf8.decode? rest).bind (·.head?)).getD '\uFFFD') offset)
    else if byte = star then
      if afterAny then .error (.adjacentGlobs offset)
      else (any :: ·) <$> ofWildcardFrom (offset + 1) true rest
    else (literal byte :: ·) <$> ofWildcardFrom (offset + 1) false rest

def ofWildcard (bytes : List UInt8) : Except PatternError (List GlobToken) :=
  ofWildcardFrom 0 false bytes

end GlobToken

namespace Arena

/-- Lets `current` read the tokens. A `*` makes it spin on every byte but the terminator; before the
closing quote, `*` is the rest of the value whatever it is. -/
def fillGlob (arena : Arena) (current : StateId) (next : Target) : List GlobToken → Arena
  | [] => arena.modifyTable current (·.override valueTerminator next)
  | .literal byte :: rest =>
    let (arena, after) := arena.pushEmpty
    (arena.modifyTable current (·.override byte (some after))).fillGlob after next rest
  | .any :: rest =>
    if rest = [.literal GlobToken.quote] then
      arena.modifyTable current (·.setDefault next)
    else (arena.setSpinout current (some current)).fillGlob current next rest

def pushGlob (arena : Arena) (tokens : List GlobToken) (next : Target) : Arena × StateId :=
  let (arena, start) := arena.pushEmpty
  (arena.fillGlob start next tokens, start)

end Arena

end ByteAutomata
