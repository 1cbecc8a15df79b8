import ByteAutomata.Compile
import ByteAutomata.Regexp.Tree
import ByteAutomata.Union

/-!
From a regexp to a fragment.

The tree is compiled from its end to its beginning, every piece in front of the state that follows
it. A loop or an optional piece is a state that only forwards: into the atom, and past it. A bounded
repetition compiles its atom once, as a template, and copies it. Branches are compiled apart and
joined by union.

States that are still being wired up while others are compiled against them carry epsilons, so that
a union which meets them forwards to them and does not copy moves that they do not have yet.
-/

namespace ByteAutomata.Regexp

open Compile

/-- Refuses bounds above the limit, bounds that are swapped, and loops over what can read nothing. -/
def checkBounds (config : Config) (piece : Piece) : Except PatternError Unit := do
  if config.maxQuantifier < piece.least then
    throw (.quantifierTooLarge piece.least config.maxQuantifier)
  match piece.most with
  | none => if piece.atom.isNullable then throw .degenerateClosure
  | some most =>
    if config.maxQuantifier < most then throw (.quantifierTooLarge most config.maxQuantifier)
    if most < piece.least then throw (.unsupported (.mostBelowLeast piece.least most))

def splice (targets : List Target) : Compile StateId :=
  onArena fun arena => arena.pushSplice targets

/-- Adds a state to which `body` returns and which forwards into the body or on to `next`. -/
def loop (next : Target) (body : Target → Compile Target) : Compile Target := do
  let looping ← splice [next]
  let entry ← body (some looping)
  onArena fun arena => (arena.setEpsilons looping [entry, next], ())
  return some looping

/-- Adds a body and behind it a state that forwards on to `next` or back into the body. -/
def loopAtLeastOnce (next : Target) (body : Target → Compile Target) : Compile Target := do
  let back ← splice [next]
  let entry ← body (some back)
  onArena fun arena => (arena.setEpsilons back [next, entry], ())
  return entry

def graftTimes (template : Template) : Nat → Target → Compile Target
  | 0, next => return next
  | count + 1, next => do graftTimes template count (← graft template next)

/-- Adds copies of a template one before the other, each of which may be skipped together with all
that follow up to `next`. -/
def graftOptional (template : Template) (next : Target) : Nat → Target → Compile Target
  | 0, current => return current
  | count + 1, current => do
    let entry ← graft template current
    graftOptional template next count (some (← splice [entry, next]))

mutual

def compileAtom (config : Config) : Atom → Target → Compile Target
  | .dot, next => return some (← onArena fun arena => arena.pushAnyRune next)
  | .runes set, next => runes config none set next
  | .group root, next => compileRoot config root next
  | .property name set, next => runes config (some name) set next

def compilePiece (config : Config) : Piece → Target → Compile Target
  | .mk atom least most, next => do
    let piece : Piece := .mk atom least most
    if piece.isSingleton then compileAtom config atom next
    else if most = some 0 then return next
    else
      checkBounds config piece
      if piece.isOptional then
        let entry ← compileAtom config atom next
        return some (← splice [entry, next])
      else if piece.isStar then loop next (compileAtom config atom)
      else if piece.isPlus then loopAtLeastOnce next (compileAtom config atom)
      else
        let template ← template (compileAtom config atom)
        let rest ← match most with
          | some most => graftOptional template next (most - least) next
          | none => loop next (graft template)
        graftTimes template least rest

def compileBranch (config : Config) : Branch → Target → Compile Target
  | [], next => return next
  | piece :: rest, next => do compilePiece config piece (← compileBranch config rest next)

def joinBranches (config : Config) (next : Target) : Root → Target → Compile Target
  | [], joined => return joined
  | branch :: rest, joined => do
    let entry ← compileBranch config branch next
    joinBranches config next rest (← onArenaChecked fun arena => arena.union joined entry)

def compileRoot (config : Config) : Root → Target → Compile Target
  | [], next => return next
  | branch :: rest, next => do
    joinBranches config next rest (← compileBranch config branch next)

end

/-- Adds a fragment for the values that a regexp describes. Inside a field the value stands between
quotes. -/
def compile (config : Config) (root : Root) (quoted : Bool) (next : Target) : Compile Target := do
  let copies := rootExpansion root
  if config.maxExpansion < copies then
    throw (.expansionTooLarge copies config.maxExpansion)
  let terminator ← onArena fun arena => arena.pushTable (.single valueTerminator next)
  if quoted then
    let closing ← onArena fun arena => arena.pushTable (.single 0x22 (some terminator))
    let body ← compileRoot config root (some closing)
    return some (← onArena fun arena => arena.pushTable (.single 0x22 body))
  else
    compileRoot config root (some terminator)

end ByteAutomata.Regexp
