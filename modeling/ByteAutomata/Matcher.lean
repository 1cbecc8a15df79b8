import ByteAutomata.Pattern
import ByteAutomata.Run
import ByteAutomata.SubsetConstruction
import ByteAutomata.Unicode.Standard

/-!
Matching values against a growing list of patterns.

A matcher keeps the union of all patterns added so far and publishes an automaton for it: a
deterministic one where that is wanted and fits its budget, and otherwise the union itself. A pattern
that is refused changes neither. Templates outlive a refusal and can serve several matchers. Where no
other character database is chosen, patterns are read with that of Unicode 16.0.
-/

namespace ByteAutomata

structure Automaton where
  arena : Arena := {}
  start : Target := none
  /-- One active state is enough. -/
  deterministic : Bool := true
  closures : ClosureCache := {}

namespace Automaton

def ofDeterministic (arena : Arena) (start : Target) : Automaton where
  arena := arena
  start := start

def ofUnion (arena : Arena) (start : Target) : Automaton where
  arena := arena
  start := start
  deterministic := false
  closures := .ofSize arena.size

/-- Appends to `found` what the value matches; frontiers come back for the next value. -/
def matchInto (automaton : Automaton) (value : List UInt8) (frontiers : Frontiers)
    (found : List Continuation) : Checked (List Continuation × Frontiers) := do
  if automaton.deterministic then
    return (← automaton.arena.walk automaton.start value found, frontiers)
  else
    let (found, frontiers, _) ←
      automaton.arena.sweep automaton.closures automaton.start value frontiers found
    return (found, frontiers)

def matched (automaton : Automaton) (value : List UInt8) : Checked (List Continuation) := do
  return (← automaton.matchInto value {} []).1

end Automaton

structure Matcher where
  config : Config := {}
  /-- The union of all patterns added. -/
  arena : Arena := {}
  start : Target := none
  /-- How many patterns were added. -/
  patterns : Nat := 0
  published : Automaton := {}

namespace Matcher

def publishable (config : Config) (arena : Arena) (start : Target) : Checked Automaton := do
  if config.determinize then
    match ← arena.determinize start (some config.maxDfaStates) with
    | some (arena, start) => return .ofDeterministic arena start
    | none => return .ofUnion arena start
  else return .ofUnion arena start

/-- Adds a pattern whose matches report `continuation`, or refuses it and tells why. What a refused
pattern has put into the arena by then lies behind the matcher's own states and is cut off again; the
templates that it has put into the cache stay. -/
def add [Unicode.Database] (matcher : Matcher) (cache : TemplateCache) (pattern : Pattern)
    (continuation : Continuation) : Checked (Except PatternError Unit × Matcher × TemplateCache) := do
  let (arena, next) := matcher.arena.pushMatch continuation
  let (entry, { arena, cache }) ←
    (pattern.compile matcher.config (some next)).run.run { arena, cache }
  match entry with
  | .error error =>
    return (.error error, { matcher with arena := arena.truncate matcher.arena.size }, cache)
  | .ok entry =>
    let (arena, start) ← arena.union matcher.start entry
    let (arena, start) ← arena.extract start
    let published ← publishable matcher.config arena start
    return (.ok (), { matcher with arena, start, patterns := matcher.patterns + 1, published }, cache)

def matched (matcher : Matcher) (value : List UInt8) : Checked (List Continuation) :=
  matcher.published.matched value

end Matcher

end ByteAutomata
