import ByteAutomata.Config
import ByteAutomata.Fragment.AnyRune
import ByteAutomata.Fragment.RuneTrie
import ByteAutomata.PatternError
import ByteAutomata.Template

/-!
Compiling into an arena with templates at hand.

A compilation adds states to an arena and can leave templates in a cache. Where it refuses a pattern,
the states and templates that it has made so far stay; a fault stops everything. Large rune sets are
built once as a template, under their canonical text or a given name, and copied from then on.
-/

namespace ByteAutomata

structure Workshop where
  arena : Arena := {}
  cache : TemplateCache := {}

abbrev Compile := ExceptT PatternError (StateT Workshop Checked)

namespace Compile

def onArena {α : Type} (change : Arena → Arena × α) : Compile α :=
  modifyGet fun { arena, cache } =>
    let (arena, result) := change arena
    (result, { arena, cache })

def onArenaChecked {α : Type} (change : Arena → Checked (Arena × α)) : Compile α :=
  ExceptT.lift fun { arena, cache } => do
    let (arena, result) ← change arena
    return (result, { arena, cache })

/-- Compiles into an arena of its own; only the cache is shared. -/
def inScratch {α : Type} (compile : Compile α) : Compile α :=
  ExceptT.mk fun workshop => do
    let (result, scratch) ← compile.run.run { cache := workshop.cache }
    return (result, { workshop with cache := scratch.cache })

/-- Captures as a template what is compiled to lead to an exit that is open as yet. -/
def template (compile : Target → Compile Target) : Compile Template :=
  inScratch do
    let exit ← onArena Arena.pushPlaceholder
    let entry ← compile (some exit)
    Template.capture (← get).arena entry (some exit)

def graft (template : Template) (next : Target) : Compile Target :=
  onArenaChecked fun arena => template.graft arena next

/-- The template of this name, which is made and kept if there is none. A failure keeps nothing. -/
def cached (key : String) (make : Compile Template) : Compile Template := do
  match (← get).cache.find? key with
  | some template => return template
  | none =>
    let template ← make
    modify fun workshop => { workshop with cache := workshop.cache.insert key template }
    return template

/-- Adds a fragment for one rune of the set. A set of at least `shellCacheMinRunes` runes is copied
from a template; its name is the given one or else its canonical text. -/
def runes (config : Config) (name : Option String) (set : RuneSet) (next : Target) :
    Compile Target := do
  if let some interval := set.firstSwapped? then throw (.invalidRuneRange interval)
  let set := set.simplify
  if set.count < config.shellCacheMinRunes then
    return some (← onArena fun arena => arena.pushRuneTrie set next)
  let template ← cached (name.getD set.canonicalName) <| template fun exit =>
    return some (← onArena fun arena => arena.pushRuneTrie set exit)
  graft template next

end Compile

end ByteAutomata
