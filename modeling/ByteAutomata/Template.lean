import ByteAutomata.Exploration

/-!
Fragments that are built once and copied many times.

A template is the part of an arena that is reachable from an entry without passing through an exit.
Its states are numbered from zero, and the number after the last one stands for the exit. Grafting
copies the states to the end of an arena and binds the exit to a state of that arena.
-/

namespace ByteAutomata

structure Template where
  tables : List Table
  entry : Target
  deriving DecidableEq, Repr

namespace Template

def size (template : Template) : Nat := template.tables.length

def isEmpty (template : Template) : Bool := template.tables.isEmpty

/-- The number a target of the captured part gets. -/
def localName (found : Discovery) (exit : Target) : Target → Target
  | none => none
  | some id => if some id = exit then some found.order.size else found.position[id]?

/-- Captures the part of an arena from `entry` up to `exit`. -/
def capture (arena : Arena) (entry exit : Target) : Checked Template := do
  let found ←
    if entry = exit then pure {}
    else do arena.explore (← requireState entry) exit
  let tables ← found.order.toList.mapM fun id => do
    (← arena.get id).table.rename (localName found exit)
  return { tables, entry := localName found exit entry }

/-- The name of a template's target in an arena where its states start at `base`. -/
def graftedName (template : Template) (base : Nat) (next : Target) : Target → Target
  | none => none
  | some index => if index = template.size then next else some (base + index)

/-- Adds a copy of the template to an arena, with its exit bound to `next`. -/
def graft (template : Template) (arena : Arena) (next : Target) : Checked (Arena × Target) := do
  let name := template.graftedName arena.size next
  let tables ← template.tables.mapM (·.rename name)
  return (tables.foldl (fun arena table => (arena.pushTable table).1) arena, name template.entry)

end Template

/-- Adds a state to stand for the exit of a fragment under construction. It lists itself among its
epsilons, so that a union that reaches it forwards to it and does not copy its moves. -/
def Arena.pushPlaceholder (arena : Arena) : Arena × StateId :=
  arena.pushSplice [some arena.size]

structure TemplateCache where
  templates : Std.HashMap String Template := ∅

namespace TemplateCache

def find? (cache : TemplateCache) (key : String) : Option Template := cache.templates[key]?

def contains (cache : TemplateCache) (key : String) : Bool := cache.templates.contains key

def insert (cache : TemplateCache) (key : String) (template : Template) : TemplateCache :=
  ⟨cache.templates.insert key template⟩

def size (cache : TemplateCache) : Nat := cache.templates.size

def isEmpty (cache : TemplateCache) : Bool := cache.templates.isEmpty

end TemplateCache

end ByteAutomata
