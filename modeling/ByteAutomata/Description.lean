import ByteAutomata.Arena

/-!
Short texts for states and arenas, for logs.

A state is named by its number after `S`, and nowhere is `S-`. An arena is described by its size
alone.
-/

namespace ByteAutomata

def describeTarget : Target → String
  | none => "S-"
  | some id => "S" ++ toString id

def describeList {α : Type} (describe : α → String) (entries : List α) : String :=
  "[" ++ ", ".intercalate (entries.map describe) ++ "]"

def describeRecord (name : String) (fields : List (String × String)) : String :=
  name ++ " \x7b " ++ ", ".intercalate (fields.map fun (field, text) => field ++ ": " ++ text)
    ++ " \x7d"

def Table.describe (table : Table) : String :=
  describeRecord "SmallTable"
    [("ceilings", describeList (fun ceiling => toString ceiling.toNat) table.ceilings),
      ("steps", describeList describeTarget table.steps),
      ("epsilons", describeList describeTarget table.epsilons),
      ("spinout", describeTarget table.spinout)]

def State.describe (state : State) : String :=
  describeRecord "FaState"
    [("table", state.table.describe),
      ("field_transitions_count", toString state.continuations.length)]

def Arena.describeState (arena : Arena) (id : Target) : String :=
  match id.bind arena.get? with
  | some state => "Some(" ++ state.describe ++ ")"
  | none => "None"

def Arena.describe (arena : Arena) : String :=
  describeRecord "StateArena" [("states_count", toString arena.size)]

end ByteAutomata
