/-!
The bytes an automaton tells apart and the names of its states.

A value is read byte by byte and closed by one terminator. UTF-8 text holds no byte from `0xF5` up,
so the terminator takes `0xF5` and no larger byte has a place in a transition table.
-/

namespace ByteAutomata

/-- Closes every value, so that a whole value and a leading part of it lead to different states. -/
def valueTerminator : UInt8 := 0xF5

/-- One more than the largest byte that a transition table tells apart. -/
def byteCeiling : UInt8 := 0xF6

def tableWidth : Nat := byteCeiling.toNat

/-- A state is named by its position in the arena that holds it. -/
abbrev StateId := Nat

/-- State names lie below this bound: they are 32-bit words, and the greatest such word stands for
nowhere. -/
def stateIdBound : Nat := 4294967295

abbrev Target := Option StateId

/-- Names what a match reports; the automaton only collects these. -/
abbrev Continuation := Nat

end ByteAutomata
