import ByteAutomata.Alphabet

/-!
What stops a computation on an inconsistent automaton.

A fault is not a refusal of a pattern: it says that a caller named a state that does not exist, or
handed over a table that breaks its own rules. Well-formed automata never raise one.
-/

namespace ByteAutomata

inductive Fault where
  /-- A state is asked for and none is named. -/
  | nowhere
  /-- The number is too large to name a state in any arena. -/
  | notAName (number : Nat)
  /-- The arena has no state of this name. -/
  | noSuchState (id : StateId)
  /-- A range of bytes has a ceiling and no step. -/
  | missingStep
  /-- The last ceiling of a table lies below the byte looked up. -/
  | lostFinalCeiling (ceilings : List UInt8)
  /-- A mapping names a byte that tables do not tell apart. -/
  | byteOutsideTable (byte : UInt8)
  /-- A step was set for a byte that tables do not tell apart. -/
  | byteAtCeiling (byte : UInt8)
  /-- A range of bytes to fill is not a range of the table. -/
  | rangeOutsideTable (lo hi : Nat)
  /-- A mapping has not as many targets as bytes. -/
  | unevenMapping (bytes targets : Nat)
  /-- The bytes of a mapping do not ascend. -/
  | unorderedMapping
  /-- A sparse set has no room for this state. -/
  | outsideCapacity (id : StateId)
  /-- A count of runes does not fit its 32-bit word. -/
  | countOverflow
  deriving DecidableEq, Repr

abbrev Checked := Except Fault

namespace Fault

/-- A byte in lowercase hexadecimal, after `0x` and without leading zeros. -/
def hexByte (byte : UInt8) : String :=
  "0x" ++ String.ofList (Nat.toDigits 16 byte.toNat)

def message : Fault → String
  | nowhere => "no state is named"
  | notAName number => s!"{number} is too large to name a state"
  | noSuchState id => s!"there is no state {id}"
  | missingStep => "a range of bytes has no step"
  | lostFinalCeiling ceilings =>
    "small table lost its final ceiling: [" ++ ", ".intercalate (ceilings.map toString) ++ "]"
  | byteOutsideTable byte => s!"byte {hexByte byte} is outside the table"
  | byteAtCeiling byte => s!"byte {hexByte byte} is at or above the byte ceiling"
  | rangeOutsideTable lo hi => s!"bytes {lo} to {hi} are no range of the table"
  | unevenMapping bytes targets => s!"{bytes} bytes are mapped to {targets} targets"
  | unorderedMapping => "the bytes of a mapping must ascend"
  | outsideCapacity id => s!"the set has no room for state {id}"
  | countOverflow => "too many runes to count"

end Fault

def StateId.ofNumber (number : Nat) : Checked StateId :=
  if number < stateIdBound then .ok number else .error (.notAName number)

def requireState : Target → Checked StateId
  | none => .error .nowhere
  | some id => .ok id

end ByteAutomata
