/-!
Bounds of machine words.
-/

namespace ByteAutomata

/-- One more than the largest 32-bit word. -/
def word32Bound : Nat := 4294967296

def signedWord64Bound : Nat := 9223372036854775808

def maxWord64 : Nat := 18446744073709551615

/-- The sum of two 32-bit words, if it is one. -/
def addWords? (a b : Nat) : Option Nat := if a + b < word32Bound then some (a + b) else none

def subWords? (a b : Nat) : Option Nat := if b ≤ a then some (a - b) else none

end ByteAutomata
