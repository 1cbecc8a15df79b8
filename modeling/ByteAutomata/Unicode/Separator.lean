/-!
The separators of Unicode 16.0: for each general category the first and the last code point of each
of its ranges, in ascending order.
-/

namespace ByteAutomata.Unicode

def spaceSeparator : List (Nat × Nat) := [
  (0x20, 0x20), (0xA0, 0xA0), (0x1680, 0x1680), (0x2000, 0x200A), (0x202F, 0x202F),
  (0x205F, 0x205F), (0x3000, 0x3000)]

def lineSeparator : List (Nat × Nat) := [
  (0x2028, 0x2028)]

def paragraphSeparator : List (Nat × Nat) := [
  (0x2029, 0x2029)]

end ByteAutomata.Unicode
