import ByteAutomata.Arena

/-!
The fragment for one rune, whichever it is.

The bytes of a rune are those of Unicode's table of well-formed byte sequences: overlong forms,
surrogates and code points past U+10FFFF are refused at the first byte that betrays them.
-/

namespace ByteAutomata.Arena

def pushRange (arena : Arena) (lo hi : UInt8) (target : Target) : Arena × StateId :=
  arena.pushTable (Table.empty.overrideRange lo hi target)

def pushAnyRune (arena : Arena) (next : Target) : Arena × StateId :=
  -- one, two and three continuation bytes
  let (arena, one) := arena.pushRange 0x80 0xBF next
  let (arena, two) := arena.pushRange 0x80 0xBF (some one)
  let (arena, three) := arena.pushRange 0x80 0xBF (some two)
  -- lead bytes that leave fewer second bytes
  let (arena, afterE0) := arena.pushRange 0xA0 0xBF (some one)
  let (arena, afterED) := arena.pushRange 0x80 0x9F (some one)
  let (arena, afterF0) := arena.pushRange 0x90 0xBF (some two)
  let (arena, afterF4) := arena.pushRange 0x80 0x8F (some two)
  let leads : List (UInt8 × UInt8 × Target) :=
    [(0x00, 0x7F, next), (0xC2, 0xDF, some one), (0xE0, 0xE0, some afterE0),
      (0xE1, 0xEC, some two), (0xED, 0xED, some afterED), (0xEE, 0xEF, some two),
      (0xF0, 0xF0, some afterF0), (0xF1, 0xF3, some three), (0xF4, 0xF4, some afterF4)]
  arena.pushTable
    (leads.foldl (fun table (lo, hi, target) => table.overrideRange lo hi target) Table.empty)

end ByteAutomata.Arena
