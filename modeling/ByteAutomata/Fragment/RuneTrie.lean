import ByteAutomata.Arena
import ByteAutomata.RuneSet

/-!
Fragments for one rune of a set.

The UTF-8 bytes of the runes form a trie. Each interval is cut where the number of bytes changes and
around the surrogates, so that both ends of a part have equally many bytes, and goes into the trie
from its first byte on. Where every continuation byte will do, parts share a chain of tails.
-/

namespace ByteAutomata

def leastContinuation : UInt8 := 0x80
def greatestContinuation : UInt8 := 0xBF

/-- A trie under construction. `tails` lists, for one continuation byte, for two and for three, the
state that reads so many of them and leads to `goal`, as far as such states were needed. -/
structure RuneTrie where
  arena : Arena
  goal : Target
  tails : List StateId := []

namespace RuneTrie

def setRange (trie : RuneTrie) (node : StateId) (lo hi : UInt8) (target : Target) : RuneTrie :=
  { trie with arena := trie.arena.modifyTable node (·.overrideRange lo hi target) }

def tail (trie : RuneTrie) : (length : Nat) → RuneTrie × Target
  | 0 => (trie, trie.goal)
  | length + 1 =>
    match trie.tails[length]? with
    | some id => (trie, some id)
    | none =>
      let (trie, below) := trie.tail length
      let (arena, id) := trie.arena.pushEmpty
      let trie := { trie with arena }.setRange id leastContinuation greatestContinuation below
      ({ trie with tails := trie.tails ++ [id] }, some id)

/-- True if the trie may not change the state that `target` names. -/
def isShared (trie : RuneTrie) (target : Target) : Bool :=
  target == trie.goal || trie.tails.any (some · == target)

/-- The node that `byte` leads to from `node`. A new one is made if there is none, or if the one there
is shared, which is then copied. -/
def child (trie : RuneTrie) (node : StateId) (byte : UInt8) : RuneTrie × StateId :=
  let lead (table : Table) : RuneTrie × StateId :=
    let (arena, fresh) := trie.arena.pushTable table
    ({ trie with arena := arena.modifyTable node (·.override byte (some fresh)) }, fresh)
  match (trie.arena.get? node).bind (·.table.lookup byte) with
  | none => lead Table.empty
  | some existing =>
    if trie.isShared (some existing) then
      lead (((trie.arena.get? existing).getD {}).table)
    else (trie, existing)

/-- Adds the bytes `lo` and all greater ones that begin with the same byte. -/
def addFrom (trie : RuneTrie) (node : StateId) : List UInt8 → RuneTrie
  | [] => trie
  | [byte] => trie.setRange node byte byte trie.goal
  | byte :: second :: rest =>
    let (trie, child) := trie.child node byte
    let trie := trie.addFrom child (second :: rest)
    if second < greatestContinuation then
      let (trie, tail) := trie.tail rest.length
      trie.setRange child (second + 1) greatestContinuation tail
    else trie

/-- Adds the bytes `hi` and all smaller ones that begin with the same byte. -/
def addUpTo (trie : RuneTrie) (node : StateId) : List UInt8 → RuneTrie
  | [] => trie
  | [byte] => trie.setRange node byte byte trie.goal
  | byte :: second :: rest =>
    let (trie, child) := trie.child node byte
    let trie :=
      if leastContinuation < second then
        let (trie, tail) := trie.tail rest.length
        trie.setRange child leastContinuation (second - 1) tail
      else trie
    trie.addUpTo child (second :: rest)

/-- Adds everything from `lo` to `hi`, the bytes of two runes of equal length. -/
def addBetween (trie : RuneTrie) (node : StateId) : (lo hi : List UInt8) → RuneTrie
  | low :: lows, high :: highs =>
    if low = high then
      if lows.isEmpty then trie.setRange node low low trie.goal
      else
        let (trie, child) := trie.child node low
        trie.addBetween child lows highs
    else
      let trie := trie.addFrom node (low :: lows)
      let trie :=
        if low + 1 < high then
          let (trie, tail) := trie.tail lows.length
          trie.setRange node (low + 1) (high - 1) tail
        else trie
      trie.addUpTo node (high :: highs)
  | _, _ => trie

/-- The code points that UTF-8 gives one, two, three and four bytes. -/
def lengthClasses : List (Nat × Nat) :=
  [(0, 0x7F), (0x80, 0x7FF), (0x800, 0xFFFF), (0x10000, lastCodePoint)]

/-- The parts of an interval without surrogates whose ends have equally many bytes. -/
def parts (interval : RuneInterval) : List (Char × Char) :=
  (splitSurrogates interval.lo.toNat interval.hi.toNat).flatMap fun (lo, hi) =>
    lengthClasses.filterMap fun (least, greatest) =>
      if max lo least ≤ min hi greatest then
        match scalar? (max lo least), scalar? (min hi greatest) with
        | some lo, some hi => some (lo, hi)
        | _, _ => none
      else none

def addInterval (root : StateId) (trie : RuneTrie) (interval : RuneInterval) : RuneTrie :=
  (parts interval).foldl (fun trie (lo, hi) =>
    trie.addBetween root (String.utf8EncodeChar lo) (String.utf8EncodeChar hi)) trie

end RuneTrie

def Arena.pushRuneTrie (arena : Arena) (set : RuneSet) (next : Target) : Arena × StateId :=
  let (arena, root) := arena.pushEmpty
  let trie := set.simplify.foldl (RuneTrie.addInterval root) { arena, goal := next }
  (trie.arena, root)

end ByteAutomata
