import ByteAutomata.Fault
import ByteAutomata.Word

/-!
Sets of runes as lists of intervals.

A rune is a Unicode scalar value: a code point that is no surrogate. Intervals may come in any order
and overlap, and one whose low end lies above its high end holds nothing. `simplify` sorts and joins
them and `invert` gives the complement; neither ever yields a surrogate.

Beside each function that computes with code points stands the form of it that takes sums and
differences in 32-bit words and fails where one leaves the word.
-/

namespace ByteAutomata

def scalar? (codePoint : Nat) : Option Char :=
  if codePoint.isValidChar then some (Char.ofNat codePoint) else none

/-- The runes from `lo` to `hi`, both included. -/
structure RuneInterval where
  lo : Char
  hi : Char
  deriving DecidableEq, Repr

def RuneInterval.single (rune : Char) : RuneInterval := ⟨rune, rune⟩

def RuneInterval.Contains (interval : RuneInterval) (rune : Char) : Prop :=
  interval.lo ≤ rune ∧ rune ≤ interval.hi

instance (interval : RuneInterval) (rune : Char) : Decidable (interval.Contains rune) :=
  inferInstanceAs (Decidable (_ ∧ _))

def RuneInterval.runes (interval : RuneInterval) : List Char :=
  (List.range' interval.lo.toNat (interval.hi.toNat + 1 - interval.lo.toNat)).filterMap scalar?

abbrev RuneSet := List RuneInterval

def firstSurrogate : Nat := 0xD800
def lastSurrogate : Nat := 0xDFFF
def lastCodePoint : Nat := 0x10FFFF

/-- The parts of a range of code points below and above the surrogates. -/
def splitSurrogates (lo hi : Nat) : List (Nat × Nat) :=
  let below := if lo < firstSurrogate then [(lo, min hi (firstSurrogate - 1))] else []
  let above := if lastSurrogate < hi then [(max lo (lastSurrogate + 1), hi)] else []
  (below ++ above).filter fun part => part.1 ≤ part.2

namespace RuneSet

def Contains (set : RuneSet) (rune : Char) : Prop :=
  ∃ interval ∈ set, interval.Contains rune

def ofRange (lo hi : Nat) : RuneSet :=
  (splitSurrogates lo hi).filterMap fun part =>
    match scalar? part.1, scalar? part.2 with
    | some lo, some hi => some ⟨lo, hi⟩
    | _, _ => none

/-- Ranges of code points whose ends are runes; a range may span the surrogates. -/
def ofCodePoints (ranges : List (Nat × Nat)) : RuneSet :=
  ranges.filterMap fun range =>
    match scalar? range.1, scalar? range.2 with
    | some lo, some hi => if lo ≤ hi then some ⟨lo, hi⟩ else none
    | _, _ => none

/-- The first interval that holds nothing because its ends are swapped. -/
def firstSwapped? (set : RuneSet) : Option RuneInterval :=
  set.find? fun interval => interval.hi < interval.lo

/-- Joins intervals in ascending order of their low ends with the interval `last` below them. -/
def joinFrom (last : RuneInterval) : RuneSet → RuneSet
  | [] => [last]
  | interval :: rest =>
    if interval.lo.toNat ≤ last.hi.toNat + 1 then
      joinFrom (if last.hi < interval.hi then { last with hi := interval.hi } else last) rest
    else last :: joinFrom interval rest

def joinInWords? (last : RuneInterval) : RuneSet → Option RuneSet
  | [] => some [last]
  | interval :: rest => do
    let behind ← addWords? last.hi.toNat 1
    if interval.lo.toNat ≤ behind then
      joinInWords? (if last.hi < interval.hi then { last with hi := interval.hi } else last) rest
    else
      let joined ← joinInWords? interval rest
      return last :: joined

/-- Sorts the intervals and joins those that overlap or adjoin as code points. -/
def simplify (set : RuneSet) : RuneSet :=
  match set.mergeSort (fun a b => a.lo ≤ b.lo) with
  | [] => []
  | interval :: rest => joinFrom interval rest

def simplifyInWords? (set : RuneSet) : Option RuneSet :=
  match set.mergeSort (fun a b => a.lo ≤ b.lo) with
  | [] => some []
  | interval :: rest => joinInWords? interval rest

/-- The runes from code point `point` up that ascending intervals leave out. -/
def gapsFrom (point : Nat) : RuneSet → RuneSet
  | [] => if point ≤ lastCodePoint then ofRange point lastCodePoint else []
  | interval :: rest =>
    (if point < interval.lo.toNat then ofRange point (interval.lo.toNat - 1) else [])
      ++ gapsFrom (interval.hi.toNat + 1) rest

def gapsInWords? (point : Nat) : RuneSet → Option RuneSet
  | [] => some (if point ≤ lastCodePoint then ofRange point lastCodePoint else [])
  | interval :: rest => do
    let gap ← if point < interval.lo.toNat then (subWords? interval.lo.toNat 1).map (ofRange point)
      else some []
    let behind ← addWords? interval.hi.toNat 1
    let gaps ← gapsInWords? behind rest
    return gap ++ gaps

def invert (set : RuneSet) : RuneSet :=
  gapsFrom 0 set.simplify

def invertInWords? (set : RuneSet) : Option RuneSet := do
  gapsInWords? 0 (← set.simplifyInWords?)

/-- The code points of the intervals, one after the other, without surrogates. -/
def scalarRanges (set : RuneSet) : List (Nat × Nat) :=
  set.flatMap fun interval => splitSurrogates interval.lo.toNat interval.hi.toNat

/-- How many runes the intervals hold; a rune that several of them hold counts for each. -/
def count (set : RuneSet) : Nat :=
  set.scalarRanges.foldl (fun total part => total + (part.2 - part.1 + 1)) 0

def addSizeInWords? (total : Nat) (part : Nat × Nat) : Option Nat := do
  addWords? total (← addWords? (← subWords? part.2 part.1) 1)

def countWord (set : RuneSet) : Checked Nat :=
  match set.scalarRanges.foldlM addSizeInWords? 0 with
  | some total => .ok total
  | none => .error .countOverflow

/-- A code point in at least four uppercase hexadecimal digits. -/
def hexCodePoint (rune : Char) : String :=
  let digits := (Nat.toDigits 16 rune.toNat).map Char.toUpper
  String.ofList (List.replicate (4 - digits.length) '0' ++ digits)

/-- The intervals as text, such as `0000-0060,0062-10FFFF`. -/
def canonicalName (set : RuneSet) : String :=
  ",".intercalate (set.map fun interval =>
    hexCodePoint interval.lo ++ "-" ++ hexCodePoint interval.hi)

end RuneSet

end ByteAutomata
