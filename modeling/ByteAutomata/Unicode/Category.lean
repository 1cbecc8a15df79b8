import ByteAutomata.Unicode.Letter
import ByteAutomata.Unicode.Mark
import ByteAutomata.Unicode.Number
import ByteAutomata.Unicode.Punctuation
import ByteAutomata.Unicode.Separator
import ByteAutomata.Unicode.Symbol
import ByteAutomata.Unicode.Other
import ByteAutomata.RuneSet

/-!
General categories of Unicode 16.0 (`L`, `Lu`, `Nd`, …).

A one-letter category is the union of its two-letter ones. The ranges of a category ascend, and two
of them adjoin nowhere: here U+E000 follows U+D7FF, for no rune lies between them.
-/

namespace ByteAutomata.Unicode

def nextScalar (codePoint : Nat) : Nat :=
  if codePoint + 1 = firstSurrogate then lastSurrogate + 1 else codePoint + 1

/-- Joins ascending ranges that overlap or follow one another. -/
def joinRanges : List (Nat × Nat) → List (Nat × Nat)
  | a :: b :: rest =>
    if b.1 ≤ nextScalar a.2 then joinRanges ((a.1, max a.2 b.2) :: rest)
    else a :: joinRanges (b :: rest)
  | rest => rest
  termination_by ranges => ranges.length

def unionRanges (lists : List (List (Nat × Nat))) : List (Nat × Nat) :=
  joinRanges (lists.flatten.mergeSort fun a b => a.1 ≤ b.1)

def letters : List (List (Nat × Nat)) :=
  [uppercaseLetter, lowercaseLetter, titlecaseLetter, modifierLetter, otherLetter]

def marks : List (List (Nat × Nat)) :=
  [nonspacingMark, spacingMark, enclosingMark]

def numbers : List (List (Nat × Nat)) :=
  [decimalNumber, letterNumber, otherNumber]

def punctuation : List (List (Nat × Nat)) :=
  [connectorPunctuation, dashPunctuation, openPunctuation, closePunctuation, initialPunctuation,
    finalPunctuation, otherPunctuation]

def separators : List (List (Nat × Nat)) :=
  [spaceSeparator, lineSeparator, paragraphSeparator]

def symbols : List (List (Nat × Nat)) :=
  [mathSymbol, currencySymbol, modifierSymbol, otherSymbol]

def controls : List (List (Nat × Nat)) :=
  [control, format, privateUse]

/-- The code points from `point` up that ascending ranges leave out. -/
def rangesBetween (point : Nat) : List (Nat × Nat) → List (Nat × Nat)
  | [] => if point ≤ lastCodePoint then splitSurrogates point lastCodePoint else []
  | range :: rest =>
    (if point < range.1 then splitSurrogates point (range.1 - 1) else [])
      ++ rangesBetween (range.2 + 1) rest

/-- General category Cn: the code points that are in no other category. -/
def unassigned : List (Nat × Nat) :=
  rangesBetween 0 (unionRanges
    (letters ++ marks ++ numbers ++ punctuation ++ separators ++ symbols ++ controls))

def categoryParts? : String → Option (List (List (Nat × Nat)))
  | "L" => some letters
  | "Lu" => some [uppercaseLetter]
  | "Ll" => some [lowercaseLetter]
  | "Lt" => some [titlecaseLetter]
  | "Lm" => some [modifierLetter]
  | "Lo" => some [otherLetter]
  | "M" => some marks
  | "Mn" => some [nonspacingMark]
  | "Mc" => some [spacingMark]
  | "Me" => some [enclosingMark]
  | "N" => some numbers
  | "Nd" => some [decimalNumber]
  | "Nl" => some [letterNumber]
  | "No" => some [otherNumber]
  | "P" => some punctuation
  | "Pc" => some [connectorPunctuation]
  | "Pd" => some [dashPunctuation]
  | "Ps" => some [openPunctuation]
  | "Pe" => some [closePunctuation]
  | "Pi" => some [initialPunctuation]
  | "Pf" => some [finalPunctuation]
  | "Po" => some [otherPunctuation]
  | "Z" => some separators
  | "Zs" => some [spaceSeparator]
  | "Zl" => some [lineSeparator]
  | "Zp" => some [paragraphSeparator]
  | "S" => some symbols
  | "Sm" => some [mathSymbol]
  | "Sc" => some [currencySymbol]
  | "Sk" => some [modifierSymbol]
  | "So" => some [otherSymbol]
  | "C" => some (unassigned :: controls)
  | "Cc" => some [control]
  | "Cf" => some [format]
  | "Co" => some [privateUse]
  | "Cn" => some [unassigned]
  | _ => none

def categoryRunes? (name : String) : Option RuneSet :=
  (categoryParts? name).map fun parts => RuneSet.ofCodePoints (unionRanges parts)

end ByteAutomata.Unicode
