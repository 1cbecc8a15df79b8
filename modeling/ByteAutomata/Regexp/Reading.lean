import ByteAutomata.PatternError
import ByteAutomata.Regexp.Tree
import ByteAutomata.Unicode.Property

/-!
Reading the text of a regexp.

`.` stands for any rune, `[…]` and `[^…]` for classes, `(…)` and `(?:…)` for groups, `|` for a choice,
and `?`, `*`, `+`, `{m}`, `{m,}`, `{m,n}` for repetition, each of which may be followed by a `?` that
changes nothing. `~` introduces escapes, among them `~p{…}` and `~P{…}` for Unicode properties.
Lookarounds are read, so that they can be named, and then refused.

Text is read from left to right with a stack of the groups that are open. Offsets count bytes.
-/

namespace ByteAutomata.Regexp

/-- The text still to be read and the offset of its first byte. -/
structure Cursor where
  rest : List Char
  offset : Nat := 0

abbrev Reads := Except SyntaxError

namespace Cursor

def behind (cursor : Cursor) (rune : Char) (rest : List Char) : Cursor :=
  ⟨rest, cursor.offset + rune.utf8Size⟩

def next (cursor : Cursor) (fault : SyntaxFault) : Reads (Char × Cursor) :=
  match cursor.rest with
  | [] => .error ⟨fault, cursor.offset⟩
  | rune :: rest => .ok (rune, cursor.behind rune rest)

def require (cursor : Cursor) (wanted : Char) : Reads Cursor :=
  match cursor.rest with
  | [] => .error ⟨.expected wanted none, cursor.offset⟩
  | rune :: rest =>
    if rune = wanted then .ok (cursor.behind rune rest)
    else .error ⟨.expected wanted (some rune), cursor.offset⟩

def skip (cursor : Cursor) (rune : Char) : Cursor :=
  match cursor.rest with
  | [] => cursor
  | first :: rest => if first = rune then cursor.behind first rest else cursor

def after? (cursor : Cursor) : List Char → Option Cursor
  | [] => some cursor
  | wanted :: more =>
    match cursor.rest with
    | [] => none
    | rune :: rest => if rune = wanted then (cursor.behind rune rest).after? more else none

end Cursor

/-! ## Characters and escapes -/

def inRanges (rune : Char) (ranges : List (Nat × Nat)) : Bool :=
  ranges.any fun (lo, hi) => lo ≤ rune.toNat && rune.toNat ≤ hi

/-- Runes that stand for themselves outside a class. -/
def isNormalRune (rune : Char) : Bool :=
  inRanges rune [(0x00, 0x27), (0x2C, 0x2D), (0x2F, 0x3E), (0x40, 0x5A), (0x5C, 0x5C),
    (0x5E, 0x7A), (0x7F, 0xD7FF), (0xE000, 0x10FFFF)]

/-- Runes that may stand for themselves in a class. -/
def isClassRune (rune : Char) : Bool :=
  inRanges rune [(0x00, 0x2C), (0x2E, 0x5A), (0x5C, 0x5C), (0x5E, 0xD7FF), (0xE000, 0x10FFFF)]

/-- Runes that stand for themselves after `~`. -/
def escapable : List Char :=
  ['(', ')', '*', '+', '-', '.', '?', '[', '\\', ']', '^', '\x7b', '|', '\x7d', escape]

def singleEscape? (rune : Char) : Option Char :=
  if rune = 'n' then some '\n'
  else if rune = 'r' then some '\r'
  else if rune = 't' then some '\t'
  else if escapable.contains rune then some rune
  else none

def digits : RuneSet := [⟨'0', '9'⟩]

def wordRunes : RuneSet := [⟨'0', '9'⟩, ⟨'A', 'Z'⟩, ⟨'_', '_'⟩, ⟨'a', 'z'⟩]

def spaces : RuneSet := [⟨'\t', '\n'⟩, ⟨'\r', '\r'⟩, ⟨' ', ' '⟩]

def classEscape? (rune : Char) : Option RuneSet :=
  match rune with
  | 'd' => some digits
  | 'D' => some digits.invert
  | 'w' => some wordRunes
  | 'W' => some wordRunes.invert
  | 's' => some spaces
  | 'S' => some spaces.invert
  | _ => none

/-! ## Property escapes -/

def readPropertyName : List Char → Cursor → Reads ((List Char) × Cursor)
  | [], cursor => .error ⟨.unclosedPropertyName, cursor.offset⟩
  | rune :: rest, cursor =>
    if rune = '\x7d' then .ok ([], cursor.behind rune rest)
    else if rune.isAlphanum || rune == '-' then do
      let (name, cursor) ← readPropertyName rest (cursor.behind rune rest)
      return (rune :: name, cursor)
    else .error ⟨.invalidInPropertyName rune, cursor.offset⟩

/-- Reads the braces and the name after `~p` or, negated, after `~P`. -/
def readProperty [Unicode.Database] (negated : Bool) (cursor : Cursor) : Reads ((String × RuneSet) × Cursor) := do
  let start ← cursor.require '\x7b'
  let (runes, cursor) ← readPropertyName start.rest start
  if runes.isEmpty then throw ⟨.emptyPropertyName, start.offset⟩
  let name := String.ofList runes
  match Unicode.property? name with
  | none => throw ⟨.unknownProperty name, start.offset⟩
  | some set =>
    let marker := if negated then 'P' else 'p'
    return ((String.ofList ([escape, marker, '\x7b'] ++ runes ++ ['\x7d']),
      if negated then set.invert else set), cursor)

/-! ## Classes -/

/-- Reads the high end of a range whose low end was at `lo`; the `-` between them is read. A `]` here
closes the class, and the `-` stands for itself. -/
def readRangeEnd (lo : Char) (start : Cursor) : Reads (RuneSet × Cursor) := do
  let (rune, cursor) ← start.next .unclosedClass
  if rune = ']' then return ([.single lo, .single '-'], start)
  let (hi, last, cursor) ←
    if rune = escape then do
      let (escaped, behind) ← cursor.next .unclosedClass
      match singleEscape? escaped with
      | some hi => pure (hi, cursor.offset, behind)
      | none => throw ⟨.unknownEscapeAfterDash escaped, cursor.offset⟩
    else if isClassRune rune then pure (rune, start.offset, cursor)
    else throw ⟨.invalidAfterDash rune, start.offset⟩
  if hi < lo then throw ⟨.swappedRange lo hi, last⟩
  return ([⟨lo, hi⟩], cursor)

def readRangeFrom (lo : Char) (cursor : Cursor) : Reads (RuneSet × Cursor) :=
  match cursor.rest with
  | '-' :: rest => readRangeEnd lo (cursor.behind '-' rest)
  | _ => .ok ([.single lo], cursor)

/-- Reads one element of a class: a rune, a range or an escape. A `-` may stand first. -/
def readElement [Unicode.Database] (first : Bool) (start : Cursor) : Reads (RuneSet × Cursor) := do
  let (rune, cursor) ← start.next .unclosedClass
  if first && rune == '-' then return ([.single '-'], cursor)
  else if rune = escape then
    let (escaped, behind) ← cursor.next .unclosedClass
    if escaped = 'p' ∨ escaped = 'P' then
      let ((_, set), cursor) ← readProperty (escaped == 'P') behind
      return (set, cursor)
    else match classEscape? escaped with
      | some set => return (set, behind)
      | none =>
        match singleEscape? escaped with
        | some lo => readRangeFrom lo behind
        | none => throw ⟨.unknownEscapeInClass escaped, cursor.offset⟩
  else if isClassRune rune then readRangeFrom rune cursor
  else throw ⟨.invalidInClass rune, start.offset⟩

/-- Reads elements up to a `-` or `]` that is none. Each round reads a rune. -/
def readElements [Unicode.Database] : (rounds : Nat) → (first : Bool) → Cursor → Reads (RuneSet × Cursor)
  | 0, _, cursor => .error ⟨.unclosedClass, cursor.offset⟩
  | rounds + 1, first, cursor => do
    let (set, cursor) ← readElement first cursor
    match cursor.rest with
    | [] => throw ⟨.unclosedClass, cursor.offset⟩
    | rune :: _ =>
      if rune = '-' ∨ rune = ']' then return (set, cursor)
      else
        let (more, cursor) ← readElements rounds false cursor
        return (set ++ more, cursor)

def readClass [Unicode.Database] (start : Cursor) : Reads (RuneSet × Cursor) := do
  let cursor := start.skip '^'
  let negated := cursor.offset ≠ start.offset
  let (set, cursor) ← readElements cursor.rest.length true cursor
  let closing := cursor.skip '-'
  let set := if closing.offset ≠ cursor.offset then set ++ [.single '-'] else set
  let cursor ← closing.require ']'
  return (if negated then set.simplify.invert else set.simplify, cursor)

/-! ## Quantifiers -/

/-- Reads digits; none at all are no number. -/
def readNumber (start : Cursor) : Reads ((Option Nat) × Cursor) :=
  let written := start.rest.takeWhile Char.isDigit
  let cursor : Cursor := ⟨start.rest.dropWhile Char.isDigit, start.offset + written.length⟩
  if written.isEmpty then .ok (none, start)
  else
    let number := written.foldl (fun number digit => number * 10 + (digit.toNat - '0'.toNat)) 0
    if number < word32Bound then .ok (some number, cursor)
    else .error ⟨.boundTooLarge, start.offset⟩

def readBounds (start : Cursor) : Reads ((Nat × Option Nat) × Cursor) := do
  let (least, cursor) ← readNumber start
  match least with
  | none => throw ⟨.digitsExpected, cursor.offset⟩
  | some least =>
    let (rune, behind) ← cursor.next .unclosedQuantifier
    if rune = '\x7d' then return ((least, some least), behind)
    if rune ≠ ',' then throw ⟨.unexpectedInQuantifier rune, cursor.offset⟩
    let (most, cursor) ← readNumber behind
    let (rune, behind) ← cursor.next .unclosedQuantifier
    if rune ≠ '\x7d' then throw ⟨.unclosedAfterBounds rune, cursor.offset⟩
    if most.any (· < least) then throw ⟨.swappedBounds, cursor.offset⟩
    return ((least, most), behind)

/-- Reads a quantifier behind an atom, if there is one, and a `?` behind it. -/
def readQuantifier (atom : Atom) (cursor : Cursor) : Reads (Piece × Cursor) := do
  match cursor.rest with
  | [] => return (.once atom, cursor)
  | rune :: rest =>
    let behind := cursor.behind rune rest
    if rune = '*' then return (.mk atom 0 none, behind.skip '?')
    else if rune = '+' then return (.mk atom 1 none, behind.skip '?')
    else if rune = '?' then return (.mk atom 0 (some 1), behind.skip '?')
    else if rune = '\x7b' then
      let ((least, most), behind) ← readBounds behind
      return (.mk atom least most, behind.skip '?')
    else return (.once atom, cursor)

/-! ## Atoms and groups -/

/-- Reads an atom other than a group, of which `rune` is the first rune. -/
def readAtom [Unicode.Database] (start : Cursor) (rune : Char) (cursor : Cursor) : Reads (Atom × Cursor) := do
  if isNormalRune rune then return (.runes [.single rune], cursor)
  else if rune = '.' then return (.dot, cursor)
  else if rune = '[' then
    let (set, cursor) ← readClass cursor
    return (.runes set, cursor)
  else if rune = ']' then throw ⟨.closingBracket, start.offset⟩
  else if rune = escape then
    let (escaped, behind) ← cursor.next .escapeAtEnd
    match singleEscape? escaped with
    | some rune => return (.runes [.single rune], behind)
    | none =>
      match classEscape? escaped with
      | some set => return (.runes set, behind)
      | none =>
        if escaped = 'p' ∨ escaped = 'P' then
          let ((name, set), cursor) ← readProperty (escaped == 'P') behind
          return (.property name set, cursor)
        else throw ⟨.unknownEscape escaped, cursor.offset⟩
  else throw ⟨.nothingToQuantify rune, start.offset⟩

/-- What may stand behind a `(`, with the lookaround that it marks. -/
def groupMarks : List (List Char × Option Lookaround) :=
  [(['?', ':'], none), (['?', '='], some .ahead), (['?', '!'], some .notAhead),
    (['?', '<', '='], some .behind), (['?', '<', '!'], some .notBehind)]

def readGroupMark (cursor : Cursor) : Option Lookaround × Cursor :=
  (groupMarks.findSome? fun (mark, lookaround) =>
    (cursor.after? mark).map fun behind => (lookaround, behind)).getD (none, cursor)

/-- What was read of a regexp: whole branches and the pieces of the last one, both with the latest
first. -/
structure Alternatives where
  branches : List Branch := []
  pieces : List Piece := []

namespace Alternatives

def addPiece (read : Alternatives) (piece : Piece) : Alternatives :=
  { read with pieces := piece :: read.pieces }

def addBranch (read : Alternatives) : Alternatives :=
  ⟨read.pieces.reverse :: read.branches, []⟩

def toRoot (read : Alternatives) : Root :=
  read.addBranch.branches.reverse

end Alternatives

/-- A group whose end was not read: the offset of its `(` and what was read before it. -/
structure OpenGroup where
  offset : Nat
  before : Alternatives

def noteLookaround (found : List Lookaround) : Option Lookaround → List Lookaround
  | none => found
  | some lookaround => if found.contains lookaround then found else found ++ [lookaround]

/-- Reads the whole text. Each round reads a rune, so there are no more rounds than runes, and one to
meet the end. The result names the lookarounds in the order of their first appearance. -/
def readAll [Unicode.Database] : (rounds : Nat) → Cursor → List OpenGroup → Alternatives → List Lookaround →
    Reads (Root × List Lookaround)
  | 0, cursor, _, _, _ => .error ⟨.unclosedGroup, cursor.offset⟩
  | rounds + 1, cursor, groups, read, found =>
    match cursor.rest with
    | [] =>
      match groups with
      | [] => .ok (read.toRoot, found)
      | group :: _ => .error ⟨.unclosedGroup, group.offset⟩
    | rune :: rest => do
      let behind := cursor.behind rune rest
      if rune = '|' then readAll rounds behind groups read.addBranch found
      else if rune = ')' then
        match groups with
        | [] => throw ⟨.unbalanced rune, cursor.offset⟩
        | group :: groups =>
          let (piece, cursor) ← readQuantifier (.group read.toRoot) behind
          readAll rounds cursor groups (group.before.addPiece piece) found
      else if rune = '(' then
        let (lookaround, behind) := readGroupMark behind
        readAll rounds behind (⟨cursor.offset, read⟩ :: groups) {} (noteLookaround found lookaround)
      else
        let (atom, behind) ← readAtom cursor rune behind
        let (piece, behind) ← readQuantifier atom behind
        readAll rounds behind groups (read.addPiece piece) found

def ofText [Unicode.Database] (text : String) : Except PatternError Root :=
  let runes := text.toList
  if runes.isEmpty then .ok []
  else match readAll (runes.length + 1) ⟨runes, 0⟩ [] {} [] with
    | .error error => .error (.regexp error)
    | .ok (root, []) => .ok root
    | .ok (_, found) => .error (.unsupported (.lookarounds found))

end ByteAutomata.Regexp
