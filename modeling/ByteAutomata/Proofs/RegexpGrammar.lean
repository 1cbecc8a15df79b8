import ByteAutomata.Regexp.Reading
import Mathlib.Data.List.Basic

/-!
The grammar of regexps.

A derivation relates a text, what its leading part stands for, and the rest of the text behind that part. A
regexp is what a whole text stands for, with nothing behind it. Lookarounds are derived as groups and listed
in the order in which they begin.

A class that is not negated could begin with a `^` for all that the grammar says of its elements. The
derivations come with and without such classes; only the latter ones are read.
-/

namespace ByteAutomata.Regexp

/-! ## Classes -/

/-- A rune of a class, written as it is or as an escape. -/
inductive ClassRune : List Char → Char → List Char → Prop
  | plain {rune : Char} {rest : List Char} :
      isClassRune rune = true → rune ≠ escape → ClassRune (rune :: rest) rune rest
  | escaped {mark rune : Char} {rest : List Char} :
      singleEscape? mark = some rune → ClassRune (escape :: mark :: rest) rune rest

/-- The letter of a property escape, which tells whether the property is negated. -/
def propertyMarker (negated : Bool) : Char := if negated then 'P' else 'p'

section

variable [Unicode.Database]

/-- The escape of a known property, with its own text and its set. -/
inductive PropertyEscape : List Char → String → RuneSet → List Char → Prop
  | known {negated : Bool} {name : List Char} {set : RuneSet} {rest : List Char} :
      Unicode.property? (String.ofList name) = some set →
      PropertyEscape (escape :: propertyMarker negated :: '\x7b' :: (name ++ '\x7d' :: rest))
        (String.ofList ([escape, propertyMarker negated, '\x7b'] ++ name ++ ['\x7d']))
        (if negated then set.invert else set) rest

inductive ClassElement : List Char → RuneSet → List Char → Prop
  | rune {text : List Char} {rune : Char} {rest : List Char} :
      ClassRune text rune rest → ClassElement text [.single rune] rest
  | range {text : List Char} {lo hi : Char} {middle rest : List Char} :
      ClassRune text lo ('-' :: middle) → ClassRune middle hi rest → lo ≤ hi →
      ClassElement text [⟨lo, hi⟩] rest
  | escaped {mark : Char} {set : RuneSet} {rest : List Char} :
      classEscape? mark = some set → ClassElement (escape :: mark :: rest) set rest
  | property {text : List Char} {name : String} {set : RuneSet} {rest : List Char} :
      PropertyEscape text name set rest → ClassElement text set rest

/-- Any number of elements, and a `-` behind them or none. -/
inductive ClassItems : List Char → RuneSet → List Char → Prop
  | none {rest : List Char} : ClassItems rest [] rest
  | dash {rest : List Char} : ClassItems ('-' :: rest) [.single '-'] rest
  | element {text middle rest : List Char} {set more : RuneSet} :
      ClassElement text set middle → ClassItems middle more rest → ClassItems text (set ++ more) rest

/-- What stands in a class; first comes an element or a `-`. -/
inductive ClassBody : List Char → RuneSet → List Char → Prop
  | dash {text rest : List Char} {more : RuneSet} :
      ClassItems text more rest → ClassBody ('-' :: text) (.single '-' :: more) rest
  | element {text middle rest : List Char} {set more : RuneSet} :
      ClassElement text set middle → ClassItems middle more rest → ClassBody text (set ++ more) rest

/-- A class and its set. Unless `caret` holds, a class that begins with a `^` is negated. -/
inductive ClassExpression (caret : Prop) : List Char → RuneSet → List Char → Prop
  | plain {text rest : List Char} {set : RuneSet} :
      caret ∨ text.head? ≠ some '^' → ClassBody text set (']' :: rest) →
      ClassExpression caret ('[' :: text) set.simplify rest
  | negated {text rest : List Char} {set : RuneSet} :
      ClassBody text set (']' :: rest) → ClassExpression caret ('[' :: '^' :: text) set.simplify.invert rest

end

/-! ## Quantifiers -/

/-- The number that decimal digits stand for. -/
def decimalValue (digits : List Char) : Nat :=
  digits.foldl (fun number digit => number * 10 + (digit.toNat - '0'.toNat)) 0

/-- A number that fits a 32-bit word. -/
inductive Numeral : List Char → Nat → List Char → Prop
  | digits {digits rest : List Char} :
      digits ≠ [] → (∀ digit ∈ digits, digit.isDigit = true) → decimalValue digits < word32Bound →
      Numeral (digits ++ rest) (decimalValue digits) rest

/-- A quantifier with its bounds. -/
inductive Quantifier : List Char → Nat → Option Nat → List Char → Prop
  | star {rest : List Char} : Quantifier ('*' :: rest) 0 none rest
  | plus {rest : List Char} : Quantifier ('+' :: rest) 1 none rest
  | optional {rest : List Char} : Quantifier ('?' :: rest) 0 (some 1) rest
  | exactly {text rest : List Char} {bound : Nat} :
      Numeral text bound ('\x7d' :: rest) → Quantifier ('\x7b' :: text) bound (some bound) rest
  | atLeast {text rest : List Char} {least : Nat} :
      Numeral text least (',' :: '\x7d' :: rest) → Quantifier ('\x7b' :: text) least none rest
  | between {text middle rest : List Char} {least most : Nat} :
      Numeral text least (',' :: middle) → Numeral middle most ('\x7d' :: rest) → least ≤ most →
      Quantifier ('\x7b' :: text) least (some most) rest

/-- What stands behind an atom makes it a piece: nothing, or a quantifier and perhaps a `?` behind it. -/
inductive Repeated (atom : Atom) : List Char → Piece → List Char → Prop
  | once {rest : List Char} : Repeated atom rest (.once atom) rest
  | quantified {text rest : List Char} {least : Nat} {most : Option Nat} :
      Quantifier text least most rest → Repeated atom text (.mk atom least most) rest
  | lazily {text rest : List Char} {least : Nat} {most : Option Nat} :
      Quantifier text least most ('?' :: rest) → Repeated atom text (.mk atom least most) rest

/-! ## Regexps -/

section

variable [Unicode.Database]

/-- The atoms that are no groups. -/
inductive PlainAtom (caret : Prop) : List Char → Atom → List Char → Prop
  | rune {rune : Char} {rest : List Char} :
      isNormalRune rune = true → PlainAtom caret (rune :: rest) (.runes [.single rune]) rest
  | dot {rest : List Char} : PlainAtom caret ('.' :: rest) .dot rest
  | escaped {mark rune : Char} {rest : List Char} :
      singleEscape? mark = some rune → PlainAtom caret (escape :: mark :: rest) (.runes [.single rune]) rest
  | class_ {mark : Char} {set : RuneSet} {rest : List Char} :
      classEscape? mark = some set → PlainAtom caret (escape :: mark :: rest) (.runes set) rest
  | property {text : List Char} {name : String} {set : RuneSet} {rest : List Char} :
      PropertyEscape text name set rest → PlainAtom caret text (.property name set) rest
  | expression {text : List Char} {set : RuneSet} {rest : List Char} :
      ClassExpression caret text set rest → PlainAtom caret text (.runes set) rest

mutual

/-- An atom, and the lookarounds in it. -/
inductive AtomText (caret : Prop) : List Char → Atom → List Lookaround → List Char → Prop
  | plain {text : List Char} {atom : Atom} {rest : List Char} :
      PlainAtom caret text atom rest → AtomText caret text atom [] rest
  | group {mark text rest : List Char} {lookaround : Option Lookaround} {root : Root}
      {found : List Lookaround} :
      (mark, lookaround) ∈ ([], none) :: groupMarks → RootText caret text root found (')' :: rest) →
      AtomText caret ('(' :: (mark ++ text)) (.group root) (lookaround.toList ++ found) rest

inductive PieceText (caret : Prop) : List Char → Piece → List Lookaround → List Char → Prop
  | repeated {text middle rest : List Char} {atom : Atom} {found : List Lookaround} {piece : Piece} :
      AtomText caret text atom found middle → Repeated atom middle piece rest →
      PieceText caret text piece found rest

inductive BranchText (caret : Prop) : List Char → Branch → List Lookaround → List Char → Prop
  | empty {rest : List Char} : BranchText caret rest [] [] rest
  | piece {text middle rest : List Char} {piece : Piece} {branch : Branch}
      {found more : List Lookaround} :
      PieceText caret text piece found middle → BranchText caret middle branch more rest →
      BranchText caret text (piece :: branch) (found ++ more) rest

inductive RootText (caret : Prop) : List Char → Root → List Lookaround → List Char → Prop
  | branch {text rest : List Char} {branch : Branch} {found : List Lookaround} :
      BranchText caret text branch found rest → RootText caret text [branch] found rest
  | choice {text middle rest : List Char} {branch : Branch} {root : Root}
      {found more : List Lookaround} :
      BranchText caret text branch found ('|' :: middle) → RootText caret middle root more rest →
      RootText caret text (branch :: root) (found ++ more) rest

end

/-- What a whole text stands for. The empty text stands for no branches, not for an empty one. -/
inductive Derives (caret : Prop) : String → Root → List Lookaround → Prop
  | empty : Derives caret "" [] []
  | whole {text : String} {root : Root} {found : List Lookaround} :
      text ≠ "" → RootText caret text.toList root found [] → Derives caret text root found

/-- Induction on derivations of regexps, with a case for each kind of piece. -/
theorem RootText.induction {caret : Prop}
    (pieceHolds : List Char → Piece → List Lookaround → List Char → Prop)
    (branchHolds : List Char → Branch → List Lookaround → List Char → Prop)
    (rootHolds : List Char → Root → List Lookaround → List Char → Prop)
    (plain : ∀ {text middle rest atom piece}, PlainAtom caret text atom middle →
      Repeated atom middle piece rest → pieceHolds text piece [] rest)
    (group : ∀ {mark text middle rest lookaround root found piece},
      (mark, lookaround) ∈ ([], none) :: groupMarks → RootText caret text root found (')' :: middle) →
      Repeated (.group root) middle piece rest → rootHolds text root found (')' :: middle) →
      pieceHolds ('(' :: (mark ++ text)) piece (lookaround.toList ++ found) rest)
    (empty : ∀ {rest}, branchHolds rest [] [] rest)
    (piece : ∀ {text middle rest piece branch found more}, BranchText caret middle branch more rest →
      pieceHolds text piece found middle → branchHolds middle branch more rest →
      branchHolds text (piece :: branch) (found ++ more) rest)
    (branch : ∀ {text rest branch found}, branchHolds text branch found rest → rootHolds text [branch] found rest)
    (choice : ∀ {text middle rest branch root found more}, RootText caret middle root more rest →
      branchHolds text branch found ('|' :: middle) → rootHolds middle root more rest →
      rootHolds text (branch :: root) (found ++ more) rest)
    {text : List Char} {root : Root} {found : List Lookaround} {rest : List Char}
    (derived : RootText caret text root found rest) : rootHolds text root found rest := by
  refine @RootText.rec _ caret
    (fun text atom found middle _ =>
      ∀ {piece rest}, Repeated atom middle piece rest → pieceHolds text piece found rest)
    (fun text piece found rest _ => pieceHolds text piece found rest)
    (fun text branch found rest _ => branchHolds text branch found rest)
    (fun text root found rest _ => rootHolds text root found rest)
    ?_ ?_ ?_ ?_ ?_ ?_ ?_ text root found rest derived
  · exact fun atom _ _ repeated => plain atom repeated
  · exact fun listed roots holds _ _ repeated => group listed roots repeated holds
  · exact fun _ repeated holds => holds repeated
  · exact empty
  · exact fun _ branches pieceHere branchHere => piece branches pieceHere branchHere
  · exact fun _ holds => branch holds
  · exact fun _ roots branchHere rootHere => choice roots branchHere rootHere

end

end ByteAutomata.Regexp
