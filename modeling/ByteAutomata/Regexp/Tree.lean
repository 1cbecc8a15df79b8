import ByteAutomata.RuneSet

/-!
Regexps as trees.

A regexp is a choice between branches, a branch a sequence of pieces, and a piece an atom with the
bounds of its repetition. No branches at all stand for the empty text.
-/

namespace ByteAutomata.Regexp

mutual

/-- What one repetition of a piece reads. -/
inductive Atom where
  /-- Any rune. -/
  | dot
  /-- One rune of a set. -/
  | runes (set : RuneSet)
  /-- A regexp in parentheses. -/
  | group (root : List (List Piece))
  /-- One rune of the set that an escape names. -/
  | property (name : String) (set : RuneSet)

/-- An atom and how often it is repeated; no greatest number means without limit. -/
inductive Piece where
  | mk (atom : Atom) (least : Nat) (most : Option Nat)

end

abbrev Branch := List Piece

abbrev Root := List Branch

namespace Piece

def atom : Piece → Atom
  | mk atom _ _ => atom

def least : Piece → Nat
  | mk _ least _ => least

def most : Piece → Option Nat
  | mk _ _ most => most

def once (atom : Atom) : Piece := mk atom 1 (some 1)

def isSingleton (piece : Piece) : Bool := piece.least == 1 && piece.most == some 1

def isOptional (piece : Piece) : Bool := piece.least == 0 && piece.most == some 1

def isStar (piece : Piece) : Bool := piece.least == 0 && piece.most.isNone

def isPlus (piece : Piece) : Bool := piece.least == 1 && piece.most.isNone

end Piece

/-! ## Reading nothing -/

mutual

/-- True if an atom can read the empty text. -/
def Atom.isNullable : Atom → Bool
  | .group root => root.isEmpty || anyNullable root
  | _ => false

def Piece.isNullable : Piece → Bool
  | .mk atom least _ => least == 0 || atom.isNullable

def allNullable : Branch → Bool
  | [] => true
  | piece :: rest => piece.isNullable && allNullable rest

def anyNullable : Root → Bool
  | [] => false
  | branch :: rest => allNullable branch || anyNullable rest

end

/-! ## Unrolled size -/

/-- The sum of two 64-bit words, or the largest word if the sum is none. -/
def saturatingAdd (left right : Nat) : Nat := min (left + right) maxWord64

def saturatingMul (left right : Nat) : Nat := min (left * right) maxWord64

mutual

/-- The atoms that one repetition of an atom unrolls to. -/
def Atom.expansion : Atom → Nat
  | .group root => max 1 (rootExpansionFrom 0 root)
  | _ => 1

/-- The atoms that a piece unrolls to: one copy for each repetition up to the greatest number, or one
more than the least number if there is no greatest. -/
def Piece.expansion : Piece → Nat
  | .mk atom least most => saturatingMul atom.expansion (most.getD (least + 1))

def branchExpansionFrom : (total : Nat) → Branch → Nat
  | total, [] => total
  | total, piece :: rest => branchExpansionFrom (saturatingAdd total piece.expansion) rest

def rootExpansionFrom : (total : Nat) → Root → Nat
  | total, [] => total
  | total, branch :: rest => rootExpansionFrom (branchExpansionFrom total branch) rest

end

/-- The atoms that a regexp unrolls to once every repetition is written out, as far as a 64-bit word
can tell. -/
def rootExpansion (root : Root) : Nat := rootExpansionFrom 0 root

end ByteAutomata.Regexp
