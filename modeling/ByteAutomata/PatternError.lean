import ByteAutomata.RuneSet

/-!
Why a pattern is refused.

Each cause is a constructor, and `message` words it. Running an automaton never refuses anything:
all of these arise while a pattern is read or compiled.
-/

namespace ByteAutomata

namespace Regexp

/-- Parts of the notation that can be read and not compiled. -/
inductive Lookaround where
  | ahead
  | notAhead
  | behind
  | notBehind
  deriving DecidableEq, Repr

def Lookaround.text : Lookaround → String
  | .ahead => "(?=...)"
  | .notAhead => "(?!...)"
  | .behind => "(?<=...)"
  | .notBehind => "(?<!...)"

inductive SyntaxFault where
  /-- Another character than the wanted one, or none. -/
  | expected (wanted : Char) (got : Option Char)
  /-- A closing parenthesis that closes nothing. -/
  | unbalanced (got : Char)
  | closingBracket
  | escapeAtEnd
  | unknownEscape (escaped : Char)
  | nothingToQuantify (got : Char)
  | unclosedGroup
  | unclosedPropertyName
  | invalidInPropertyName (got : Char)
  | emptyPropertyName
  | unknownProperty (name : String)
  | unclosedClass
  | unknownEscapeInClass (escaped : Char)
  | invalidInClass (got : Char)
  | unknownEscapeAfterDash (escaped : Char)
  | invalidAfterDash (got : Char)
  | swappedRange (lo hi : Char)
  | unclosedQuantifier
  | digitsExpected
  | unexpectedInQuantifier (got : Char)
  | unclosedAfterBounds (got : Char)
  | swappedBounds
  | boundTooLarge
  deriving DecidableEq, Repr

def escape : Char := '~'

def SyntaxFault.message : SyntaxFault → String
  | expected wanted (some got) => s!"expected '{wanted}', got '{got}'"
  | expected wanted none => s!"expected '{wanted}', got end of string"
  | unbalanced got => s!"unbalanced '{got}'"
  | closingBracket => "invalid ']'"
  | escapeAtEnd => "'~' at end of regular expression"
  | unknownEscape escaped => s!"invalid character '{escaped}' after '{escape}'"
  | nothingToQuantify got => s!"invalid character '{got}' (quantifier without atom)"
  | unclosedGroup => "unclosed '('"
  | unclosedPropertyName => "unclosed property name"
  | invalidInPropertyName got => s!"invalid character '{got}' in property name"
  | emptyPropertyName => "empty property name"
  | unknownProperty name => s!"unknown Unicode property '{name}'"
  | unclosedClass => "unclosed character class"
  | unknownEscapeInClass escaped =>
    s!"invalid character '{escaped}' after {escape} in character class"
  | invalidInClass got => s!"invalid character '{got}' in character class"
  | unknownEscapeAfterDash escaped => s!"invalid char '{escaped}' after - in character class"
  | invalidAfterDash got => s!"invalid char '{got}' in range"
  | swappedRange lo hi => s!"invalid range {lo}-{hi}"
  | unclosedQuantifier => "unexpected end of string in quantifier"
  | digitsExpected => "invalid range quantifier, expecting digits"
  | unexpectedInQuantifier got => s!"unexpected character '{got}' in quantifier"
  | unclosedAfterBounds got => s!"invalid character '{got}', expected '\x7d'"
  | swappedBounds => "invalid range quantifier, top must be greater than bottom"
  | boundTooLarge => "number in quantifier is too large"

/-- A fault of a regexp's text and the byte offset at which it shows. -/
structure SyntaxError where
  fault : SyntaxFault
  offset : Nat
  deriving DecidableEq, Repr

def SyntaxError.message (error : SyntaxError) : String :=
  s!"{error.fault.message} at offset {error.offset}"

inductive Unsupported where
  | lookarounds (found : List Lookaround)
  | mostBelowLeast (least most : Nat)
  deriving DecidableEq, Repr

def Unsupported.message : Unsupported → String
  | lookarounds found => ", ".intercalate (found.map (·.text))
  | mostBelowLeast least most =>
    "quantifier \x7b" ++ toString least ++ "," ++ toString most ++ "\x7d with max below min"

end Regexp

inductive PatternError where
  | multipleGlobs
  | adjacentGlobs (offset : Nat)
  | trailingEscape
  | invalidEscape (escaped : Char) (offset : Nat)
  | invalidRuneRange (interval : RuneInterval)
  | unsupported (feature : Regexp.Unsupported)
  | degenerateClosure
  | quantifierTooLarge (bound limit : Nat)
  | expansionTooLarge (copies limit : Nat)
  | regexp (error : Regexp.SyntaxError)
  | invalidUtf8
  deriving DecidableEq, Repr

def PatternError.message : PatternError → String
  | multipleGlobs => "shell-style pattern has more than one '*'"
  | adjacentGlobs offset => s!"wildcard pattern has adjacent '*' at offset {offset}"
  | trailingEscape => "wildcard pattern ends with an unescaped '\\'"
  | invalidEscape escaped offset =>
    "invalid escape '\\" ++ escaped.toString ++ "' at offset " ++ toString offset
  | invalidRuneRange interval =>
    "invalid rune range U+" ++ RuneSet.hexCodePoint interval.lo
      ++ "-U+" ++ RuneSet.hexCodePoint interval.hi
  | unsupported feature => "unsupported regexp feature: " ++ feature.message
  | degenerateClosure => "quantified atom can match the empty string"
  | quantifierTooLarge bound limit =>
    s!"quantifier bound {bound} exceeds the maximum of {limit}"
  | expansionTooLarge copies limit =>
    s!"repetitions expand to {copies} copies, more than the maximum of {limit}"
  | regexp error => "regexp syntax error: " ++ error.message
  | invalidUtf8 => "pattern value is not valid UTF-8"

end ByteAutomata
