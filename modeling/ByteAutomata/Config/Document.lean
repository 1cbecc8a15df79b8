import ByteAutomata.Config
import ByteAutomata.Word

/-!
Settings as a TOML document.

Every setting is a number or a truth value under a key of its own at the top level. A document that
holds anything else, a table or a text for instance, has no setting for it and is refused; so only
comments and lines of a key, `=` and a value need to be told apart. Lines end with a line feed or
with carriage return and line feed, keys may be quoted, and numbers are 64-bit integers in decimal,
hexadecimal, octal or binary notation with single underscores between digits.
-/

namespace ByteAutomata.Config

inductive Value where
  | truth (value : Bool)
  | number (value : Nat)
  deriving DecidableEq, Repr

/-! ## Blanks and ends of lines -/

def isBlank (c : Char) : Bool := c == ' ' || c == '\t'

def isPrintable (c : Char) : Bool :=
  c == '\t' || (' ' ≤ c && c ≤ '~') || 0x80 ≤ c.toNat

def skipBlanks (text : List Char) : List Char := text.dropWhile isBlank

/-- What follows the end of a line, if the text starts with one. -/
def newline? : List Char → Option (List Char)
  | '\n' :: rest => some rest
  | '\r' :: '\n' :: rest => some rest
  | _ => none

/-- What follows a line of which nothing more than blanks and a comment remains. -/
def endOfLine? (text : List Char) : Option (List Char) :=
  let rest := match skipBlanks text with
    | '#' :: comment => comment.dropWhile isPrintable
    | rest => rest
  if rest.isEmpty then some [] else newline? rest

/-! ## Keys -/

def isBareKey (c : Char) : Bool := c.isAlphanum || c == '_' || c == '-'

def hexValue? (c : Char) : Option Nat :=
  if c.isDigit then some (c.toNat - '0'.toNat)
  else if 'a' ≤ c ∧ c ≤ 'f' then some (c.toNat - 'a'.toNat + 10)
  else if 'A' ≤ c ∧ c ≤ 'F' then some (c.toNat - 'A'.toNat + 10)
  else none

def readHex : (count : Nat) → (number : Nat) → List Char → Option (Nat × List Char)
  | 0, number, rest => some (number, rest)
  | _ + 1, _, [] => none
  | count + 1, number, c :: rest => do readHex count (number * 16 + (← hexValue? c)) rest

def readEscapedCode (count : Nat) (text : List Char) : Option (Char × List Char) := do
  let (code, rest) ← readHex count 0 text
  if code.isValidChar then some (Char.ofNat code, rest) else none

/-- Reads an escape behind its `\`. -/
def readEscape : List Char → Option (Char × List Char)
  | 'b' :: rest => some ('\x08', rest)
  | 't' :: rest => some ('\t', rest)
  | 'n' :: rest => some ('\n', rest)
  | 'f' :: rest => some ('\x0c', rest)
  | 'r' :: rest => some ('\r', rest)
  | '"' :: rest => some ('"', rest)
  | '\\' :: rest => some ('\\', rest)
  | 'u' :: rest => readEscapedCode 4 rest
  | 'U' :: rest => readEscapedCode 8 rest
  | _ => none

/-- Reads a key in double quotes behind the first one. Each round reads a character. -/
def readQuotedKey : (rounds : Nat) → List Char → Option (List Char × List Char)
  | 0, _ => none
  | _, [] => none
  | rounds + 1, c :: rest =>
    if c = '"' then some ([], rest)
    else if c = '\\' then do
      let (escaped, rest) ← readEscape rest
      let (key, rest) ← readQuotedKey rounds rest
      return (escaped :: key, rest)
    else if isPrintable c then do
      let (key, rest) ← readQuotedKey rounds rest
      return (c :: key, rest)
    else none

def readKey (text : List Char) : Option (String × List Char) :=
  match text with
  | '"' :: rest => (readQuotedKey rest.length rest).map fun (key, rest) => (String.ofList key, rest)
  | '\'' :: rest =>
    let isLiteral (c : Char) : Bool := c != '\'' && isPrintable c
    match rest.dropWhile isLiteral with
    | '\'' :: behind => some (String.ofList (rest.takeWhile isLiteral), behind)
    | _ => none
  | _ =>
    let key := text.takeWhile isBareKey
    if key.isEmpty then none else some (String.ofList key, text.dropWhile isBareKey)

/-! ## Values -/

def digitValue? (base : Nat) (c : Char) : Option Nat :=
  (hexValue? c).filter (· < base)

/-- Reads further digits, each of which may have an underscore before it. -/
def readDigits (base : Nat) (number : Nat) : List Char → Nat × List Char
  | '_' :: c :: rest =>
    match digitValue? base c with
    | some digit => readDigits base (number * base + digit) rest
    | none => (number, '_' :: c :: rest)
  | c :: rest =>
    match digitValue? base c with
    | some digit => readDigits base (number * base + digit) rest
    | none => (number, c :: rest)
  | [] => (number, [])

def readNumber (base : Nat) : List Char → Option (Nat × List Char)
  | c :: rest => (digitValue? base c).map fun digit => readDigits base digit rest
  | [] => none

def readDecimal : List Char → Option (Nat × List Char)
  | '0' :: rest => some (0, rest)
  | text => readNumber 10 text

/-- Reads an integer. No setting is negative, so of the negative ones only `-0` has a use. -/
def readInteger (text : List Char) : Option (Nat × List Char) :=
  match text with
  | '0' :: 'x' :: rest => readNumber 16 rest
  | '0' :: 'o' :: rest => readNumber 8 rest
  | '0' :: 'b' :: rest => readNumber 2 rest
  | '+' :: rest => readDecimal rest
  | '-' :: rest => (readDecimal rest).filter (·.1 == 0)
  | _ => readDecimal text

def readValue (text : List Char) : Option (Value × List Char) :=
  match text with
  | 't' :: 'r' :: 'u' :: 'e' :: rest => some (.truth true, rest)
  | 'f' :: 'a' :: 'l' :: 's' :: 'e' :: rest => some (.truth false, rest)
  | _ => (readInteger text).map fun (number, rest) => (.number number, rest)

/-! ## Documents -/

def readEntry (text : List Char) : Option ((String × Value) × List Char) := do
  let (key, rest) ← readKey text
  match skipBlanks rest with
  | '=' :: rest =>
    let (value, rest) ← readValue (skipBlanks rest)
    return ((key, value), ← endOfLine? rest)
  | _ => none

/-- Reads the lines of a document. Each round reads at least one character. -/
def readLines : (rounds : Nat) → List Char → Option (List (String × Value))
  | 0, text => if text.isEmpty then some [] else none
  | rounds + 1, text =>
    match skipBlanks text with
    | [] => some []
    | c :: rest =>
      if c = '#' ∨ c = '\n' ∨ c = '\r' then do
        readLines rounds (← endOfLine? (c :: rest))
      else do
        let (entry, rest) ← readEntry (c :: rest)
        return entry :: (← readLines rounds rest)

def set? (config : Config) : String × Value → Option Config
  | ("determinize", .truth value) => some { config with determinize := value }
  | ("max_dfa_states", .number value) =>
    if value < signedWord64Bound then some { config with maxDfaStates := value } else none
  | ("max_quantifier", .number value) =>
    if value < word32Bound then some { config with maxQuantifier := value } else none
  | ("max_expansion", .number value) =>
    if value < word32Bound then some { config with maxExpansion := value } else none
  | ("shell_cache_min_runes", .number value) =>
    if value < word32Bound then some { config with shellCacheMinRunes := value } else none
  | _ => none

/-- The settings of a document, over the default ones. A key stands at most once. -/
def ofLines (text : List Char) : Option Config := do
  let entries ← readLines text.length text
  if (entries.map (·.1)).Nodup then entries.foldlM set? {} else none

/-- Reads a document of settings. A byte order mark in front of it is skipped. -/
def ofText (text : String) : Except ConfigError Config :=
  let lines := match text.toList with
    | '\uFEFF' :: rest => rest
    | runes => runes
  match ofLines lines with
  | none => .error .unreadable
  | some config => config.validate.map fun _ => config

end ByteAutomata.Config
