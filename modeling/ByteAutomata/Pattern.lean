import ByteAutomata.Fragment.Complement
import ByteAutomata.Fragment.Folded
import ByteAutomata.Fragment.Glob
import ByteAutomata.Regexp.Compile
import ByteAutomata.Regexp.Reading

/-!
Patterns for values.

The values of byte patterns are given as they stand in a document, a string with its quotes. Rune
sets and regexps describe what stands between the quotes.
-/

namespace ByteAutomata

inductive Pattern where
  | exact (value : List UInt8)
  | leading (value : List UInt8)
  /-- At most one `*`, which stands for any run of bytes. -/
  | shell (value : List UInt8)
  /-- Any number of `*`, no two of them side by side, and escapes. -/
  | wildcard (value : List UInt8)
  | anyCase (value : List UInt8)
  /-- Any value but those listed. -/
  | anythingBut (values : List (List UInt8))
  /-- One rune of the set. -/
  | runes (set : RuneSet)
  | regexp (root : Regexp.Root)

namespace Pattern

def kind : Pattern → String
  | exact _ => "exact"
  | leading _ => "prefix"
  | shell _ => "shellstyle"
  | wildcard _ => "wildcard"
  | anyCase _ => "equals-ignore-case"
  | anythingBut _ => "anything-but"
  | runes _ => "rune-range"
  | regexp _ => "regexp"

open Compile

def compile [Unicode.Database] (config : Config) (pattern : Pattern) (next : Target) : Compile Target :=
  match pattern with
  | exact value => do
    let _ ← requireText value
    return some (← onArena fun arena => arena.pushExact value next)
  | leading value => do
    let _ ← requireText value
    return some (← onArena fun arena => arena.pushLeading value next)
  | shell value => do
    let _ ← requireText value
    let tokens ← GlobToken.ofShell value
    return some (← onArena fun arena => arena.pushGlob tokens next)
  | wildcard value => do
    let _ ← requireText value
    let tokens ← GlobToken.ofWildcard value
    return some (← onArena fun arena => arena.pushGlob tokens next)
  | anyCase value => do
    let text ← requireText value
    return some (← onArena fun arena => arena.pushFolded text next)
  | anythingBut values => do
    values.forM fun value => do
      let _ ← requireText value
    return some (← onArena fun arena => arena.pushComplement values next)
  | runes set => Regexp.compile config [[.once (.runes set)]] true next
  | regexp root => Regexp.compile config root true next

end Pattern

end ByteAutomata
