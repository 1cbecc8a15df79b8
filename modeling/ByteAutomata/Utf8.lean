/-!
Runes as bytes.

UTF-8 gives every rune one to four bytes and every list of runes one list of bytes. Surrogates,
overlong forms and code points past U+10FFFF have none.
-/

namespace ByteAutomata.Utf8

def encode (runes : List Char) : List UInt8 :=
  runes.flatMap String.utf8EncodeChar

def decode? (bytes : List UInt8) : Option (List Char) :=
  (String.fromUTF8? ⟨bytes.toArray⟩).map (·.toList)

def isValid (bytes : List UInt8) : Bool :=
  (decode? bytes).isSome

end ByteAutomata.Utf8
