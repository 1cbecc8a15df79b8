import ByteAutomata.Unicode.Category
import ByteAutomata.Unicode.Database
import ByteAutomata.Unicode.Folding

/-!
The character database of Unicode 16.0.
-/

namespace ByteAutomata.Unicode

instance standard : Database where
  folded := foldedRunes
  category? := categoryRunes?

end ByteAutomata.Unicode
