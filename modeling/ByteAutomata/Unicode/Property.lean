import ByteAutomata.Unicode.Block
import ByteAutomata.Unicode.Database

/-!
Unicode properties by name: general categories (`L`, `Lu`, `Nd`, …) and, after `Is`, blocks.
-/

namespace ByteAutomata.Unicode

def generalCategories : List String := [
  "L", "Lu", "Ll", "Lt", "Lm", "Lo",
  "M", "Mn", "Mc", "Me",
  "N", "Nd", "Nl", "No",
  "P", "Pc", "Pd", "Ps", "Pe", "Pi", "Pf", "Po",
  "Z", "Zs", "Zl", "Zp",
  "S", "Sm", "Sc", "Sk", "So",
  "C", "Cc", "Cf", "Co", "Cn"]

def property? [Database] (name : String) : Option RuneSet :=
  match name.toList with
  | 'I' :: 's' :: block => block? (String.ofList block)
  | _ => if generalCategories.contains name then Database.category? name else none

end ByteAutomata.Unicode
