import ByteAutomata.RuneSet

/-!
What is asked of a Unicode character database.

Which runes differ only in case, and which have a general category, is data that versions of Unicode
change. Patterns are read and compiled with whatever database there is.
-/

namespace ByteAutomata.Unicode

class Database where
  /-- The runes that simple case folding takes for the same as a rune. -/
  folded : Char → RuneSet
  /-- The runes of a general category, named by one or two letters. -/
  category? : String → Option RuneSet

/-- Every rune is folded with itself. -/
class LawfulFolding [Database] : Prop where
  contains_folded : ∀ rune, (Database.folded rune).Contains rune

/-- No interval of a category has swapped ends. -/
class LawfulCategories [Database] : Prop where
  le_of_category : ∀ {name set}, Database.category? name = some set →
    ∀ interval ∈ set, interval.lo ≤ interval.hi

/-- All runes that differ from `rune` at most in case. -/
def caseVariants [Database] (rune : Char) : List Char :=
  (Database.folded rune).flatMap (·.runes)

end ByteAutomata.Unicode
