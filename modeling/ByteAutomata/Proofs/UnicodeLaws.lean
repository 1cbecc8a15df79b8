import ByteAutomata.Proofs.RuneSets
import ByteAutomata.Unicode.Property
import ByteAutomata.Unicode.Standard

/-!
What holds of Unicode data.

Only letters, digits and dashes stand in the name of a property, and no name is empty, whatever the database. Under
its laws every rune is one of its own case variants, and no property has an interval with swapped ends. The tables of
Unicode 16.0 keep these laws.
-/

namespace ByteAutomata

theorem RuneInterval.mem_runes {interval : RuneInterval} {rune : Char} :
    rune ∈ interval.runes ↔ interval.Contains rune := by
  have scalars : rune ∈ interval.runes ↔ rune.toNat ∈
      List.range' interval.lo.toNat (interval.hi.toNat + 1 - interval.lo.toNat) := by
    simp [runes, List.mem_filterMap, scalar?_eq_some_iff]
  rw [scalars, List.mem_range'_1, RuneInterval.Contains, rune_le_iff, rune_le_iff]
  omega

namespace Unicode

variable {name : String} {set : RuneSet}

/-! ## The names of properties -/

/-- A rune that the name of a property may have. -/
def isNameRune (rune : Char) : Bool := rune.isAlphanum || rune == '-'

theorem isNameRune_of_mem_generalCategories (listed : name ∈ generalCategories) :
    name.toList ≠ [] ∧ name.toList.all isNameRune = true := by
  have each : ∀ other ∈ generalCategories, other.toList ≠ [] ∧ other.toList.all isNameRune = true := by
    decide +kernel
  exact each name listed

theorem isNameRune_of_block (known : block? name = some set) : name.toList.all isNameRune = true := by
  unfold block? at known
  split at known
  · rename_i surrogates
    have each : ∀ other ∈ surrogateBlocks, other.toList.all isNameRune = true := by decide +kernel
    exact each name (by simpa using surrogates)
  · obtain ⟨block, found, _⟩ := Option.map_eq_some_iff.mp known
    have each : ∀ other ∈ blocks, other.name.toList.all isNameRune = true := by decide +kernel
    have same : block.name = name := by simpa using List.find?_some found
    exact same ▸ each block (List.mem_of_find?_eq_some found)

section

variable [Database]

theorem isNameRune_of_property (known : property? name = some set) :
    name.toList ≠ [] ∧ name.toList.all isNameRune = true := by
  unfold property? at known
  split at known
  · rename_i block begins
    have rest := isNameRune_of_block known
    rw [String.toList_ofList] at rest
    rw [begins]
    exact ⟨by simp, by simp only [List.all_cons, rest, Bool.and_true]; decide⟩
  · split at known
    · rename_i listed
      exact isNameRune_of_mem_generalCategories (by simpa using listed)
    · cases known

/-! ## What the laws of a database give -/

theorem mem_caseVariants {rune variant : Char} :
    variant ∈ caseVariants rune ↔ (Database.folded rune).Contains variant := by
  simp only [caseVariants, List.mem_flatMap, RuneInterval.mem_runes, RuneSet.Contains]

theorem mem_caseVariants_self [LawfulFolding] (rune : Char) : rune ∈ caseVariants rune :=
  mem_caseVariants.mpr (LawfulFolding.contains_folded rune)

theorem proper_of_property? [LawfulCategories] (known : property? name = some set) : set.Proper := by
  unfold property? at known
  split at known
  · unfold block? at known
    split at known
    · exact Option.some.inj known ▸ fun _ listed => nomatch listed
    · obtain ⟨block, _, rfl⟩ := Option.map_eq_some_iff.mp known
      exact RuneSet.ofCodePoints_proper _
  · split at known
    · exact LawfulCategories.le_of_category known
    · cases known

end

/-! ## The tables of Unicode 16.0 -/

/-- Folding can be undone on the run that a rune is folded by. -/
theorem FoldRun.invert?_apply {run : FoldRun} {rune : Nat} (covers : run.covers rune = true) :
    run.invert? (run.apply rune) = some rune := by
  have first : run.first ≤ rune := by
    simp only [FoldRun.covers, Bool.and_eq_true, decide_eq_true_eq] at covers
    exact covers.1.1
  simp [FoldRun.invert?, FoldRun.apply, Nat.add_sub_cancel' first, covers]

theorem mem_foldClass_self (rune : Nat) : rune ∈ foldClass rune := by
  rw [foldClass, List.mem_cons, foldCase]
  cases folds : foldRuns.find? (·.covers rune) with
  | none => exact Or.inl rfl
  | some run =>
    have covers := List.find?_some folds
    exact Or.inr (List.mem_filterMap.mpr ⟨run, List.mem_of_find?_eq_some folds, FoldRun.invert?_apply covers⟩)

theorem contains_foldedRunes {rune variant : Char} :
    (foldedRunes rune).Contains variant ↔ variant.toNat ∈ foldClass rune.toNat := by
  have single (other : Char) : (RuneInterval.single other).Contains variant ↔ other = variant :=
    le_antisymm_iff.symm
  simp [foldedRunes, RuneSet.Contains, single, List.mem_filterMap, scalar?_eq_some_iff]

theorem mem_caseVariants_standard {rune variant : Char} :
    variant ∈ caseVariants rune ↔ variant.toNat ∈ foldClass rune.toNat :=
  mem_caseVariants.trans contains_foldedRunes

instance : LawfulFolding where
  contains_folded rune := contains_foldedRunes.mpr (mem_foldClass_self rune.toNat)

instance : LawfulCategories where
  le_of_category known := by
    obtain ⟨parts, _, rfl⟩ := Option.map_eq_some_iff.mp known
    exact RuneSet.ofCodePoints_proper _

end Unicode

end ByteAutomata
