import ByteAutomata.Proofs.Fragments
import ByteAutomata.Proofs.RuneSets
import ByteAutomata.Regexp.Tree
import ByteAutomata.Utf8

/-!
What regexps mean.

A tree denotes a language of runes and, encoded, one of bytes. Encoding is a homomorphism, so a repetition is
encoded as a repetition of what is encoded.
-/

namespace ByteAutomata

open scoped Computability

/-! ## Repetition -/

/-- A number of words of the language, one after the other. -/
def repeated {α : Type} (words : Language α) (least : Nat) (most : Option Nat) : Language α :=
  {word | ∃ count, least ≤ count ∧ (∀ bound ∈ most, count ≤ bound) ∧ word ∈ words ^ count}

section

variable {α : Type} {words : Language α}

theorem mem_repeated {least : Nat} {most : Option Nat} {word : List α} :
    word ∈ repeated words least most ↔
      ∃ count, least ≤ count ∧ (∀ bound ∈ most, count ≤ bound) ∧ word ∈ words ^ count :=
  Iff.rfl

/-- As often as one count allows. -/
theorem repeated_exactly (words : Language α) (count : Nat) :
    repeated words count (some count) = words ^ count := by
  ext word
  rw [mem_repeated]
  constructor
  · rintro ⟨other, least, most, member⟩
    exact Nat.le_antisymm (most count rfl) least ▸ member
  · exact fun member => ⟨count, le_rfl, fun bound same => (Option.some.inj same).le, member⟩

theorem repeated_succ (words : Language α) (count : Nat) :
    repeated words 0 (some (count + 1)) = words * repeated words 0 (some count) + 1 := by
  ext word
  rw [Language.mem_add, Language.mem_mul]
  constructor
  · rintro ⟨_ | other, _, most, member⟩
    · exact Or.inr member
    · rw [pow_succ', Language.mem_mul] at member
      obtain ⟨first, here, rest, there, same⟩ := member
      exact Or.inl ⟨first, here, rest, ⟨other, Nat.zero_le _,
        fun bound held => Option.some.inj held ▸ Nat.le_of_succ_le_succ (most _ rfl), there⟩, same⟩
  · rintro (⟨first, here, rest, ⟨other, _, most, there⟩, rfl⟩ | nothing)
    · refine ⟨other + 1, Nat.zero_le _, fun bound held => ?_, ?_⟩
      · exact Option.some.inj held ▸ Nat.succ_le_succ (most _ rfl)
      · rw [pow_succ']
        exact Language.append_mem_mul here there
    · exact ⟨0, le_rfl, fun _ _ => Nat.zero_le _, nothing⟩

theorem repeated_star (words : Language α) : repeated words 0 none = words∗ := by
  ext word
  rw [mem_repeated, Language.kstar_eq_iSup_pow, Language.mem_iSup]
  simp

/-- As often as there has to be, and then as often as there may be. -/
theorem repeated_eq_pow_mul (words : Language α) {least : Nat} {most : Option Nat}
    (order : ∀ bound ∈ most, least ≤ bound) :
    repeated words least most = words ^ least * repeated words 0 (most.map (· - least)) := by
  ext word
  rw [Language.mem_mul]
  constructor
  · rintro ⟨count, enough, most, member⟩
    obtain ⟨further, rfl⟩ := Nat.exists_eq_add_of_le enough
    rw [pow_add, Language.mem_mul] at member
    obtain ⟨first, here, rest, there, same⟩ := member
    refine ⟨first, here, rest, ⟨further, Nat.zero_le _, fun bound held => ?_, there⟩, same⟩
    obtain ⟨whole, known, rfl⟩ := Option.map_eq_some_iff.mp held
    have within := most whole known
    omega
  · rintro ⟨first, here, rest, ⟨further, _, most, there⟩, rfl⟩
    refine ⟨least + further, Nat.le_add_right _ _, fun bound held => ?_, ?_⟩
    · have within := most (bound - least) (Option.map_eq_some_iff.mpr ⟨bound, held, rfl⟩)
      have ordered := order bound held
      omega
    · rw [pow_add]
      exact Language.append_mem_mul here there

end

/-! ## Bytes -/

/-- The bytes of the words. -/
def encoded : Language Char →+* Language UInt8 where
  toFun words := Set.image Utf8.encode words
  map_zero' := Set.image_empty _
  map_one' := Set.image_singleton
  map_add' := Set.image_union _
  map_mul' _ _ := Set.image_image2_distrib fun _ _ => List.flatMap_append

theorem mem_encoded {words : Language Char} {bytes : List UInt8} :
    bytes ∈ encoded words ↔ ∃ text ∈ words, Utf8.encode text = bytes :=
  Iff.rfl

theorem encoded_repeated (words : Language Char) (least : Nat) (most : Option Nat) :
    encoded (repeated words least most) = repeated (encoded words) least most := by
  ext bytes
  simp only [mem_encoded, mem_repeated, ← map_pow]
  constructor
  · rintro ⟨text, ⟨count, enough, within, member⟩, same⟩
    exact ⟨count, enough, within, text, member, same⟩
  · rintro ⟨count, enough, within, text, member, same⟩
    exact ⟨text, ⟨count, enough, within, member⟩, same⟩

theorem nil_mem_encoded {words : Language Char} : [] ∈ encoded words ↔ [] ∈ words := by
  constructor
  · rintro ⟨text, member, nothing⟩
    cases text with
    | nil => exact member
    | cons rune text =>
      simp [Utf8.encode] at nothing
  · exact fun member => ⟨[], member, rfl⟩

namespace Regexp

/-! ## Trees -/

/-- One rune of the set. -/
def runeLanguage (holds : Char → Prop) : Language Char :=
  {text | ∃ rune, holds rune ∧ text = [rune]}

theorem encoded_runeLanguage (holds : Char → Prop) :
    encoded (runeLanguage holds) = Arena.runeWords holds := by
  ext bytes
  rw [mem_encoded, Arena.mem_runeWords]
  constructor
  · rintro ⟨text, ⟨rune, held, rfl⟩, rfl⟩
    exact ⟨rune, held, by simp [Utf8.encode]⟩
  · rintro ⟨rune, held, rfl⟩
    exact ⟨[rune], ⟨rune, held, rfl⟩, by simp [Utf8.encode]⟩

mutual

def Atom.language : Atom → Language Char
  | .dot => runeLanguage fun _ => True
  | .runes set => runeLanguage set.Contains
  | .group root => rootLanguage root
  | .property _ set => runeLanguage set.Contains

def Piece.language : Piece → Language Char
  | .mk atom least most => repeated atom.language least most

def branchLanguage : Branch → Language Char
  | [] => 1
  | piece :: rest => piece.language * branchLanguage rest

/-- What any of the branches denotes. -/
def anyLanguage : Root → Language Char
  | [] => 0
  | branch :: rest => branchLanguage branch + anyLanguage rest

/-- No branches denote the empty text. -/
def rootLanguage : Root → Language Char
  | [] => 1
  | branch :: rest => branchLanguage branch + anyLanguage rest

end

theorem nil_not_mem_runeLanguage (holds : Char → Prop) : [] ∉ runeLanguage holds := by
  rintro ⟨rune, _, same⟩
  cases same

theorem nil_mem_mul {words more : Language Char} (nothing : [] ∈ words * more) : [] ∈ words ∧ [] ∈ more := by
  obtain ⟨first, here, rest, there, same⟩ := Language.mem_mul.mp nothing
  obtain ⟨rfl, rfl⟩ := List.append_eq_nil_iff.mp same
  exact ⟨here, there⟩

mutual

/-- Only what is nullable denotes the empty text. -/
theorem Atom.isNullable_of_nil : ∀ {atom : Atom}, [] ∈ atom.language → atom.isNullable = true
  | .dot, nothing => absurd (Atom.language.eq_1 ▸ nothing) (nil_not_mem_runeLanguage _)
  | .runes set, nothing => absurd (Atom.language.eq_2 set ▸ nothing) (nil_not_mem_runeLanguage _)
  | .group [], _ => by
    rw [Atom.isNullable]
    rfl
  | .group (branch :: rest), nothing => by
    rw [Atom.language, rootLanguage] at nothing
    rw [Atom.isNullable, anyNullable]
    rcases nothing with first | other
    · simp [allNullable_of_nil first]
    · simp [anyNullable_of_nil other]
  | .property name set, nothing => absurd (Atom.language.eq_4 name set ▸ nothing) (nil_not_mem_runeLanguage _)

theorem Piece.isNullable_of_nil : ∀ {piece : Piece}, [] ∈ piece.language → piece.isNullable = true
  | .mk atom least most, nothing => by
    rw [Piece.language] at nothing
    rw [Piece.isNullable]
    obtain ⟨_ | count, enough, _, member⟩ := nothing
    · simp [Nat.le_zero.mp enough]
    · rw [pow_succ] at member
      simp [Atom.isNullable_of_nil (nil_mem_mul member).2]

theorem allNullable_of_nil : ∀ {branch : Branch}, [] ∈ branchLanguage branch → allNullable branch = true
  | [], _ => by rw [allNullable]
  | piece :: rest, nothing => by
    rw [branchLanguage] at nothing
    obtain ⟨here, there⟩ := nil_mem_mul nothing
    rw [allNullable, Piece.isNullable_of_nil here, allNullable_of_nil there]
    rfl

theorem anyNullable_of_nil : ∀ {root : Root}, [] ∈ anyLanguage root → anyNullable root = true
  | [], nothing => by
    rw [anyLanguage] at nothing
    exact absurd nothing (Language.notMem_zero [])
  | branch :: rest, nothing => by
    rw [anyLanguage] at nothing
    rw [anyNullable]
    rcases nothing with first | other
    · simp [allNullable_of_nil first]
    · simp [anyNullable_of_nil other]

end

end Regexp

end ByteAutomata
