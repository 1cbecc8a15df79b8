import ByteAutomata.Proofs.Checked
import ByteAutomata.Proofs.RuneSets
import ByteAutomata.Regexp.Reading

/-!
The names of rune sets.

A template is kept under the canonical name of a simplified set or under a property escape. Either name
tells the runes of its set, and no canonical name is an escape, so a name stands for one set of runes.
-/

namespace ByteAutomata

/-! ## Hexadecimal digits -/

/-- The value of an uppercase hexadecimal digit. -/
def hexDigitValue (digit : Char) : Nat :=
  if digit.toNat < 0x3A then digit.toNat - 0x30 else digit.toNat - 0x37

/-- The value of uppercase hexadecimal digits behind those of `value`. -/
def hexValueFrom (value : Nat) (digits : List Char) : Nat :=
  digits.foldl (fun value digit => value * 16 + hexDigitValue digit) value

theorem hexDigitValue_digitChar : ∀ digit < 16,
    hexDigitValue (Nat.digitChar digit).toUpper = digit := by decide

/-- No digit is a sign that stands in a name. -/
theorem digitChar_ne_sign : ∀ digit < 16,
    (Nat.digitChar digit).toUpper ∉ ['-', ',', Regexp.escape] := by decide

theorem hexValueFrom_toDigits (number : Nat) :
    hexValueFrom 0 ((Nat.toDigits 16 number).map Char.toUpper) = number := by
  induction number using Nat.strong_induction_on with
  | _ number ih =>
    by_cases small : number < 16
    · rw [Nat.toDigits_of_lt_base small]
      simp [hexValueFrom, hexDigitValue_digitChar number small]
    · have large := Nat.not_lt.mp small
      have smaller : number / 16 < number := by omega
      have earlier := ih (number / 16) smaller
      unfold hexValueFrom at earlier ⊢
      rw [Nat.toDigits_of_base_le (by decide) large, List.map_append, List.foldl_append, earlier]
      simp only [List.map_cons, List.map_nil, List.foldl_cons, List.foldl_nil]
      rw [hexDigitValue_digitChar _ (Nat.mod_lt number (by decide))]
      omega

theorem not_mem_toDigits {sign : Char} (listed : sign ∈ ['-', ',', Regexp.escape]) (number : Nat) :
    sign ∉ (Nat.toDigits 16 number).map Char.toUpper := by
  induction number using Nat.strong_induction_on with
  | _ number ih =>
    by_cases small : number < 16
    · rw [Nat.toDigits_of_lt_base small]
      intro here
      rw [List.map_cons, List.map_nil, List.mem_singleton] at here
      exact digitChar_ne_sign number small (here ▸ listed)
    · have smaller : number / 16 < number := by omega
      rw [Nat.toDigits_of_base_le (by decide) (Nat.not_lt.mp small), List.map_append]
      intro here
      rcases List.mem_append.mp here with early | late
      · exact ih _ smaller early
      · rw [List.map_cons, List.map_nil, List.mem_singleton] at late
        exact digitChar_ne_sign _ (Nat.mod_lt number (by decide)) (late ▸ listed)

/-- Lists are equal up to the first sign that is in neither of their beginnings. -/
theorem append_cons_cancel {sign : Char} {left right more others : List Char} (absent : sign ∉ left)
    (absentOther : sign ∉ right) (same : left ++ sign :: more = right ++ sign :: others) :
    left = right ∧ more = others := by
  induction left generalizing right with
  | nil =>
    cases right with
    | nil => exact ⟨rfl, (List.cons.inj same).2⟩
    | cons first rest =>
      exact absurd ((List.cons.inj same).1 ▸ List.mem_cons_self) absentOther
  | cons first rest ih =>
    cases right with
    | nil => exact absurd ((List.cons.inj same).1 ▸ List.mem_cons_self) absent
    | cons other rests =>
      obtain ⟨rfl, later⟩ := List.cons.inj same
      obtain ⟨rfl, behind⟩ := ih (fun listed => absent (List.mem_cons_of_mem _ listed))
        (fun listed => absentOther (List.mem_cons_of_mem _ listed)) later
      exact ⟨rfl, behind⟩

namespace RuneSet

theorem toList_hexCodePoint (rune : Char) : (hexCodePoint rune).toList =
    List.replicate (4 - ((Nat.toDigits 16 rune.toNat).map Char.toUpper).length) '0' ++
      (Nat.toDigits 16 rune.toNat).map Char.toUpper :=
  String.toList_ofList

theorem hexValueFrom_replicate (count : Nat) : hexValueFrom 0 (List.replicate count '0') = 0 := by
  induction count with
  | zero => rfl
  | succ count ih => exact ih

theorem hexCodePoint_injective : Function.Injective hexCodePoint := by
  intro left right same
  have value (rune : Char) : hexValueFrom 0 (hexCodePoint rune).toList = rune.toNat := by
    have padding := hexValueFrom_replicate (4 - ((Nat.toDigits 16 rune.toNat).map Char.toUpper).length)
    unfold hexValueFrom at padding
    rw [toList_hexCodePoint, hexValueFrom, List.foldl_append, padding]
    exact hexValueFrom_toDigits rune.toNat
  apply Char.toNat_inj.mp
  rw [← value left, ← value right, same]

theorem not_mem_hexCodePoint {sign : Char} (listed : sign ∈ ['-', ',', Regexp.escape]) (rune : Char) :
    sign ∉ (hexCodePoint rune).toList := by
  intro here
  rw [toList_hexCodePoint, List.mem_append] at here
  rcases here with padding | digit
  · have zero := List.eq_of_mem_replicate padding
    rw [zero] at listed
    exact absurd listed (by decide)
  · exact not_mem_toDigits listed _ digit

/-! ## Canonical names -/

/-- The characters of an interval in a canonical name. -/
def intervalName (interval : RuneInterval) : List Char :=
  (hexCodePoint interval.lo).toList ++ '-' :: (hexCodePoint interval.hi).toList

theorem intervalName_injective : Function.Injective intervalName := by
  intro left right same
  have dash (rune : Char) : '-' ∉ (hexCodePoint rune).toList := not_mem_hexCodePoint (by decide) rune
  obtain ⟨lows, highs⟩ := append_cons_cancel (dash left.lo) (dash right.lo) same
  have lo := hexCodePoint_injective (String.toList_injective lows)
  have hi := hexCodePoint_injective (String.toList_injective highs)
  cases left
  cases right
  exact congrArg₂ RuneInterval.mk lo hi

theorem not_mem_intervalName {sign : Char} (listed : sign ∈ [',', Regexp.escape])
    (interval : RuneInterval) : sign ∉ intervalName interval := by
  have other : sign ≠ '-' := by
    rintro rfl
    exact absurd listed (by decide)
  have known : sign ∈ ['-', ',', Regexp.escape] := List.mem_cons_of_mem _ listed
  simp [intervalName, not_mem_hexCodePoint known, other]

theorem toList_canonicalName (set : RuneSet) :
    set.canonicalName.toList = [','].intercalate (set.map intervalName) := by
  have ends (interval : RuneInterval) :
      (hexCodePoint interval.lo ++ "-" ++ hexCodePoint interval.hi).toList = intervalName interval := by
    simp [intervalName]
  have comma : ",".toList = [','] := by simp
  unfold canonicalName
  rw [String.toList_intercalate, List.map_map, comma]
  exact congrArg _ (List.map_congr_left fun interval _ => ends interval)

/-- Names without commas can be told apart when they stand in a row with commas between them. -/
theorem map_intervalName_eq (left right : RuneSet)
    (same : [','].intercalate (left.map intervalName) = [','].intercalate (right.map intervalName)) :
    left = right := by
  have comma (interval : RuneInterval) : ',' ∉ intervalName interval :=
    not_mem_intervalName (by decide) interval
  have filled (interval : RuneInterval) : intervalName interval ≠ [] := by
    simp [intervalName]
  induction left generalizing right with
  | nil =>
    cases right with
    | nil => rfl
    | cons interval rest =>
      cases rest <;> simp_all [List.intercalate_cons_cons]
  | cons first rest ih =>
    cases right with
    | nil => cases rest <;> simp_all [List.intercalate_cons_cons]
    | cons other more =>
      cases rest with
      | nil =>
        cases more with
        | nil => simpa [intervalName_injective.eq_iff] using same
        | cons second more =>
          simp only [List.map_cons, List.map_nil, List.intercalate_singleton,
            List.intercalate_cons_cons] at same
          exact absurd (same ▸ by simp : ',' ∈ intervalName first) (comma first)
      | cons second rest =>
        cases more with
        | nil =>
          simp only [List.map_cons, List.map_nil, List.intercalate_singleton,
            List.intercalate_cons_cons] at same
          exact absurd (same ▸ by simp : ',' ∈ intervalName other) (comma other)
        | cons third more =>
          simp only [List.map_cons, List.intercalate_cons_cons, List.append_assoc,
            List.singleton_append] at same
          obtain ⟨here, later⟩ := append_cons_cancel (comma first) (comma other) same
          rw [intervalName_injective here, ih (third :: more) later]

theorem canonicalName_injective : Function.Injective canonicalName := by
  intro left right same
  apply map_intervalName_eq
  rw [← toList_canonicalName, ← toList_canonicalName, same]

theorem not_mem_canonicalName (set : RuneSet) : Regexp.escape ∉ set.canonicalName.toList := by
  rw [toList_canonicalName]
  induction set with
  | nil => simp
  | cons interval rest ih =>
    cases rest with
    | nil => simpa using not_mem_intervalName (by decide) interval
    | cons other rest =>
      have here : Regexp.escape ∉ intervalName interval := not_mem_intervalName (by decide) interval
      simp only [List.map_cons, List.intercalate_cons_cons, List.mem_append, not_or] at ih ⊢
      exact ⟨⟨here, by decide⟩, ih⟩

end RuneSet

/-! ## Property escapes -/

variable [Unicode.Database]

namespace Regexp

/-- The escape names the set of a property. -/
def IsProperty (name : String) (set : RuneSet) : Prop :=
  ∃ negated cursor behind, readProperty negated cursor = .ok ((name, set), behind)

theorem readProperty_eq {negated : Bool} {cursor behind : Cursor} {name : String} {set : RuneSet}
    (read : readProperty negated cursor = .ok ((name, set), behind)) :
    ∃ runes found, Unicode.property? (String.ofList runes) = some found ∧
      name = String.ofList ([escape, if negated then 'P' else 'p', '\x7b'] ++ runes ++ ['\x7d']) ∧
      set = if negated then found.invert else found := by
  unfold readProperty at read
  obtain ⟨start, _, read⟩ := Checked.exists_of_bind_eq_ok read
  obtain ⟨⟨runes, after⟩, _, read⟩ := Checked.exists_of_bind_eq_ok read
  by_cases none : runes.isEmpty
  · simp only [none, ↓reduceIte] at read
    cases read
  · simp only [none, Bool.false_eq_true, ↓reduceIte] at read
    cases known : Unicode.property? (String.ofList runes) with
    | none =>
      rw [known] at read
      cases read
    | some found =>
      rw [known] at read
      cases read
      exact ⟨runes, found, known, rfl, rfl⟩

/-- An escape names one set. -/
theorem IsProperty.unique {name : String} {first second : RuneSet} (left : IsProperty name first)
    (right : IsProperty name second) : first = second := by
  obtain ⟨negated, _, _, read⟩ := left
  obtain ⟨other, _, _, readOther⟩ := right
  obtain ⟨runes, found, known, rfl, rfl⟩ := readProperty_eq read
  obtain ⟨more, foundOther, knownOther, same, rfl⟩ := readProperty_eq readOther
  have letters := String.ofList_injective same
  simp only [List.cons_append, List.nil_append, List.cons.injEq, true_and] at letters
  obtain ⟨marks, names⟩ := letters
  have sameRunes : runes = more := List.append_cancel_right names
  have sameMark : negated = other := by
    cases negated <;> cases other <;> simp_all
  rw [sameRunes, knownOther, Option.some.injEq] at known
  rw [known, sameMark]

/-- A property escape is not a canonical name. -/
theorem IsProperty.ne_canonicalName {name : String} {set : RuneSet} (property : IsProperty name set)
    (other : RuneSet) : name ≠ other.canonicalName := by
  obtain ⟨negated, _, _, read⟩ := property
  obtain ⟨runes, found, _, rfl, _⟩ := readProperty_eq read
  intro same
  have absent := other.not_mem_canonicalName
  rw [← same, String.toList_ofList] at absent
  exact absent List.mem_cons_self

end Regexp

/-- The name under which the template of a set may be kept. -/
inductive RuneSet.Named (set : RuneSet) : String → Prop
  | canonical : Named set set.simplify.canonicalName
  | property {name : String} : Regexp.IsProperty name set → Named set name

/-- Sets of one name are simplified to the same intervals. -/
theorem RuneSet.Named.simplify_eq {first second : RuneSet} {name : String} (left : first.Named name)
    (right : second.Named name) : first.simplify = second.simplify := by
  cases left with
  | canonical =>
    generalize named : first.simplify.canonicalName = name at right
    cases right with
    | canonical => exact canonicalName_injective named
    | property escape => exact absurd named.symm (escape.ne_canonicalName _)
  | property escape =>
    cases right with
    | canonical => exact absurd rfl (escape.ne_canonicalName _)
    | property other => rw [escape.unique other]

end ByteAutomata
