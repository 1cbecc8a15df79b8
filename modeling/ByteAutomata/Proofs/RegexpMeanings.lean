import ByteAutomata.Proofs.RegexpFragments
import ByteAutomata.Proofs.RegexpReading

/-!
Compiled regexps report what regexps mean.

A tree that was read from a text has its bounds in order and the sets of its properties. What is compiled from
such a tree reports on the values that the tree denotes and on no others.
-/

namespace ByteAutomata.Regexp

open Arena Compile
open scoped Computability

/-! ## Trees of texts -/

mutual

/-- No greatest number of repetitions in the atom lies below the least one. -/
def Atom.Ordered : Atom → Prop
  | .group root => rootOrdered root
  | _ => True

def Piece.Ordered : Piece → Prop
  | .mk atom least most => (∀ bound ∈ most, least ≤ bound) ∧ atom.Ordered

def branchOrdered : Branch → Prop
  | [] => True
  | piece :: rest => piece.Ordered ∧ branchOrdered rest

def rootOrdered : Root → Prop
  | [] => True
  | branch :: rest => branchOrdered branch ∧ rootOrdered rest

end

variable {caret : Prop} {text middle rest : List Char} {atom : Atom} {piece : Piece} {root : Root}
  {marks : List Lookaround}

theorem Quantifier.ordered {least : Nat} {most : Option Nat} (quantifier : Quantifier text least most rest) :
    ∀ bound ∈ most, least ≤ bound := by
  intro bound held
  cases quantifier with
  | star => cases held
  | plus => cases held
  | optional => exact Nat.zero_le _
  | exactly _ => exact (Option.some.inj held).le
  | atLeast _ => cases held
  | between _ _ order => exact Option.some.inj held ▸ order

theorem Repeated.exists_eq (behind : Repeated atom text piece rest) :
    ∃ least most, piece = .mk atom least most ∧ ∀ bound ∈ most, least ≤ bound := by
  cases behind with
  | once => exact ⟨1, some 1, rfl, fun bound held => (Option.some.inj held).le⟩
  | quantified quantifier => exact ⟨_, _, rfl, quantifier.ordered⟩
  | lazily quantifier => exact ⟨_, _, rfl, quantifier.ordered⟩

section

variable [Unicode.Database]

theorem isProperty_named {name : String} {set : RuneSet} (property : IsProperty name set) :
    set.Named ((some name).getD set.simplify.canonicalName) := .property property

theorem PropertyEscape.isProperty {name : String} {set : RuneSet} (escaped : PropertyEscape text name set rest) :
    IsProperty name set := by
  obtain ⟨mark, more, rfl⟩ := escaped.begins
  obtain ⟨_, after, read⟩ := readProperty_of_escape escaped 0
  exact ⟨_, _, _, read⟩

theorem PlainAtom.wellFormed (plain : PlainAtom caret text atom rest) :
    atom.Ordered ∧ ∀ property ∈ atom.properties, IsProperty property.1 property.2 := by
  cases plain with
  | property escaped =>
    refine ⟨by trivial, fun property listed => ?_⟩
    obtain rfl := List.mem_singleton.mp listed
    exact escaped.isProperty
  | _ => exact ⟨by trivial, fun property listed => nomatch listed⟩

/-- Trees of regexps have their bounds in order and the sets of their properties. -/
theorem RootText.wellFormed (roots : RootText caret text root marks rest) :
    rootOrdered root ∧ Resolved root := by
  refine RootText.induction
    (fun _ piece _ _ => piece.Ordered ∧ ∀ property ∈ piece.properties, IsProperty property.1 property.2)
    (fun _ branch _ _ => branchOrdered branch ∧
      ∀ property ∈ branchProperties branch, IsProperty property.1 property.2)
    (fun _ root _ _ => rootOrdered root ∧ Resolved root)
    ?plain ?group ?empty ?piece ?branch ?choice roots
  case plain =>
    intro _ _ _ atom _ plain behind
    obtain ⟨least, most, rfl, order⟩ := behind.exists_eq
    obtain ⟨ordered, listed⟩ := plain.wellFormed
    rw [Piece.Ordered, Piece.properties]
    exact ⟨⟨order, ordered⟩, listed⟩
  case group =>
    intro _ _ _ _ _ root _ _ _ _ behind inner
    obtain ⟨least, most, rfl, order⟩ := behind.exists_eq
    rw [Piece.Ordered, Piece.properties, Atom.Ordered, Atom.properties]
    exact ⟨⟨order, inner.1⟩, inner.2⟩
  case empty =>
    intro _
    rw [branchOrdered, branchProperties]
    exact ⟨trivial, fun _ listed => nomatch listed⟩
  case piece =>
    intro _ _ _ _ _ _ _ _ here there
    rw [branchOrdered, branchProperties, List.forall_mem_append]
    exact ⟨⟨here.1, there.1⟩, here.2, there.2⟩
  case branch =>
    intro _ _ branch _ here
    rw [rootOrdered, rootOrdered, Resolved, rootProperties, rootProperties, List.append_nil]
    exact ⟨⟨here.1, trivial⟩, here.2⟩
  case choice =>
    intro _ _ _ _ _ _ _ _ here there
    rw [rootOrdered, Resolved, rootProperties, List.forall_mem_append]
    exact ⟨⟨here.1, there.1⟩, here.2, there.2⟩

theorem wellFormed_of_text {text : String} (parsed : ofText text = .ok root) :
    rootOrdered root ∧ Resolved root := by
  cases derives_of_ofText parsed with
  | empty =>
    rw [rootOrdered, Resolved, rootProperties]
    exact ⟨trivial, fun _ listed => nomatch listed⟩
  | whole _ roots => exact roots.wellFormed

end

/-! ## Trees -/

variable {config : Config}

/-- Nothing is repeated without limit that counts as nullable. -/
theorem not_isNullable_of_checkBounds {least : Nat}
    (checked : checkBounds config (.mk atom least none) = .ok ()) : ¬ atom.isNullable := by
  intro nullable
  unfold checkBounds at checked
  simp only [Piece.most, Piece.atom, nullable, ↓reduceIte] at checked
  split at checked <;> cases checked

theorem nil_not_mem_of_checkBounds {least : Nat} (checked : checkBounds config (.mk atom least none) = .ok ()) :
    [] ∉ encoded atom.language := by
  rw [nil_mem_encoded]
  intro nothing
  exact not_isNullable_of_checkBounds checked (Atom.isNullable_of_nil nothing)

section

variable [Unicode.Database]

mutual

theorem Atom.reads (config : Config) : ∀ atom : Atom, atom.Ordered →
    (∀ property ∈ atom.properties, IsProperty property.1 property.2) →
    Compile.Reads ((atom.plan config).build config) (encoded atom.language)
  | .dot, _, _ => by
    rw [Atom.plan, Atom.language, encoded_runeLanguage]
    exact .anyRune
  | .runes set, _, _ => by
    rw [Atom.plan, Atom.language, encoded_runeLanguage]
    exact .runes config .canonical
  | .group root, ordered, listed => by
    rw [Atom.plan, Atom.language]
    rw [Atom.Ordered] at ordered
    rw [Atom.properties] at listed
    exact root_reads config root ordered listed
  | .property name set, _, listed => by
    rw [Atom.plan, Atom.language, encoded_runeLanguage]
    rw [Atom.properties] at listed
    have property := listed (name, set) (List.mem_singleton_self _)
    exact .runes config (isProperty_named property)

theorem Piece.reads (config : Config) : ∀ piece : Piece, piece.Ordered →
    (∀ property ∈ piece.properties, IsProperty property.1 property.2) →
    Compile.Reads ((piece.plan config).build config) (encoded piece.language)
  | .mk atom least most, ordered, listed => by
    rw [Piece.Ordered] at ordered
    rw [Piece.properties] at listed
    have body := Atom.reads config atom ordered.2 listed
    rw [Piece.plan, Piece.language, encoded_repeated]
    by_cases single : (Piece.mk atom least most).isSingleton
    · obtain ⟨rfl, rfl⟩ : least = 1 ∧ most = some 1 := by simpa [Piece.isSingleton, Piece.least, Piece.most] using single
      rw [if_pos single, repeated_exactly, pow_one]
      exact body
    rw [if_neg single]
    by_cases absent : most = some 0
    · subst absent
      obtain rfl : least = 0 := Nat.le_zero.mp (ordered.1 0 rfl)
      rw [if_pos rfl, repeated_exactly, pow_zero]
      exact .pure
    rw [if_neg absent]
    cases checked : checkBounds config (.mk atom least most) with
    | error error => exact .throw error _
    | ok _ =>
      dsimp only
      by_cases once : (Piece.mk atom least most).isOptional
      · obtain ⟨rfl, rfl⟩ : least = 0 ∧ most = some 1 := by simpa [Piece.isOptional, Piece.least, Piece.most] using once
        rw [if_pos once, repeated_succ, repeated_exactly, pow_zero, mul_one]
        exact body.optional
      rw [if_neg once]
      by_cases star : (Piece.mk atom least most).isStar
      · obtain ⟨rfl, rfl⟩ : least = 0 ∧ most = none := by simpa [Piece.isStar, Piece.least, Piece.most] using star
        rw [if_pos star, repeated_star]
        exact body.loop (nil_not_mem_of_checkBounds checked)
      rw [if_neg star, repeated_eq_pow_mul _ ordered.1]
      by_cases plus : (Piece.mk atom least most).isPlus
      · obtain ⟨rfl, rfl⟩ : least = 1 ∧ most = none := by simpa [Piece.isPlus, Piece.least, Piece.most] using plus
        rw [if_pos plus, pow_one, Option.map_none, repeated_star]
        exact body.loopAtLeastOnce (nil_not_mem_of_checkBounds checked)
      rw [if_neg plus]
      refine body.copies least _ fun unlimited => ?_
      obtain rfl : most = none := Option.map_eq_none_iff.mp unlimited
      exact nil_not_mem_of_checkBounds checked

theorem branch_reads (config : Config) : ∀ branch : Branch, branchOrdered branch →
    (∀ property ∈ branchProperties branch, IsProperty property.1 property.2) →
    Compile.Reads ((branchPlan config branch).build config) (encoded (branchLanguage branch))
  | [], _, _ => by
    rw [branchPlan, branchLanguage, map_one]
    exact .pure
  | piece :: rest, ordered, listed => by
    rw [branchOrdered] at ordered
    rw [branchProperties, List.forall_mem_append] at listed
    rw [branchPlan, branchLanguage, map_mul]
    exact (branch_reads config rest ordered.2 listed.2).chain (Piece.reads config piece ordered.1 listed.1)

theorem joined_reads (config : Config) : ∀ (root : Root) (joined : Plan) (words : Language UInt8),
    rootOrdered root → (∀ property ∈ rootProperties root, IsProperty property.1 property.2) →
    Compile.Reads (joined.build config) words →
    Compile.Reads ((joinedPlan config root joined).build config) (words + encoded (anyLanguage root))
  | [], joined, words, _, _, reads => by
    rw [joinedPlan, anyLanguage, map_zero, add_zero]
    exact reads
  | branch :: rest, joined, words, ordered, listed, reads => by
    rw [rootOrdered] at ordered
    rw [rootProperties, List.forall_mem_append] at listed
    rw [joinedPlan, anyLanguage, map_add, ← add_assoc]
    exact joined_reads config rest _ _ ordered.2 listed.2
      (reads.either (branch_reads config branch ordered.1 listed.1))

theorem root_reads (config : Config) : ∀ root : Root, rootOrdered root →
    (∀ property ∈ rootProperties root, IsProperty property.1 property.2) →
    Compile.Reads ((rootPlan config root).build config) (encoded (rootLanguage root))
  | [], _, _ => by
    rw [rootPlan, rootLanguage, map_one]
    exact .pure
  | branch :: rest, ordered, listed => by
    rw [rootOrdered] at ordered
    rw [rootProperties, List.forall_mem_append] at listed
    rw [rootPlan, rootLanguage, map_add]
    exact joined_reads config rest _ _ ordered.2 listed.2 (branch_reads config branch ordered.1 listed.1)

end

end

/-! ## Values -/

/-- A value as it stands in a document: within a field it has quotes. -/
def fieldValue (quoted : Bool) (value : List UInt8) : List UInt8 :=
  if quoted then 0x22 :: (value ++ [0x22]) else value

theorem mem_mul_letter {byte : UInt8} {words : Language UInt8} {bytes : List UInt8} :
    bytes ∈ words * {[byte]} ↔ ∃ front ∈ words, bytes = front ++ [byte] := by
  rw [Language.mem_mul]
  constructor
  · rintro ⟨front, member, _, rfl, same⟩
    exact ⟨front, member, same.symm⟩
  · rintro ⟨front, member, same⟩
    exact ⟨front, member, [byte], rfl, same.symm⟩

theorem mem_letter_mul {byte : UInt8} {words : Language UInt8} {bytes : List UInt8} :
    bytes ∈ ({[byte]} : Language UInt8) * words ↔ ∃ rest ∈ words, bytes = byte :: rest := by
  rw [Language.mem_mul]
  constructor
  · rintro ⟨_, rfl, rest, member, same⟩
    exact ⟨rest, member, same.symm⟩
  · rintro ⟨rest, member, same⟩
    exact ⟨[byte], rfl, rest, member, same.symm⟩

/-- The bytes of what the tree denotes, as they stand in a document, with a terminator behind them. -/
def valueWords (root : Root) (quoted : Bool) : Language UInt8 :=
  {bytes | ∃ text ∈ rootLanguage root, bytes = terminated (fieldValue quoted (Utf8.encode text))}

theorem valueWords_unquoted (root : Root) :
    valueWords root false = encoded (rootLanguage root) * {[valueTerminator]} := by
  ext bytes
  rw [mem_mul_letter]
  constructor
  · rintro ⟨text, member, same⟩
    exact ⟨_, ⟨text, member, rfl⟩, same⟩
  · rintro ⟨_, ⟨text, member, rfl⟩, same⟩
    exact ⟨text, member, same⟩

theorem valueWords_quoted (root : Root) :
    valueWords root true = {[0x22]} * encoded (rootLanguage root) * {[0x22]} * {[valueTerminator]} := by
  ext bytes
  rw [mem_mul_letter]
  simp only [mem_mul_letter, mem_letter_mul]
  constructor
  · rintro ⟨text, member, same⟩
    exact ⟨_, ⟨_, ⟨_, ⟨text, member, rfl⟩, rfl⟩, rfl⟩, same⟩
  · rintro ⟨_, ⟨_, ⟨_, ⟨text, member, rfl⟩, rfl⟩, rfl⟩, same⟩
    exact ⟨text, member, same⟩

/-- What a regexp is compiled to reads the values that the tree denotes. -/
theorem compile_reads [Unicode.Database] (config : Config) (quoted : Bool) (ordered : rootOrdered root)
    (resolved : Resolved root) : Compile.Reads (compile config root quoted) (valueWords root quoted) := by
  by_cases excess : config.maxExpansion < rootExpansion root
  · have refused := funext fun next => compile_of_excess excess quoted next
    exact refused ▸ .throw _ _
  have plan := root_reads config root ordered resolved
  have terminator : Compile.Reads (pushSingle valueTerminator) {[valueTerminator]} := .single (by decide)
  have quote : Compile.Reads (pushSingle 0x22) {[0x22]} := .single (by decide)
  have built := funext fun next => compile_of_within excess quoted next
  cases quoted with
  | false =>
    rw [valueWords_unquoted, built]
    exact terminator.chain plan
  | true =>
    rw [valueWords_quoted, built]
    exact terminator.chain (quote.chain (plan.chain quote))

/-- A value that has no terminator in it is all that can stand in front of the terminator behind it. -/
theorem terminated_prefix_iff {value other : List UInt8} (below : ∀ byte ∈ value, byte < valueTerminator) :
    terminated other <+: terminated value ↔ value = other := by
  rw [terminated, terminated, List.prefix_concat_iff]
  constructor
  · rintro (same | ⟨rest, same⟩)
    · exact (List.append_cancel_right same).symm
    · have listed : valueTerminator ∈ value := by
        rw [← same]
        simp
      exact absurd (below _ listed) (UInt8.lt_irrefl _)
  · rintro rfl
    exact Or.inl rfl

/-- A state that only reports accepts where nothing is left to read. -/
theorem accepted_match {arena : Arena} {next : StateId} {x : Continuation}
    (reporting : arena.get? next = some { continuations := [x] }) : arena.accepted x next = 1 := by
  ext read
  rw [mem_accepted, yields_iff reporting, Language.mem_one]
  cases read with
  | nil => simp [State.Accepts]
  | cons byte rest =>
    rw [State.accepts_cons_of_silent rfl, Table.lookup_empty]
    have nowhere : Table.empty.spinout = none := rfl
    simp [nowhere, Target.not_accepts_none]

/-- In front of a state that reports, what is built from a text's tree reports on the values that the tree
denotes and on no others. -/
theorem compile_reports_iff [Unicode.Database] {text : String} (parsed : ofText text = .ok root) (config : Config)
    {cache : TemplateCache} (filled : cache.FilledBy fun other => ∃ source, ofText source = .ok other)
    {arena : Arena} (formed : arena.WellFormed) {next : StateId} {x : Continuation}
    (reporting : arena.get? next = some { continuations := [x] }) (quoted : Bool) {entry : Target}
    {after : Workshop}
    (compiled : (compile config root quoted (some next)).runIn { arena, cache } = .ok (.ok entry, after))
    (value : List UInt8) (below : ∀ byte ∈ value, byte < valueTerminator) :
    ∃ found, (Automaton.ofUnion after.arena entry).matched value = .ok found ∧
      (x ∈ found ↔ ∃ runes ∈ rootLanguage root, value = fieldValue quoted (Utf8.encode runes)) := by
  obtain ⟨ordered, resolved⟩ := wellFormed_of_text parsed
  have honest : cache.Honest := filled.holds (fun _ => .canonical) fun _ other property listed => by
    obtain ⟨_, parsedOther⟩ := other
    exact .property ((wellFormed_of_text parsedOther).2 property listed)
  obtain ⟨_, start, rfl, fragment⟩ := compile_reads config quoted ordered resolved { arena, cache } after next entry
    formed honest (lt_size_of_get? reporting) compiled
  have stays : after.arena.get? next = some { continuations := [x] } :=
    (fragment.extends_.kept next fragment.goal).trans reporting
  have words : after.arena.accepted x start = valueWords root quoted := by
    rw [fragment.reads after.arena (fragment.formed.keptIn _) x, accepted_match stays, mul_one]
  have within : after.arena.TargetWithin (some start) := fun id same => Option.some.inj same ▸ fragment.inside
  obtain ⟨found, ran, _, reports⟩ := Automaton.matched_ofUnion fragment.formed within value
  refine ⟨found, ran, ?_⟩
  rw [reports, reports_iff_accepts]
  simp only [Target.accepts_some, ← mem_accepted, words]
  constructor
  · rintro ⟨_, front, runes, member, rfl⟩
    exact ⟨runes, member, (terminated_prefix_iff below).mp front⟩
  · rintro ⟨runes, member, same⟩
    exact ⟨_, (terminated_prefix_iff below).mpr same, runes, member, rfl⟩

/-- A compilation that is seen to end well has built something. -/
theorem exists_of_isSome {ran : Checked (Except PatternError Target × Workshop)}
    (succeeds : (ran.toOption.bind fun ended => ended.1.toOption).isSome = true) :
    ∃ entry after, ran = .ok (.ok entry, after) := by
  rcases ran with fault | ⟨error | entry, after⟩
  · cases succeeds
  · cases succeeds
  · exact ⟨entry, after, rfl⟩

/-- Within a field, two of the rune that has to stand there at least once. -/
theorem compile_reports_iff_repeated :
    ofText "a+" = .ok [[.mk (.runes [.single 'a']) 1 none]] ∧
      ∃ entry after found,
        (compile {} [[.mk (.runes [.single 'a']) 1 none]] true (some 0)).runIn { arena := matchState 7 } =
          .ok (.ok entry, after) ∧
        (Automaton.ofUnion after.arena entry).matched [0x22, 0x61, 0x61, 0x22] = .ok found ∧ 7 ∈ found := by
  have parsed : ofText "a+" = .ok [[.mk (.runes [.single 'a']) 1 none]] := rfl
  obtain ⟨entry, after, compiled⟩ : ∃ entry after,
      (compile {} [[.mk (.runes [.single 'a']) 1 none]] true (some 0)).runIn { arena := matchState 7 } =
        .ok (.ok entry, after) := exists_of_isSome (by decide +kernel)
  obtain ⟨found, ran, reports⟩ := compile_reports_iff parsed {} .empty (wellFormed_matchState 7) rfl true compiled
    [0x22, 0x61, 0x61, 0x22] (by simp [valueTerminator])
  refine ⟨parsed, entry, after, found, compiled, ran, reports.mpr ⟨['a', 'a'], ?_, rfl⟩⟩
  have rune : ['a'] ∈ runeLanguage (RuneSet.Contains [.single 'a']) :=
    ⟨'a', ⟨.single 'a', List.mem_singleton_self _, by decide⟩, rfl⟩
  simp only [rootLanguage, branchLanguage, anyLanguage, Piece.language, Atom.language, mul_one, add_zero]
  exact ⟨2, by decide, by simp, Language.mem_pow.mpr ⟨[['a'], ['a']], rfl, rfl, by simpa using rune⟩⟩

end ByteAutomata.Regexp
