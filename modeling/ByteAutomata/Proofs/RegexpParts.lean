import ByteAutomata.Proofs.Checked
import ByteAutomata.Proofs.UnicodeLaws
import ByteAutomata.Proofs.RegexpGrammar

/-!
Reading the parts of a regexp.

Each reader reads what the grammar derives: what it returns is derived with the text that it leaves, and
what can be derived is read, in some cases only if the rest of the text cannot be taken for more of the same
part.
-/

namespace ByteAutomata.Regexp

variable {text middle rest : List Char} {rune lo hi : Char} {set more : RuneSet} {cursor behind start : Cursor}

/-! ## Single runes -/

namespace Cursor

theorem next_eq_ok {fault : SyntaxFault} (read : cursor.next fault = .ok (rune, behind)) :
    cursor.rest = rune :: behind.rest := by
  obtain ⟨rest, offset⟩ := cursor
  cases rest with
  | nil => cases read
  | cons first rest =>
    cases read
    rfl

theorem require_eq_ok {wanted : Char} (read : cursor.require wanted = .ok behind) :
    cursor.rest = wanted :: behind.rest := by
  obtain ⟨rest, offset⟩ := cursor
  cases rest with
  | nil => cases read
  | cons first rest =>
    simp only [require] at read
    split at read
    · rename_i same
      cases read
      exact same ▸ rfl
    · cases read

@[simp]
theorem skip_cons (rune : Char) (rest : List Char) (offset : Nat) :
    Cursor.skip ⟨rune :: rest, offset⟩ rune = ⟨rest, offset + rune.utf8Size⟩ := by
  simp [skip, Cursor.behind]

theorem skip_of_ne (other : cursor.rest.head? ≠ some rune) : cursor.skip rune = cursor := by
  obtain ⟨rest, offset⟩ := cursor
  cases rest with
  | nil => rfl
  | cons first rest =>
    have different : first ≠ rune := by simpa using other
    simp [skip, different]

/-- The offset tells whether a rune was skipped. -/
theorem skip_cases (cursor : Cursor) (rune : Char) :
    (cursor.skip rune = cursor ∧ cursor.rest.head? ≠ some rune) ∨
      (cursor.rest = rune :: (cursor.skip rune).rest ∧ (cursor.skip rune).offset ≠ cursor.offset) := by
  by_cases begins : cursor.rest.head? = some rune
  · obtain ⟨rest, offset⟩ := cursor
    obtain ⟨rest, rfl⟩ := List.head?_eq_some_iff.mp begins
    have wide := rune.utf8Size_pos
    refine Or.inr ⟨by rw [skip_cons], ?_⟩
    rw [skip_cons]
    simp only
    omega
  · exact Or.inl ⟨skip_of_ne begins, begins⟩

theorem after?_eq_some {wanted : List Char} (found : cursor.after? wanted = some behind) :
    cursor.rest = wanted ++ behind.rest := by
  induction wanted generalizing cursor with
  | nil =>
    cases found
    rfl
  | cons first wanted ih =>
    obtain ⟨rest, offset⟩ := cursor
    cases rest with
    | nil => cases found
    | cons rune rest =>
      simp only [after?] at found
      split at found
      · rename_i same
        rw [same, List.cons_append, ← ih found]
        rfl
      · cases found

end Cursor

/-! ## Escapes -/

theorem mem_of_singleEscape {mark : Char} (known : singleEscape? mark = some rune) :
    mark ∈ ['n', 'r', 't'] ++ escapable := by
  unfold singleEscape? at known
  split_ifs at known with newline return_ tab listed
  · simp [newline]
  · simp [return_]
  · simp [tab]
  · exact List.mem_append_right _ (by simpa using listed)

theorem other_of_singleEscape {mark : Char} (known : singleEscape? mark = some rune) :
    classEscape? mark = none ∧ ¬ (mark = 'p' ∨ mark = 'P') := by
  have each : ∀ mark ∈ ['n', 'r', 't'] ++ escapable,
      (classEscape? mark).isNone = true ∧ ¬ (mark = 'p' ∨ mark = 'P') := by
    simp [escapable, classEscape?, escape]
  obtain ⟨none, other⟩ := each mark (mem_of_singleEscape known)
  exact ⟨Option.isNone_iff_eq_none.mp none, other⟩

theorem other_of_classEscape {mark : Char} (known : classEscape? mark = some set) :
    singleEscape? mark = none ∧ ¬ (mark = 'p' ∨ mark = 'P') := by
  unfold classEscape? at known
  split at known
  all_goals first | cases known; done | exact ⟨by decide, by decide⟩

/-! ## Runes and ranges of classes -/

theorem ClassRune.head (reads : ClassRune text rune rest) :
    ∃ first more, text = first :: more ∧ first ≠ '-' ∧ first ≠ ']' := by
  cases reads with
  | plain plain _ =>
    refine ⟨_, _, rfl, ?_, ?_⟩
    all_goals
      rintro rfl
      exact absurd plain (by decide)
  | escaped _ => exact ⟨_, _, rfl, by decide, by decide⟩

theorem ClassRune.length_lt (reads : ClassRune text rune rest) : rest.length < text.length := by
  cases reads with
  | plain _ _ => exact Nat.lt_succ_self _
  | escaped _ => exact Nat.lt_add_of_pos_right (Nat.zero_lt_succ 1)

theorem readRangeEnd_eq_ok (read : readRangeEnd lo start = .ok (set, behind)) :
    ((∃ rest, start.rest = ']' :: rest) ∧ behind = start ∧ set = [.single lo, .single '-']) ∨
      ∃ hi, ClassRune start.rest hi behind.rest ∧ lo ≤ hi ∧ set = [⟨lo, hi⟩] := by
  unfold readRangeEnd at read
  obtain ⟨⟨rune, cursor⟩, begun, read⟩ := Checked.exists_of_bind_eq_ok read
  have begins := Cursor.next_eq_ok begun
  by_cases closing : rune = ']'
  · simp only [closing, ↓reduceIte] at read
    cases read
    exact Or.inl ⟨⟨cursor.rest, closing ▸ begins⟩, rfl, rfl⟩
  simp only [closing, ↓reduceIte] at read
  right
  have ends {hi : Char} {last : Nat} {cursor : Cursor}
      (ended : (if hi < lo then throw ⟨.swappedRange lo hi, last⟩ else pure ([⟨lo, hi⟩], cursor) :
        Reads (RuneSet × Cursor)) = .ok (set, behind)) : lo ≤ hi ∧ set = [⟨lo, hi⟩] ∧ behind = cursor := by
    split at ended
    · cases ended
    · rename_i order
      cases ended
      exact ⟨Char.not_lt.mp order, rfl, rfl⟩
  split at read
  · rename_i marks
    obtain ⟨⟨mark, after⟩, marked, read⟩ := Checked.exists_of_bind_eq_ok read
    have behindMark := Cursor.next_eq_ok marked
    cases known : singleEscape? mark with
    | none =>
      simp only [known] at read
      cases read
    | some hi =>
      simp only [known] at read
      obtain ⟨order, rfl, rfl⟩ := ends read
      refine ⟨hi, ?_, order, rfl⟩
      rw [begins, marks, behindMark]
      exact .escaped known
  · rename_i other
    split at read
    · rename_i plain
      obtain ⟨order, rfl, rfl⟩ := ends read
      exact ⟨rune, begins ▸ .plain plain other, order, rfl⟩
    · cases read

theorem readRangeEnd_of_rune (reads : ClassRune text hi rest) (order : lo ≤ hi) (offset : Nat) :
    ∃ after, readRangeEnd lo ⟨text, offset⟩ = .ok ([⟨lo, hi⟩], ⟨rest, after⟩) := by
  have inOrder : ¬ hi < lo := Char.not_lt.mpr order
  cases reads with
  | plain plain other =>
    have open_ : hi ≠ ']' := by
      rintro rfl
      exact absurd plain (by decide)
    simp only [readRangeEnd, Cursor.next, bind, Except.bind, pure, Except.pure, open_, other, plain, inOrder,
      ↓reduceIte]
    exact ⟨_, rfl⟩
  | escaped known =>
    have open_ : escape ≠ ']' := by decide
    simp only [readRangeEnd, Cursor.next, Cursor.behind, bind, Except.bind, pure, Except.pure, open_, known,
      inOrder, ↓reduceIte]
    exact ⟨_, rfl⟩

theorem readRangeFrom_of_ne (other : cursor.rest.head? ≠ some '-') :
    readRangeFrom lo cursor = .ok ([.single lo], cursor) := by
  unfold readRangeFrom
  split
  · rename_i begins
    rw [begins] at other
    exact absurd rfl other
  · rfl

/-! ## Properties -/

theorem readPropertyName_eq_ok {runes name : List Char}
    (read : readPropertyName runes cursor = .ok (name, behind)) (whole : cursor.rest = runes) :
    runes = name ++ '\x7d' :: behind.rest := by
  induction runes generalizing cursor name with
  | nil => cases read
  | cons rune rest ih =>
    simp only [readPropertyName] at read
    split at read
    · rename_i closing
      cases read
      rw [closing]
      rfl
    · split at read
      · obtain ⟨⟨more, after⟩, later, read⟩ := Checked.exists_of_bind_eq_ok read
        cases read
        rw [List.cons_append, ← ih later rfl]
      · cases read

theorem readPropertyName_of_known {name : List Char} (proper : name.all Unicode.isNameRune = true)
    (rest : List Char) (cursor : Cursor) :
    ∃ after, readPropertyName (name ++ '\x7d' :: rest) cursor = .ok (name, ⟨rest, after⟩) := by
  induction name generalizing cursor with
  | nil => exact ⟨_, rfl⟩
  | cons rune name ih =>
    rw [List.all_cons, Bool.and_eq_true] at proper
    obtain ⟨here, later⟩ := proper
    have open_ : rune ≠ '\x7d' := by
      rintro rfl
      exact absurd here (by decide)
    obtain ⟨after, read⟩ := ih later (cursor.behind rune (name ++ '\x7d' :: rest))
    have plain : (rune.isAlphanum || rune == '-') = true := here
    refine ⟨after, ?_⟩
    simp only [List.cons_append, readPropertyName, open_, plain, ↓reduceIte, read, bind, Except.bind]
    rfl

variable [Unicode.Database]

theorem readProperty_eq_ok {negated : Bool} {name : String}
    (read : readProperty negated cursor = .ok ((name, set), behind)) :
    PropertyEscape (escape :: propertyMarker negated :: cursor.rest) name set behind.rest := by
  unfold readProperty at read
  obtain ⟨start, opened, read⟩ := Checked.exists_of_bind_eq_ok read
  obtain ⟨⟨runes, after⟩, named, read⟩ := Checked.exists_of_bind_eq_ok read
  rw [Cursor.require_eq_ok opened, readPropertyName_eq_ok named rfl]
  by_cases none : runes.isEmpty
  · simp only [none, ↓reduceIte] at read
    cases read
  · simp only [none, Bool.false_eq_true, ↓reduceIte] at read
    cases known : Unicode.property? (String.ofList runes) with
    | none =>
      rw [known] at read
      cases read
    | some found =>
      rw [known] at read
      cases read
      exact .known known

theorem readProperty_of_escape {mark : Char} {name : String}
    (escaped : PropertyEscape (escape :: mark :: text) name set rest) (offset : Nat) :
    (mark = 'p' ∨ mark = 'P') ∧
      ∃ after, readProperty (mark == 'P') ⟨text, offset⟩ = .ok ((name, set), ⟨rest, after⟩) := by
  cases escaped with
  | @known negated name set rest known =>
    obtain ⟨some_, proper⟩ := Unicode.isNameRune_of_property known
    rw [String.toList_ofList] at some_ proper
    have marks : (propertyMarker negated == 'P') = negated := by cases negated <;> rfl
    refine ⟨by cases negated <;> simp [propertyMarker], ?_⟩
    obtain ⟨after, read⟩ := readPropertyName_of_known proper rest
      (Cursor.behind ⟨'\x7b' :: (name ++ '\x7d' :: rest), offset⟩ '\x7b' (name ++ '\x7d' :: rest))
    refine ⟨after, ?_⟩
    have opened : Cursor.require ⟨'\x7b' :: (name ++ '\x7d' :: rest), offset⟩ '\x7b' =
      .ok (Cursor.behind ⟨'\x7b' :: (name ++ '\x7d' :: rest), offset⟩ '\x7b' (name ++ '\x7d' :: rest)) := rfl
    have filled : name.isEmpty = false := List.isEmpty_eq_false_iff.mpr some_
    rw [marks]
    simp only [readProperty, opened, bind, Except.bind, Cursor.behind] at read ⊢
    simp only [read, filled, Bool.false_eq_true, ↓reduceIte, known]
    rfl

theorem PropertyEscape.begins {name : String} (escaped : PropertyEscape text name set rest) :
    ∃ mark more, text = escape :: mark :: more := by
  cases escaped
  exact ⟨_, _, rfl⟩

/-! ## Elements of classes -/

theorem ClassElement.head (reads : ClassElement text set rest) :
    ∃ first more, text = first :: more ∧ first ≠ '-' ∧ first ≠ ']' := by
  cases reads with
  | rune reads => exact reads.head
  | range reads _ _ => exact reads.head
  | escaped _ => exact ⟨_, _, rfl, by decide, by decide⟩
  | property escaped =>
    obtain ⟨mark, more, rfl⟩ := escaped.begins
    exact ⟨_, _, rfl, by decide, by decide⟩

theorem ClassElement.length_lt (reads : ClassElement text set rest) : rest.length < text.length := by
  cases reads with
  | rune reads => exact reads.length_lt
  | range low high _ =>
    have first := low.length_lt
    have second := high.length_lt
    rw [List.length_cons] at first
    omega
  | escaped _ => exact Nat.lt_add_of_pos_right (Nat.zero_lt_succ 1)
  | property escaped =>
    cases escaped
    simp only [List.length_cons, List.length_append]
    omega

/-- A rune of a class in front of what may make it a range: it is an element, or the last but for a `-`. -/
theorem readRangeFrom_eq_ok (reads : ClassRune text lo start.rest)
    (read : readRangeFrom lo start = .ok (set, behind)) :
    ClassElement text set behind.rest ∨
      ∃ rest, ClassElement text [.single lo] ('-' :: ']' :: rest) ∧ behind.rest = ']' :: rest ∧
        set = [.single lo] ++ [.single '-'] := by
  unfold readRangeFrom at read
  split at read
  · rename_i middle begins
    rw [begins] at reads
    rcases readRangeEnd_eq_ok read with ⟨⟨rest, closing⟩, same, whole⟩ | ⟨hi, ended, order, whole⟩
    · right
      have closing : middle = ']' :: rest := closing
      refine ⟨rest, .rune (closing ▸ reads), ?_, whole⟩
      rw [same]
      exact closing
    · exact Or.inl (whole ▸ .range reads ended order)
  · cases read
    exact Or.inl (.rune reads)

theorem readElement_eq_ok {first : Bool} (read : readElement first start = .ok (set, behind)) :
    (first = true ∧ start.rest = '-' :: behind.rest ∧ set = [.single '-']) ∨
      ClassElement start.rest set behind.rest ∨
        ∃ lo rest, ClassElement start.rest [.single lo] ('-' :: ']' :: rest) ∧ behind.rest = ']' :: rest ∧
          set = [.single lo] ++ [.single '-'] := by
  unfold readElement at read
  obtain ⟨⟨rune, cursor⟩, begun, read⟩ := Checked.exists_of_bind_eq_ok read
  have begins := Cursor.next_eq_ok begun
  simp only at read
  split at read
  · rename_i dash
    cases read
    simp only [Bool.and_eq_true, beq_iff_eq] at dash
    exact Or.inl ⟨dash.1, dash.2 ▸ begins, rfl⟩
  right
  split at read
  · rename_i marks
    obtain ⟨⟨mark, after⟩, marked, read⟩ := Checked.exists_of_bind_eq_ok read
    have behindMark := Cursor.next_eq_ok marked
    rw [begins, marks, behindMark]
    simp only at read
    split at read
    · rename_i property
      obtain ⟨⟨⟨name, set⟩, ended⟩, named, read⟩ := Checked.exists_of_bind_eq_ok read
      cases read
      have escaped := readProperty_eq_ok named
      have marker : propertyMarker (mark == 'P') = mark := by
        rcases property with rfl | rfl <;> rfl
      rw [marker] at escaped
      exact Or.inl (.property escaped)
    · cases class_ : classEscape? mark with
      | some set =>
        simp only [class_] at read
        cases read
        exact Or.inl (.escaped class_)
      | none =>
        cases single : singleEscape? mark with
        | some lo =>
          simp only [class_, single] at read
          rcases readRangeFrom_eq_ok (.escaped single) read with element | last
          · exact Or.inl element
          · exact Or.inr ⟨lo, last⟩
        | none =>
          simp only [class_, single] at read
          cases read
  · rename_i other
    split at read
    · rename_i plain
      have reads : ClassRune start.rest rune cursor.rest := begins ▸ .plain plain other
      rcases readRangeFrom_eq_ok reads read with element | last
      · exact Or.inl element
      · exact Or.inr ⟨rune, last⟩
    · cases read

/-- A rune of a class is read, and then what may make it a range. -/
theorem readElement_of_rune (reads : ClassRune text lo rest) (first : Bool) (offset : Nat) :
    ∃ after, readElement first ⟨text, offset⟩ = readRangeFrom lo ⟨rest, after⟩ := by
  cases reads with
  | plain plain other =>
    have dash : (lo == '-') = false := by
      rw [beq_eq_false_iff_ne]
      rintro rfl
      exact absurd plain (by decide)
    simp only [readElement, Cursor.next, Cursor.behind, bind, Except.bind, dash, Bool.and_false,
      Bool.false_eq_true, other, plain, ↓reduceIte]
    exact ⟨_, rfl⟩
  | escaped known =>
    have dash : (escape == '-') = false := by decide
    obtain ⟨class_, property⟩ := other_of_singleEscape known
    simp only [readElement, Cursor.next, Cursor.behind, bind, Except.bind, dash, Bool.and_false,
      Bool.false_eq_true, property, class_, known, ↓reduceIte]
    exact ⟨_, rfl⟩

theorem readElement_of_range (low : ClassRune text lo ('-' :: middle)) (high : ClassRune middle hi rest)
    (order : lo ≤ hi) (first : Bool) (offset : Nat) :
    ∃ after, readElement first ⟨text, offset⟩ = .ok ([⟨lo, hi⟩], ⟨rest, after⟩) := by
  obtain ⟨between, read⟩ := readElement_of_rune low first offset
  rw [read]
  exact readRangeEnd_of_rune high order _

theorem readElement_of_escape {mark : Char} (known : classEscape? mark = some set) (first : Bool)
    (offset : Nat) :
    ∃ after, readElement first ⟨escape :: mark :: rest, offset⟩ = .ok (set, ⟨rest, after⟩) := by
  have dash : (escape == '-') = false := by decide
  obtain ⟨_, property⟩ := other_of_classEscape known
  simp only [readElement, Cursor.next, Cursor.behind, bind, Except.bind, dash, Bool.and_false,
    Bool.false_eq_true, property, known, ↓reduceIte]
  exact ⟨_, rfl⟩

theorem readElement_of_property {name : String} (escaped : PropertyEscape text name set rest) (first : Bool)
    (offset : Nat) : ∃ after, readElement first ⟨text, offset⟩ = .ok (set, ⟨rest, after⟩) := by
  obtain ⟨mark, more, rfl⟩ := escaped.begins
  have dash : (escape == '-') = false := by decide
  obtain ⟨property, after, read⟩ :=
    readProperty_of_escape escaped (offset + escape.utf8Size + mark.utf8Size)
  simp only [readElement, Cursor.next, Cursor.behind, bind, Except.bind, dash, Bool.and_false,
    Bool.false_eq_true, property, ↓reduceIte, read]
  exact ⟨_, rfl⟩

end ByteAutomata.Regexp
