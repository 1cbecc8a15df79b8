import ByteAutomata.Proofs.RegexpParts

/-!
Reading classes, quantifiers and atoms.

A class is read up to a `-` or a `]`, and what was read together with a `-` behind it is what its items stand
for. Behind an atom the text must not go on as a quantifier does, unless it is one.
-/

namespace ByteAutomata.Regexp

variable {text middle rest : List Char} {set more : RuneSet} {cursor behind start : Cursor} {atom : Atom}
  {piece : Piece}

/-! ## Items of classes -/

/-- What was read of a class, with the `-` behind it, if there is one, is all of it. -/
inductive ClassEnd (set : RuneSet) : List Char → RuneSet → List Char → Prop
  | plain {rest : List Char} : ClassEnd set (']' :: rest) set rest
  | dash {rest : List Char} : ClassEnd set ('-' :: ']' :: rest) (set ++ [.single '-']) rest

theorem ClassEnd.prepend (before : RuneSet) (ends : ClassEnd set text more rest) :
    ClassEnd (before ++ set) text (before ++ more) rest := by
  cases ends with
  | plain => exact .plain
  | dash => exact List.append_assoc .. ▸ .dash

theorem ClassEnd.of_append {before : RuneSet} (ends : ClassEnd (before ++ set) text more rest) :
    ∃ items, ClassEnd set text items rest ∧ more = before ++ items := by
  cases ends with
  | plain => exact ⟨set, .plain, rfl⟩
  | dash => exact ⟨_, .dash, List.append_assoc ..⟩

section

variable [Unicode.Database]

theorem readElements_eq_ok {rounds : Nat} {first : Bool}
    (read : readElements rounds first start = .ok (set, behind)) (ends : ClassEnd set behind.rest more rest) :
    ClassBody start.rest more (']' :: rest) ∧
      (first = false → ClassItems start.rest more (']' :: rest)) := by
  induction rounds generalizing first start set more with
  | zero => cases read
  | succ rounds ih =>
    unfold readElements at read
    obtain ⟨⟨here, cursor⟩, begun, read⟩ := Checked.exists_of_bind_eq_ok read
    -- What stands behind the first element, whether or not the reader goes on.
    have later : ∃ items, ClassItems cursor.rest items (']' :: rest) ∧ more = here ++ items := by
      simp only at read
      cases begins : cursor.rest with
      | nil =>
        simp only [begins] at read
        cases read
      | cons rune text =>
        simp only [begins] at read
        split at read
        · cases read
          rw [begins] at ends
          cases ends with
          | plain => exact ⟨[], .none, (List.append_nil _).symm⟩
          | dash => exact ⟨[.single '-'], .dash, rfl⟩
        · obtain ⟨⟨others, after⟩, behindOthers, read⟩ := Checked.exists_of_bind_eq_ok read
          cases read
          obtain ⟨items, ends, whole⟩ := ends.of_append
          have items := (ih behindOthers ends).2 rfl
          rw [begins] at items
          exact ⟨_, items, whole⟩
    obtain ⟨items, later, rfl⟩ := later
    rcases readElement_eq_ok begun with ⟨rfl, dash, rfl⟩ | element | ⟨lo, tail, element, closing, rfl⟩
    · exact ⟨dash ▸ .dash later, fun other => absurd other Bool.noConfusion⟩
    · exact ⟨.element element later, fun _ => .element element later⟩
    · rw [closing] at later
      have same : items = [] ∧ tail = rest := by
        cases later with
        | none => exact ⟨rfl, rfl⟩
        | element element _ =>
          obtain ⟨first, _, begins, _, other⟩ := element.head
          cases begins
          exact absurd rfl other
      obtain ⟨rfl, rfl⟩ := same
      rw [List.append_nil]
      exact ⟨.element element .dash, fun _ => .element element .dash⟩

theorem ClassItems.length_le (items : ClassItems text set rest) : rest.length ≤ text.length := by
  induction items with
  | none => exact le_rfl
  | dash => exact Nat.le_succ _
  | element element _ ih => exact ih.trans element.length_lt.le

theorem ClassBody.length_le (body : ClassBody text set rest) : rest.length ≤ text.length := by
  cases body with
  | dash items => exact items.length_le.trans (Nat.le_succ _)
  | element element items => exact items.length_le.trans element.length_lt.le

/-- An element in front of other items is read, perhaps with the `-` behind it. -/
theorem readElement_of_element (element : ClassElement text set middle)
    (items : ClassItems middle more (']' :: rest)) (first : Bool) (offset : Nat) :
    ∃ read left others after, readElement first ⟨text, offset⟩ = .ok (read, ⟨left, after⟩) ∧
      ClassItems left others (']' :: rest) ∧ read ++ others = set ++ more ∧ left.length < text.length := by
  have shorter := element.length_lt
  cases element with
  | @rune _ lo _ reads =>
    obtain ⟨between, read⟩ := readElement_of_rune reads first offset
    rw [read]
    by_cases dash : middle.head? = some '-'
    · cases items with
      | none => cases dash
      | dash =>
        have shorter : (']' :: rest).length < text.length := by
          rw [List.length_cons] at shorter
          omega
        exact ⟨[.single lo, .single '-'], _, [], _, rfl, .none, rfl, shorter⟩
      | element element _ =>
        obtain ⟨first, _, rfl, other, _⟩ := element.head
        exact absurd (by simpa using dash) other
    · rw [readRangeFrom_of_ne dash]
      exact ⟨_, _, _, _, rfl, items, rfl, shorter⟩
  | range low high order =>
    obtain ⟨after, read⟩ := readElement_of_range low high order first offset
    exact ⟨_, _, _, _, read, items, rfl, shorter⟩
  | escaped known =>
    obtain ⟨after, read⟩ := readElement_of_escape known first offset
    exact ⟨_, _, _, _, read, items, rfl, shorter⟩
  | property escaped =>
    obtain ⟨after, read⟩ := readElement_of_property escaped first offset
    exact ⟨_, _, _, _, read, items, rfl, shorter⟩

/-- Elements are read up to the end of the class once the first of them is. -/
theorem readElements_of_first {rounds : Nat} {first : Bool} {offset after : Nat}
    (read : readElement first ⟨text, offset⟩ = .ok (set, ⟨middle, after⟩))
    (items : ClassItems middle more (']' :: rest)) (enough : middle.length ≤ rounds) :
    ∃ whole left, readElements (rounds + 1) first ⟨text, offset⟩ = .ok (whole, left) ∧
      ClassEnd whole left.rest (set ++ more) rest := by
  induction rounds generalizing first text set middle more offset after with
  | zero =>
    obtain ⟨first, text, rfl⟩ : ∃ first text, middle = first :: text := by
      cases items with
      | none => exact ⟨_, _, rfl⟩
      | dash => exact ⟨_, _, rfl⟩
      | element element _ =>
        obtain ⟨first, text, begins, _⟩ := element.head
        exact ⟨first, text, begins⟩
    exact absurd enough (Nat.not_succ_le_zero _)
  | succ rounds ih =>
    cases items with
    | none =>
      refine ⟨set, ⟨']' :: rest, after⟩, ?_, (List.append_nil set).symm ▸ .plain⟩
      rw [readElements, read]
      rfl
    | dash =>
      refine ⟨set, ⟨'-' :: ']' :: rest, after⟩, ?_, .dash⟩
      rw [readElements, read]
      rfl
    | @element _ next _ here others element items =>
      obtain ⟨rune, tail, begins, dash, closing⟩ := element.head
      obtain ⟨again, left, later, behind, readNext, itemsLeft, same, shorter⟩ :=
        readElement_of_element element items false after
      obtain ⟨whole, ended, readRest, ends⟩ := ih readNext itemsLeft (by omega)
      rw [same] at ends
      refine ⟨set ++ whole, ended, ?_, ends.prepend set⟩
      · rw [readElements, read]
        simp only [bind, Except.bind, begins, dash, closing, or_self, ↓reduceIte]
        rw [← begins, readRest]
        rfl

theorem readElements_of_body (body : ClassBody text set (']' :: rest)) (offset : Nat) :
    ∃ whole left, readElements text.length true ⟨text, offset⟩ = .ok (whole, left) ∧
      ClassEnd whole left.rest set rest := by
  cases body with
  | @dash text _ more items =>
    have begun : readElement true ⟨'-' :: text, offset⟩ = .ok ([.single '-'], ⟨text, offset + Char.utf8Size '-'⟩) :=
      rfl
    exact readElements_of_first begun items le_rfl
  | element element items =>
    obtain ⟨read, left, others, after, begun, items, same, shorter⟩ :=
      readElement_of_element element items true offset
    obtain ⟨rounds, many⟩ := Nat.exists_eq_add_one_of_ne_zero (Nat.ne_zero_of_lt shorter)
    rw [← same, many]
    exact readElements_of_first begun items (by omega)

end

/-! ## Classes -/

/-- The `-` and the `]` behind what was read of a class. -/
theorem classEnd_of_require (closing : (cursor.skip '-').require ']' = .ok behind) :
    ClassEnd set cursor.rest
      (if (cursor.skip '-').offset ≠ cursor.offset then set ++ [.single '-'] else set) behind.rest := by
  have closes := Cursor.require_eq_ok closing
  rcases cursor.skip_cases '-' with ⟨same, _⟩ | ⟨dash, moved⟩
  · rw [same] at closes ⊢
    rw [closes, if_neg (not_not.mpr rfl)]
    exact .plain
  · rw [dash, closes, if_pos moved]
    exact .dash

theorem require_of_classEnd (ends : ClassEnd set text more rest) (offset : Nat) :
    ∃ after, (Cursor.skip ⟨text, offset⟩ '-').require ']' = .ok ⟨rest, after⟩ ∧
      (if (Cursor.skip ⟨text, offset⟩ '-').offset ≠ offset then set ++ [.single '-'] else set) = more := by
  cases ends with
  | plain =>
    rw [Cursor.skip_of_ne (by simp)]
    exact ⟨_, rfl, if_neg (not_not.mpr rfl)⟩
  | dash =>
    rw [Cursor.skip_cons]
    exact ⟨_, rfl, if_pos (by have := Char.utf8Size_pos '-'; simp only; omega)⟩

theorem readClass_eq_ok [Unicode.Database] (read : readClass start = .ok (set, behind)) :
    ClassExpression False ('[' :: start.rest) set behind.rest := by
  unfold readClass at read
  obtain ⟨⟨elements, cursor⟩, items, read⟩ := Checked.exists_of_bind_eq_ok read
  obtain ⟨ended, closing, read⟩ := Checked.exists_of_bind_eq_ok read
  have body := (readElements_eq_ok items (classEnd_of_require closing)).1
  cases read
  rcases start.skip_cases '^' with ⟨same, plain⟩ | ⟨caret, moved⟩
  · rw [same] at body
    rw [if_neg (not_not.mpr (congrArg Cursor.offset same))]
    exact .plain (Or.inr plain) body
  · rw [caret, if_pos moved]
    exact .negated body

theorem readClass_of_expression [Unicode.Database] (class_ : ClassExpression False ('[' :: text) set rest)
    (offset : Nat) : ∃ after, readClass ⟨text, offset⟩ = .ok (set, ⟨rest, after⟩) := by
  cases class_ with
  | plain plain body =>
    obtain ⟨whole, left, read, ends⟩ := readElements_of_body body offset
    obtain ⟨after, closing, same⟩ := require_of_classEnd ends left.offset
    refine ⟨after, ?_⟩
    unfold readClass
    rw [Cursor.skip_of_ne (plain.resolve_left not_false)]
    simp only [read, closing, bind, Except.bind, same]
    rw [if_neg (not_not.mpr rfl)]
    rfl
  | negated body =>
    obtain ⟨whole, left, read, ends⟩ := readElements_of_body body (offset + Char.utf8Size '^')
    obtain ⟨after, closing, same⟩ := require_of_classEnd ends left.offset
    refine ⟨after, ?_⟩
    have moved : offset + Char.utf8Size '^' ≠ offset := by
      have := Char.utf8Size_pos '^'
      omega
    unfold readClass
    rw [Cursor.skip_cons]
    simp only [read, closing, bind, Except.bind, same]
    rw [if_pos moved]
    rfl

/-! ## Quantifiers -/

theorem readNumber_eq_ok {number : Option Nat} (read : readNumber start = .ok (number, behind)) :
    (number = none ∧ behind = start) ∨ ∃ bound, number = some bound ∧ Numeral start.rest bound behind.rest := by
  unfold readNumber at read
  simp only at read
  split_ifs at read with empty bounded
  · cases read
    exact Or.inl ⟨rfl, rfl⟩
  · cases read
    have written : start.rest.takeWhile Char.isDigit ++ start.rest.dropWhile Char.isDigit = start.rest :=
      List.takeWhile_append_dropWhile
    have numeral := @Numeral.digits _ (start.rest.dropWhile Char.isDigit) (by simpa using empty)
      (fun digit listed => List.mem_takeWhile_imp listed) bounded
    rw [written] at numeral
    exact Or.inr ⟨_, rfl, numeral⟩

theorem takeWhile_of_stops (stops : ∀ rune ∈ rest.head?, rune.isDigit = false) :
    rest.takeWhile Char.isDigit = [] ∧ rest.dropWhile Char.isDigit = rest := by
  cases rest with
  | nil => exact ⟨rfl, rfl⟩
  | cons rune rest =>
    have stops : rune.isDigit = false := stops rune rfl
    simp [stops]

theorem readNumber_of_numeral {bound : Nat} (numeral : Numeral text bound rest)
    (stops : ∀ rune ∈ rest.head?, rune.isDigit = false) (offset : Nat) :
    ∃ after, readNumber ⟨text, offset⟩ = .ok (some bound, ⟨rest, after⟩) := by
  cases numeral with
  | @digits digits rest some_ each bounded =>
    have written : (digits ++ rest).takeWhile Char.isDigit = digits := by
      rw [List.takeWhile_append_of_pos each, (takeWhile_of_stops stops).1, List.append_nil]
    have left : (digits ++ rest).dropWhile Char.isDigit = rest := by
      rw [List.dropWhile_append_of_pos each, (takeWhile_of_stops stops).2]
    have filled : digits.isEmpty = false := List.isEmpty_eq_false_iff.mpr some_
    refine ⟨offset + digits.length, ?_⟩
    unfold readNumber
    simp only [written, left, filled, Bool.false_eq_true, ↓reduceIte]
    rw [decimalValue] at bounded ⊢
    simp only [bounded, ↓reduceIte]

theorem Numeral.length_le {bound : Nat} (numeral : Numeral text bound rest) : rest.length ≤ text.length := by
  cases numeral
  simp only [List.length_append]
  omega

theorem Quantifier.length_le {least : Nat} {most : Option Nat} (quantifier : Quantifier text least most rest) :
    rest.length ≤ text.length := by
  cases quantifier with
  | star => exact Nat.le_succ _
  | plus => exact Nat.le_succ _
  | optional => exact Nat.le_succ _
  | exactly numeral =>
    have shorter := numeral.length_le
    rw [List.length_cons] at shorter ⊢
    omega
  | atLeast numeral =>
    have shorter := numeral.length_le
    rw [List.length_cons, List.length_cons] at shorter
    rw [List.length_cons]
    omega
  | between numeral more _ =>
    have shorter := numeral.length_le
    have shorterStill := more.length_le
    rw [List.length_cons] at shorter shorterStill ⊢
    omega

theorem readBounds_eq_ok {least : Nat} {most : Option Nat}
    (read : readBounds start = .ok ((least, most), behind)) :
    Quantifier ('\x7b' :: start.rest) least most behind.rest := by
  unfold readBounds at read
  obtain ⟨⟨low, cursor⟩, first, read⟩ := Checked.exists_of_bind_eq_ok read
  rcases readNumber_eq_ok first with ⟨rfl, _⟩ | ⟨bound, rfl, numeral⟩
  · cases read
  obtain ⟨⟨rune, after⟩, separated, read⟩ := Checked.exists_of_bind_eq_ok read
  rw [Cursor.next_eq_ok separated] at numeral
  by_cases closing : rune = '\x7d'
  · simp only [closing, ↓reduceIte] at read
    cases read
    exact .exactly (closing ▸ numeral)
  by_cases comma : rune = ','
  swap
  · simp only [closing, comma, ne_eq, not_false_eq_true, ↓reduceIte] at read
    cases read
  simp only [comma, ne_eq, not_true_eq_false, ↓reduceIte] at read
  obtain ⟨⟨high, cursor⟩, second, read⟩ := Checked.exists_of_bind_eq_ok read
  obtain ⟨⟨rune, ended⟩, closed, read⟩ := Checked.exists_of_bind_eq_ok read
  by_cases closing : rune = '\x7d'
  swap
  · simp only [closing, not_false_eq_true, ↓reduceIte] at read
    cases read
  by_cases order : high.any (· < bound) = true
  · simp only [closing, order, not_true_eq_false, ↓reduceIte] at read
    cases read
  simp only [closing, order, not_true_eq_false, ↓reduceIte] at read
  cases read
  have closed := Cursor.next_eq_ok closed
  rw [closing] at closed
  rw [comma] at numeral
  rcases readNumber_eq_ok second with ⟨rfl, same⟩ | ⟨last, rfl, more⟩
  · rw [← same, closed] at numeral
    exact .atLeast numeral
  · rw [closed] at more
    exact .between numeral more (by simpa using order)

theorem readBounds_of_quantifier {least : Nat} {most : Option Nat}
    (quantifier : Quantifier ('\x7b' :: text) least most rest) (offset : Nat) :
    ∃ after, readBounds ⟨text, offset⟩ = .ok ((least, most), ⟨rest, after⟩) := by
  have braceStops : ∀ rune ∈ ('\x7d' :: rest).head?, rune.isDigit = false := by simp
  have commaStops (more : List Char) : ∀ rune ∈ (',' :: more).head?, rune.isDigit = false := by simp
  cases quantifier with
  | exactly numeral =>
    obtain ⟨between, read⟩ := readNumber_of_numeral numeral braceStops offset
    refine ⟨between + Char.utf8Size '\x7d', ?_⟩
    simp only [readBounds, read, bind, Except.bind, Cursor.next, Cursor.behind, ↓reduceIte]
    rfl
  | atLeast numeral =>
    obtain ⟨between, read⟩ := readNumber_of_numeral numeral (commaStops _) offset
    refine ⟨between + Char.utf8Size ',' + Char.utf8Size '\x7d', ?_⟩
    have none : readNumber ⟨'\x7d' :: rest, between + Char.utf8Size ','⟩ =
      .ok (none, ⟨'\x7d' :: rest, between + Char.utf8Size ','⟩) := rfl
    simp only [readBounds, read, bind, Except.bind, Cursor.next, Cursor.behind, none]
    rfl
  | @between _ middle _ least most numeral more order =>
    obtain ⟨between, read⟩ := readNumber_of_numeral numeral (commaStops _) offset
    obtain ⟨later, readMore⟩ := readNumber_of_numeral more braceStops (between + Char.utf8Size ',')
    refine ⟨later + Char.utf8Size '\x7d', ?_⟩
    have inOrder : (some most).any (· < least) = false := by simpa using order
    simp only [readBounds, read, bind, Except.bind, Cursor.next, Cursor.behind, readMore, inOrder]
    rfl

/-- The text does not go on as a quantifier does. -/
def Settled (text : List Char) : Prop := ∀ rune ∈ text.head?, rune ∉ ['*', '+', '?', '\x7b']

theorem readQuantifier_eq_ok (read : readQuantifier atom cursor = .ok (piece, behind)) :
    Repeated atom cursor.rest piece behind.rest := by
  -- A quantifier and perhaps a question mark behind it.
  have lazily {ended : Cursor} {least : Nat} {most : Option Nat}
      (quantifier : Quantifier cursor.rest least most ended.rest) :
      Repeated atom cursor.rest (.mk atom least most) (ended.skip '?').rest := by
    rcases ended.skip_cases '?' with ⟨same, _⟩ | ⟨mark, _⟩
    · rw [same]
      exact .quantified quantifier
    · exact .lazily (mark ▸ quantifier)
  unfold readQuantifier at read
  split at read
  · cases read
    exact .once
  · rename_i rune rest begins
    simp only at read
    by_cases star : rune = '*'
    · simp only [star, ↓reduceIte] at read
      cases read
      exact lazily (by rw [begins, star]; exact .star)
    by_cases plus : rune = '+'
    · simp only [plus, ↓reduceIte] at read
      cases read
      exact lazily (by rw [begins, plus]; exact .plus)
    by_cases optional : rune = '?'
    · simp only [optional, ↓reduceIte] at read
      cases read
      exact lazily (by rw [begins, optional]; exact .optional)
    by_cases brace : rune = '\x7b'
    · simp only [brace, ↓reduceIte] at read
      obtain ⟨⟨⟨least, most⟩, ended⟩, bounds, read⟩ := Checked.exists_of_bind_eq_ok read
      cases read
      exact lazily (by rw [begins, brace]; exact readBounds_eq_ok bounds)
    · simp only [brace, star, plus, optional, ↓reduceIte] at read
      cases read
      exact .once

/-- A quantifier is read up to a `?` that may stand behind it. -/
theorem readQuantifier_of_quantifier {least : Nat} {most : Option Nat}
    (quantifier : Quantifier text least most rest) (offset : Nat) :
    ∃ after, readQuantifier atom ⟨text, offset⟩ = .ok (.mk atom least most, Cursor.skip ⟨rest, after⟩ '?') := by
  have bounded {text : List Char} (quantifier : Quantifier ('\x7b' :: text) least most rest) :
      ∃ after, readQuantifier atom ⟨'\x7b' :: text, offset⟩ =
        .ok (.mk atom least most, Cursor.skip ⟨rest, after⟩ '?') := by
    obtain ⟨after, read⟩ := readBounds_of_quantifier quantifier (offset + Char.utf8Size '\x7b')
    refine ⟨after, ?_⟩
    simp only [readQuantifier, Cursor.behind, read, bind, Except.bind]
    rfl
  cases quantifier with
  | star => exact ⟨_, rfl⟩
  | plus => exact ⟨_, rfl⟩
  | optional => exact ⟨_, rfl⟩
  | exactly numeral => exact bounded (.exactly numeral)
  | atLeast numeral => exact bounded (.atLeast numeral)
  | between numeral more order => exact bounded (.between numeral more order)

theorem Repeated.length_le (repeated : Repeated atom text piece rest) : rest.length ≤ text.length := by
  cases repeated with
  | once => exact le_rfl
  | quantified quantifier => exact quantifier.length_le
  | lazily quantifier => exact Nat.le_of_succ_le quantifier.length_le

theorem readQuantifier_of_repeated (repeated : Repeated atom text piece rest) (settled : Settled rest)
    (offset : Nat) : ∃ after, readQuantifier atom ⟨text, offset⟩ = .ok (piece, ⟨rest, after⟩) := by
  have unmarked : rest.head? ≠ some '?' := by
    intro marked
    exact settled '?' marked (by simp)
  cases repeated with
  | once =>
    refine ⟨offset, ?_⟩
    cases text with
    | nil => rfl
    | cons rune text =>
      have other := settled rune rfl
      simp only [List.mem_cons, List.not_mem_nil, or_false, not_or] at other
      simp only [readQuantifier, other, ↓reduceIte]
      rfl
  | quantified quantifier =>
    obtain ⟨after, read⟩ := readQuantifier_of_quantifier quantifier offset
    exact ⟨after, by rw [read, Cursor.skip_of_ne unmarked]⟩
  | lazily quantifier =>
    obtain ⟨after, read⟩ := readQuantifier_of_quantifier quantifier offset
    exact ⟨_, by rw [read, Cursor.skip_cons]⟩

/-! ## Atoms -/

section

variable [Unicode.Database]

theorem readAtom_eq_ok {rune : Char} (read : readAtom start rune cursor = .ok (atom, behind)) :
    PlainAtom False (rune :: cursor.rest) atom behind.rest := by
  unfold readAtom at read
  split_ifs at read with normal dot class_ closing escaped
  · cases read
    exact .rune normal
  · cases read
    exact dot ▸ .dot
  · obtain ⟨⟨set, ended⟩, whole, read⟩ := Checked.exists_of_bind_eq_ok read
    cases read
    exact class_ ▸ .expression (readClass_eq_ok whole)
  · obtain ⟨⟨mark, after⟩, marked, read⟩ := Checked.exists_of_bind_eq_ok read
    rw [escaped, Cursor.next_eq_ok marked]
    cases single : singleEscape? mark with
    | some rune =>
      simp only [single] at read
      cases read
      exact .escaped single
    | none =>
      cases known : classEscape? mark with
      | some set =>
        simp only [single, known] at read
        cases read
        exact .class_ known
      | none =>
        simp only [single, known] at read
        split_ifs at read with property
        obtain ⟨⟨⟨name, set⟩, ended⟩, named, read⟩ := Checked.exists_of_bind_eq_ok read
        cases read
        have escape_ := readProperty_eq_ok named
        have marker : propertyMarker (mark == 'P') = mark := by
          rcases property with rfl | rfl <;> rfl
        rw [marker] at escape_
        exact .property escape_

/-- An atom that is no group begins with none of the runes that the reader of the whole text looks for. -/
theorem PlainAtom.head {caret : Prop} (plain : PlainAtom caret text atom rest) :
    ∃ rune more, text = rune :: more ∧ rune ∉ ['|', ')', '(', '*', '+', '?', '\x7b'] := by
  have escapes : escape ∉ ['|', ')', '(', '*', '+', '?', '\x7b'] := by decide
  cases plain with
  | @rune rune _ normal =>
    refine ⟨_, _, rfl, fun listed => ?_⟩
    have each : ∀ rune ∈ ['|', ')', '(', '*', '+', '?', '\x7b'], isNormalRune rune = false := by
      simp [isNormalRune, inRanges]
    rw [each rune listed] at normal
    cases normal
  | dot => exact ⟨_, _, rfl, by decide⟩
  | escaped _ => exact ⟨_, _, rfl, escapes⟩
  | class_ _ => exact ⟨_, _, rfl, escapes⟩
  | property escaped =>
    obtain ⟨mark, more, rfl⟩ := escaped.begins
    exact ⟨_, _, rfl, escapes⟩
  | expression class_ =>
    cases class_
    all_goals exact ⟨_, _, rfl, by decide⟩

theorem PlainAtom.length_lt {caret : Prop} (plain : PlainAtom caret text atom rest) :
    rest.length < text.length := by
  cases plain with
  | rune _ => exact Nat.lt_succ_self _
  | dot => exact Nat.lt_succ_self _
  | escaped _ => exact Nat.lt_add_of_pos_right (Nat.zero_lt_succ 1)
  | class_ _ => exact Nat.lt_add_of_pos_right (Nat.zero_lt_succ 1)
  | property escaped => exact (ClassElement.property escaped).length_lt
  | expression class_ =>
    cases class_ with
    | plain _ body =>
      have shorter := body.length_le
      rw [List.length_cons] at shorter ⊢
      omega
    | negated body =>
      have shorter := body.length_le
      rw [List.length_cons] at shorter
      rw [List.length_cons, List.length_cons]
      omega

theorem readAtom_of_plain {rune : Char} (plain : PlainAtom False (rune :: text) atom rest) (offset : Nat) :
    ∃ after, readAtom start rune ⟨text, offset⟩ = .ok (atom, ⟨rest, after⟩) := by
  have escapes : isNormalRune escape = false ∧ escape ≠ '.' ∧ escape ≠ '[' ∧ escape ≠ ']' := by decide
  obtain ⟨abnormal, dot, opening, closing⟩ := escapes
  cases plain with
  | rune normal =>
    simp only [readAtom, normal, ↓reduceIte]
    exact ⟨_, rfl⟩
  | dot => exact ⟨_, rfl⟩
  | escaped single =>
    simp only [readAtom, abnormal, dot, opening, closing, Bool.false_eq_true, ↓reduceIte, Cursor.next, bind,
      Except.bind, single]
    exact ⟨_, rfl⟩
  | class_ known =>
    simp only [readAtom, abnormal, dot, opening, closing, Bool.false_eq_true, ↓reduceIte, Cursor.next, bind,
      Except.bind, (other_of_classEscape known).1, known]
    exact ⟨_, rfl⟩
  | property escaped =>
    obtain ⟨mark, more, begins⟩ := escaped.begins
    cases begins
    obtain ⟨property, after, read⟩ := readProperty_of_escape escaped (offset + mark.utf8Size)
    have other : singleEscape? mark = none ∧ classEscape? mark = none := by
      rcases property with rfl | rfl <;> decide
    simp only [readAtom, abnormal, dot, opening, closing, Bool.false_eq_true, ↓reduceIte, Cursor.next,
      Cursor.behind, bind, Except.bind, other.1, other.2, property, read]
    exact ⟨_, rfl⟩
  | expression class_ =>
    obtain rfl : rune = '[' := by
      cases class_ <;> rfl
    obtain ⟨after, read⟩ := readClass_of_expression class_ offset
    have plain : isNormalRune '[' = false := by decide
    simp only [readAtom, plain, Bool.false_eq_true, ↓reduceIte, bind, Except.bind, read]
    exact ⟨_, rfl⟩

end

/-! ## Marks of groups -/

theorem readGroupMark_eq {lookaround : Option Lookaround}
    (read : readGroupMark cursor = (lookaround, behind)) :
    ∃ mark, (mark, lookaround) ∈ ([], none) :: groupMarks ∧ cursor.rest = mark ++ behind.rest := by
  unfold readGroupMark at read
  cases marked : groupMarks.findSome? fun pair => (cursor.after? pair.1).map fun behind => (pair.2, behind) with
  | none =>
    rw [marked] at read
    cases read
    exact ⟨[], List.mem_cons_self, rfl⟩
  | some found =>
    rw [marked] at read
    cases read
    obtain ⟨⟨mark, lookaround⟩, listed, begins⟩ := List.exists_of_findSome?_eq_some marked
    obtain ⟨after, reached, same⟩ := Option.map_eq_some_iff.mp begins
    cases same
    exact ⟨mark, List.mem_cons_of_mem _ listed, Cursor.after?_eq_some reached⟩

theorem readGroupMark_of_mem {mark : List Char} {lookaround : Option Lookaround}
    (listed : (mark, lookaround) ∈ ([], none) :: groupMarks) (settled : Settled text) (offset : Nat) :
    ∃ after, readGroupMark ⟨mark ++ text, offset⟩ = (lookaround, ⟨text, after⟩) := by
  have unmarked : text.head? ≠ some '?' := by
    intro marked
    exact settled '?' marked (by simp)
  simp only [groupMarks, List.mem_cons, Prod.mk.injEq, List.not_mem_nil, or_false] at listed
  rcases listed with ⟨rfl, rfl⟩ | ⟨rfl, rfl⟩ | ⟨rfl, rfl⟩ | ⟨rfl, rfl⟩ | ⟨rfl, rfl⟩ | ⟨rfl, rfl⟩
  · refine ⟨offset, ?_⟩
    cases text with
    | nil => rfl
    | cons rune text =>
      have other : rune ≠ '?' := by simpa using unmarked
      simp [readGroupMark, groupMarks, Cursor.after?, other]
  all_goals exact ⟨_, rfl⟩

end ByteAutomata.Regexp
