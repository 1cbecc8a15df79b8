import ByteAutomata.Proofs.RegexpAtoms

/-!
Reading regexps.

The reader keeps a stack of the groups that are open. Whatever it returns closes them: the text left is a
regexp up to the `)` of the innermost group, what stands behind that group goes on with the next, and so on
outwards. Conversely the reader passes over every part that the grammar derives and adds what it stands for.
-/

namespace ByteAutomata.Regexp

variable {text middle rest : List Char} {root more : Root} {branch : Branch} {piece : Piece} {atom : Atom}
  {found marks all : List Lookaround} {groups : List OpenGroup} {read : Alternatives}

/-! ## What was read so far -/

namespace Alternatives

def addPieces (read : Alternatives) (branch : Branch) : Alternatives := branch.foldl addPiece read

/-- What was read, with the pieces of a branch and further branches behind it. -/
def complete (read : Alternatives) : Root → Root
  | [] => read.toRoot
  | branch :: more => read.branches.reverse ++ (read.pieces.reverse ++ branch) :: more

theorem complete_nil (read : Alternatives) : read.complete [[]] = read.toRoot := by
  simp [complete, toRoot, addBranch]

theorem addPiece_complete (read : Alternatives) (piece : Piece) (branch : Branch) (more : Root) :
    (read.addPiece piece).complete (branch :: more) = read.complete ((piece :: branch) :: more) := by
  simp [complete, addPiece]

theorem addBranch_complete (read : Alternatives) (branch : Branch) (more : Root) :
    read.addBranch.complete (branch :: more) = read.complete ([] :: branch :: more) := by
  simp [complete, addBranch]

theorem addPieces_complete (read : Alternatives) (before branch : Branch) (more : Root) :
    (read.addPieces before).complete (branch :: more) = read.complete ((before ++ branch) :: more) := by
  induction before generalizing read with
  | nil => rfl
  | cons piece before ih =>
    rw [addPieces, List.foldl_cons, ← addPieces, ih, addPiece_complete]
    rfl

theorem addPieces_toRoot (read : Alternatives) (branch : Branch) :
    (read.addPieces branch).toRoot = read.complete [branch] := by
  rw [← complete_nil, addPieces_complete, List.append_nil]

end Alternatives

/-- Notes lookarounds in the order in which they begin. -/
def noteAll (found marks : List Lookaround) : List Lookaround :=
  marks.foldl (fun found lookaround => noteLookaround found (some lookaround)) found

theorem noteAll_append (found before after : List Lookaround) :
    noteAll found (before ++ after) = noteAll (noteAll found before) after := List.foldl_append

theorem noteAll_toList (found : List Lookaround) (lookaround : Option Lookaround) :
    noteAll found lookaround.toList = noteLookaround found lookaround := by
  cases lookaround <;> rfl

/-- Of lookarounds that begin more than once only the first is noted. -/
theorem noteAll_eq (found marks : List Lookaround) :
    noteAll found marks = found ++ (marks.filter fun mark => !found.contains mark).eraseDups := by
  induction marks generalizing found with
  | nil => simp [noteAll]
  | cons mark marks ih =>
    rw [noteAll, List.foldl_cons, ← noteAll, ih, noteLookaround]
    by_cases known : mark ∈ found
    · simp [known]
    · have others : (marks.filter fun other => !(found ++ [mark]).contains other) =
          (marks.filter fun other => !found.contains other).filter fun other => !other == mark := by
        rw [List.filter_filter]
        congr 1
        funext other
        simp [Bool.and_comm, Bool.beq_eq_decide_eq]
      have new : (!found.contains mark) = true := by simpa using known
      have unknown : ¬ found.contains mark = true := by simpa using known
      have first := List.filter_cons_of_pos (p := fun other => !found.contains other) (l := marks) new
      rw [if_neg unknown, others, first, List.eraseDups_cons, List.append_assoc]
      rfl

theorem eraseDups_eq_nil_iff : marks.eraseDups = [] ↔ marks = [] := by
  cases marks with
  | nil => simp
  | cons mark marks => simp [List.eraseDups_cons]

/-! ## Heads -/

theorem Settled.of_head {rune : Char} (other : rune ∉ ['*', '+', '?', '\x7b']) (rest : List Char) :
    Settled (rune :: rest) := by
  intro first begins
  cases begins
  exact other

theorem settled_nil : Settled [] := fun _ begins => nomatch begins

section

variable [Unicode.Database]

theorem AtomText.settled {caret : Prop} (atoms : AtomText caret text atom found rest) : Settled text := by
  cases atoms with
  | plain plain =>
    obtain ⟨rune, more, rfl, other⟩ := plain.head
    simp only [List.mem_cons, List.not_mem_nil, or_false, not_or] at other
    exact .of_head (by simp [other]) _
  | group _ _ => exact .of_head (by decide) _

theorem BranchText.settled {caret : Prop} (branches : BranchText caret text branch found rest)
    (settled : Settled rest) : Settled text := by
  cases branches with
  | empty => exact settled
  | piece pieces _ =>
    cases pieces with
    | repeated atoms _ => exact atoms.settled

theorem RootText.settled {caret : Prop} (roots : RootText caret text root found rest)
    (settled : Settled rest) : Settled text := by
  cases roots with
  | branch branches => exact branches.settled settled
  | choice branches _ => exact branches.settled (.of_head (by decide) _)

/-! ## What is read is derived -/

theorem RootText.addPiece {caret : Prop} (pieces : PieceText caret text piece found middle)
    (roots : RootText caret middle root marks rest) :
    ∃ branch more, root = branch :: more ∧
      RootText caret text ((piece :: branch) :: more) (found ++ marks) rest := by
  cases roots with
  | branch branches => exact ⟨_, _, rfl, .branch (.piece pieces branches)⟩
  | choice branches roots =>
    refine ⟨_, _, rfl, ?_⟩
    rw [← List.append_assoc]
    exact .choice (.piece pieces branches) roots

theorem RootText.addBranch {caret : Prop} (roots : RootText caret text root marks rest) :
    ∃ branch more, root = branch :: more ∧ RootText caret ('|' :: text) ([] :: root) marks rest := by
  have whole : RootText caret ('|' :: text) ([] :: root) ([] ++ marks) rest := .choice .empty roots
  cases roots with
  | branch _ => exact ⟨_, _, rfl, whole⟩
  | choice _ _ => exact ⟨_, _, rfl, whole⟩

/-- The text closes the open groups and ends the regexp. -/
inductive Closes (root : Root) (all : List Lookaround) :
    List OpenGroup → List Char → Alternatives → List Lookaround → Prop
  | whole {text : List Char} {read : Alternatives} {more : Root} {found marks : List Lookaround} :
      RootText False text more marks [] → read.complete more = root → noteAll found marks = all →
      Closes root all [] text read found
  | group {group : OpenGroup} {groups : List OpenGroup} {text behind rest : List Char} {read : Alternatives}
      {more : Root} {piece : Piece} {found marks : List Lookaround} :
      RootText False text more marks (')' :: behind) → Repeated (.group (read.complete more)) behind piece rest →
      Closes root all groups rest (group.before.addPiece piece) (noteAll found marks) →
      Closes root all (group :: groups) text read found

theorem Closes.addPiece (pieces : PieceText False text piece marks rest)
    (closes : Closes root all groups rest (read.addPiece piece) (noteAll found marks)) :
    Closes root all groups text read found := by
  cases closes with
  | whole roots complete noted =>
    obtain ⟨branch, more, rfl, longer⟩ := RootText.addPiece pieces roots
    rw [Alternatives.addPiece_complete] at complete
    exact .whole longer complete (by rw [noteAll_append, noted])
  | group roots repeated closes =>
    obtain ⟨branch, more, rfl, longer⟩ := RootText.addPiece pieces roots
    rw [Alternatives.addPiece_complete] at repeated
    exact .group longer repeated (by rw [noteAll_append]; exact closes)

theorem Closes.addBranch (closes : Closes root all groups text read.addBranch found) :
    Closes root all groups ('|' :: text) read found := by
  cases closes with
  | whole roots complete noted =>
    obtain ⟨branch, more, rfl, roots⟩ := roots.addBranch
    rw [Alternatives.addBranch_complete] at complete
    exact .whole roots complete noted
  | group roots repeated closes =>
    obtain ⟨branch, more, rfl, roots⟩ := roots.addBranch
    rw [Alternatives.addBranch_complete] at repeated
    exact .group roots repeated closes

theorem RootText.ne_nil {caret : Prop} (roots : RootText caret text root marks rest) :
    ∃ branch more, root = branch :: more := by
  cases roots with
  | branch _ => exact ⟨_, _, rfl⟩
  | choice _ _ => exact ⟨_, _, rfl⟩

theorem RootText.complete_empty {caret : Prop} (roots : RootText caret text root marks rest) :
    Alternatives.complete {} root = root := by
  obtain ⟨branch, more, rfl⟩ := roots.ne_nil
  rfl

theorem closes_of_readAll {rounds : Nat} {cursor : Cursor}
    (reads : readAll rounds cursor groups read found = .ok (root, all)) :
    Closes root all groups cursor.rest read found := by
  induction rounds generalizing cursor groups read found with
  | zero => cases reads
  | succ rounds ih =>
    rw [readAll.eq_def] at reads
    simp only at reads
    cases begins : cursor.rest with
    | nil =>
      simp only [begins] at reads
      cases groups with
      | nil =>
        cases reads
        exact .whole (.branch .empty) read.complete_nil rfl
      | cons group groups => cases reads
    | cons rune rest =>
      simp only [begins] at reads
      split_ifs at reads with bar closing opening
      · exact bar ▸ (ih reads).addBranch
      · cases groups with
        | nil => cases reads
        | cons group groups =>
          obtain ⟨⟨piece, behind⟩, quantifier, reads⟩ := Checked.exists_of_bind_eq_ok reads
          have repeated := readQuantifier_eq_ok quantifier
          rw [← read.complete_nil] at repeated
          exact closing ▸ .group (.branch .empty) repeated (ih reads)
      · cases marked : readGroupMark (cursor.behind rune rest) with
        | mk lookaround behind =>
          rw [marked] at reads
          obtain ⟨mark, listed, whole⟩ := readGroupMark_eq marked
          have whole : rest = mark ++ behind.rest := whole
          rw [opening, whole]
          cases ih reads with
          | group roots repeated closes =>
            rw [roots.complete_empty] at repeated
            refine .addPiece (.repeated (.group listed roots) repeated) ?_
            rw [noteAll_append, noteAll_toList]
            exact closes
      · obtain ⟨⟨atom, between⟩, atoms, reads⟩ := Checked.exists_of_bind_eq_ok reads
        obtain ⟨⟨piece, behind⟩, quantifier, reads⟩ := Checked.exists_of_bind_eq_ok reads
        exact .addPiece (.repeated (.plain (readAtom_eq_ok atoms)) (readQuantifier_eq_ok quantifier)) (ih reads)

/-! ## What is derived is read -/

/-- The reader, wherever it has enough rounds left, comes from one place in the text to another. -/
def Advances (groups : List OpenGroup) (text : List Char) (read : Alternatives) (found : List Lookaround)
    (rest : List Char) (after : Alternatives) (noted : List Lookaround) : Prop :=
  ∀ rounds offset, text.length < rounds → ∃ left behind, rest.length < left ∧
    readAll rounds ⟨text, offset⟩ groups read found = readAll left ⟨rest, behind⟩ groups after noted

theorem Advances.refl : Advances groups text read found text read found :=
  fun rounds offset enough => ⟨rounds, offset, enough, rfl⟩

theorem Advances.trans {between after : Alternatives} {foundBetween noted : List Lookaround}
    (first : Advances groups text read found middle between foundBetween)
    (second : Advances groups middle between foundBetween rest after noted) :
    Advances groups text read found rest after noted := by
  intro rounds offset enough
  obtain ⟨left, behind, enough, same⟩ := first rounds offset enough
  obtain ⟨last, ended, enough, sameAgain⟩ := second left behind enough
  exact ⟨last, ended, enough, same.trans sameAgain⟩

/-- One round passes over the bar between branches. -/
theorem advances_bar : Advances groups ('|' :: rest) read found rest read.addBranch found := by
  intro rounds offset enough
  obtain ⟨rounds, rfl⟩ := Nat.exists_eq_add_one_of_ne_zero (Nat.ne_zero_of_lt enough)
  rw [List.length_cons] at enough
  exact ⟨rounds, _, by omega, rfl⟩

/-- One round passes over an atom that is no group and over its quantifier. -/
theorem advances_plain (plain : PlainAtom False text atom middle) (repeated : Repeated atom middle piece rest)
    (settled : Settled rest) : Advances groups text read found rest (read.addPiece piece) found := by
  intro rounds offset enough
  have shorter := repeated.length_le
  have shorterStill := plain.length_lt
  obtain ⟨rune, more, rfl, other⟩ := plain.head
  obtain ⟨rounds, rfl⟩ := Nat.exists_eq_add_one_of_ne_zero (Nat.ne_zero_of_lt enough)
  obtain ⟨between, atoms⟩ : ∃ between, readAtom ⟨rune :: more, offset⟩ rune ⟨more, offset + rune.utf8Size⟩ =
      .ok (atom, ⟨middle, between⟩) := readAtom_of_plain plain _
  obtain ⟨behind, quantifier⟩ := readQuantifier_of_repeated repeated settled between
  simp only [List.mem_cons, List.not_mem_nil, or_false, not_or] at other
  refine ⟨rounds, behind, by omega, ?_⟩
  rw [readAll.eq_def]
  simp only [other, ↓reduceIte, Cursor.behind, atoms, quantifier, bind, Except.bind]

/-- One round passes over the mark of a group, and one over the `)` and the quantifier behind it. -/
theorem advances_group {mark : List Char} {lookaround : Option Lookaround}
    (listed : (mark, lookaround) ∈ ([], none) :: groupMarks)
    (marked : Settled text)
    (inner : ∀ groups, ∃ after, after.toRoot = root ∧
      Advances groups text {} (noteLookaround found lookaround) (')' :: middle) after all)
    (repeated : Repeated (.group root) middle piece rest) (settled : Settled rest) :
    Advances groups ('(' :: (mark ++ text)) read found rest (read.addPiece piece) all := by
  intro rounds offset enough
  obtain ⟨rounds, rfl⟩ := Nat.exists_eq_add_one_of_ne_zero (Nat.ne_zero_of_lt enough)
  rw [List.length_cons, List.length_append] at enough
  obtain ⟨between, opened⟩ := readGroupMark_of_mem listed marked (offset + Char.utf8Size '(')
  obtain ⟨after, whole, inner⟩ := inner (⟨offset, read⟩ :: groups)
  obtain ⟨left, closing, enough, same⟩ := inner rounds between (by omega)
  obtain ⟨left, rfl⟩ := Nat.exists_eq_add_one_of_ne_zero (Nat.ne_zero_of_lt enough)
  obtain ⟨behind, quantifier⟩ := readQuantifier_of_repeated repeated settled (closing + Char.utf8Size ')')
  have shorter := repeated.length_le
  rw [List.length_cons] at enough
  refine ⟨left, behind, by omega, ?_⟩
  have bar : '(' ≠ '|' := by decide
  have parenthesis : '(' ≠ ')' := by decide
  have closingBar : ')' ≠ '|' := by decide
  rw [readAll.eq_def]
  simp only [bar, parenthesis, ↓reduceIte, Cursor.behind, opened, same]
  rw [readAll.eq_def]
  simp only [closingBar, ↓reduceIte, Cursor.behind, whole, quantifier, bind, Except.bind]

/-- The reader passes over a regexp whatever groups are open around it. -/
theorem advances_root (roots : RootText False text root marks rest) :
    Settled rest → ∀ groups read found, ∃ after, after.toRoot = read.complete root ∧
      Advances groups text read found rest after (noteAll found marks) := by
  refine RootText.induction
    (fun text piece marks rest => Settled rest → ∀ groups read found,
      Advances groups text read found rest (read.addPiece piece) (noteAll found marks))
    (fun text branch marks rest => Settled rest → ∀ groups read found,
      Advances groups text read found rest (read.addPieces branch) (noteAll found marks))
    (fun text root marks rest => Settled rest → ∀ groups read found, ∃ after, after.toRoot = read.complete root ∧
      Advances groups text read found rest after (noteAll found marks))
    ?plain ?group ?empty ?piece ?branch ?choice roots
  case plain =>
    intro _ _ _ _ _ plain repeated settled groups read found
    exact advances_plain plain repeated settled
  case group =>
    intro _ _ _ _ _ root _ _ listed roots repeated inner settled groups read found
    have closing (rest : List Char) : Settled (')' :: rest) := .of_head (by decide) rest
    refine advances_group listed (roots.settled (closing _)) (fun groups => ?_) repeated settled
    rw [noteAll_append, noteAll_toList, ← roots.complete_empty]
    exact inner (closing _) groups {} _
  case empty =>
    intro _ _ groups read found
    exact .refl
  case piece =>
    intro _ _ _ _ _ _ _ branches here there settled groups read found
    rw [noteAll_append]
    exact (here (branches.settled settled) groups read found).trans (there settled groups _ _)
  case branch =>
    intro _ _ branch _ here settled groups read found
    exact ⟨_, read.addPieces_toRoot branch, here settled groups read found⟩
  case choice =>
    intro _ _ _ branch more _ _ roots here there settled groups read found
    obtain ⟨after, whole, later⟩ := there settled groups (read.addPieces branch).addBranch _
    refine ⟨after, ?_, ?_⟩
    · obtain ⟨next, more, rfl⟩ := roots.ne_nil
      rw [whole, Alternatives.addBranch_complete, Alternatives.addPieces_complete, List.append_nil]
    · rw [noteAll_append]
      exact ((here (.of_head (by decide) _) groups read found).trans advances_bar).trans later

/-! ## The whole text -/

theorem readAll_iff {rounds : Nat} (enough : text.length < rounds) (offset : Nat) :
    readAll rounds ⟨text, offset⟩ [] {} [] = .ok (root, all) ↔
      ∃ marks, RootText False text root marks [] ∧ all = marks.eraseDups := by
  have noted (marks : List Lookaround) : noteAll [] marks = marks.eraseDups := by simp [noteAll_eq]
  constructor
  · intro reads
    cases closes_of_readAll reads with
    | @whole _ _ more _ marks roots complete same =>
      rw [roots.complete_empty] at complete
      exact ⟨marks, complete ▸ roots, by rw [← noted, same]⟩
  · rintro ⟨marks, roots, rfl⟩
    obtain ⟨after, whole, advances⟩ := advances_root roots settled_nil [] {} []
    obtain ⟨left, behind, enough, same⟩ := advances rounds offset enough
    obtain ⟨left, rfl⟩ := Nat.exists_eq_add_one_of_ne_zero (Nat.ne_zero_of_lt enough)
    rw [roots.complete_empty] at whole
    rw [same, ← noted, ← whole]
    rfl

theorem derives_empty_iff {caret : Prop} : Derives caret "" root found ↔ root = [] ∧ found = [] := by
  constructor
  · rintro (_ | ⟨some_, _⟩)
    · exact ⟨rfl, rfl⟩
    · exact absurd rfl some_
  · rintro ⟨rfl, rfl⟩
    exact .empty

theorem derives_iff {caret : Prop} {text : String} (some_ : text ≠ "") :
    Derives caret text root found ↔ RootText caret text.toList root found [] := by
  constructor
  · rintro (_ | ⟨_, roots⟩)
    · exact absurd rfl some_
    · exact roots
  · exact .whole some_

theorem readAll_iff_derives {text : String} (some_ : text ≠ "") :
    readAll (text.toList.length + 1) ⟨text.toList, 0⟩ [] {} [] = .ok (root, all) ↔
      ∃ marks, Derives False text root marks ∧ all = marks.eraseDups := by
  simp only [derives_iff some_]
  exact readAll_iff (Nat.lt_succ_self _) 0

theorem derives_of_ofText {text : String} (parsed : ofText text = .ok root) : Derives False text root [] := by
  by_cases empty : text = ""
  · subst empty
    cases parsed
    exact .empty
  have filled : text.toList.isEmpty = false := by simpa using empty
  simp only [ofText, filled, Bool.false_eq_true, ↓reduceIte] at parsed
  split at parsed
  · cases parsed
  · rename_i reads
    cases parsed
    obtain ⟨marks, derived, none⟩ := (readAll_iff_derives empty).mp reads
    obtain rfl := eraseDups_eq_nil_iff.mp none.symm
    exact derived
  · cases parsed

/-- A text is read as what it stands for, or refused for its lookarounds, which are named once each; it is
no regexp if and only if nothing derives it. A class that begins with a `^` is negated. -/
theorem ofText_iff_derives (text : String) :
    (∀ root, ofText text = .ok root ↔ Derives False text root []) ∧
      (∀ found, ofText text = .error (.unsupported (.lookarounds found)) ↔
        ∃ root marks, Derives False text root marks ∧ marks ≠ [] ∧ found = marks.eraseDups) ∧
      ((∃ error, ofText text = .error (.regexp error)) ↔ ¬ ∃ root marks, Derives False text root marks) := by
  by_cases empty : text = ""
  · subst empty
    have read : ofText "" = .ok [] := rfl
    simp only [read, derives_empty_iff]
    refine ⟨fun root => ?_, fun found => ?_, ?_⟩
    · simp [eq_comm]
    · simp
    · simp
  have filled : text.toList.isEmpty = false := by simpa using empty
  have whole {root : Root} {all : List Lookaround} := @readAll_iff_derives root all _ text empty
  simp only [ofText, filled, Bool.false_eq_true, ↓reduceIte]
  cases reads : readAll (text.toList.length + 1) ⟨text.toList, 0⟩ [] {} [] with
  | error error =>
    simp only [reads, reduceCtorEq, false_iff, not_exists, not_and] at whole
    have none (root : Root) (marks : List Lookaround) : ¬ Derives False text root marks :=
      fun derived => whole marks derived rfl
    simp [none]
  | ok result =>
    obtain ⟨root, all⟩ := result
    simp only [reads, Except.ok.injEq, Prod.mk.injEq] at whole
    obtain ⟨marks, derived, noted⟩ := whole.mp ⟨rfl, rfl⟩
    -- Nothing else is derived but for the lookarounds that begin again.
    have same {other : Root} {marksOther : List Lookaround} (derivedOther : Derives False text other marksOther) :
        root = other ∧ all = marksOther.eraseDups := whole.mpr ⟨marksOther, derivedOther, rfl⟩
    have exists_ : ∃ root marks, Derives False text root marks := ⟨root, marks, derived⟩
    cases all with
    | nil =>
      obtain rfl := eraseDups_eq_nil_iff.mp noted.symm
      refine ⟨fun other => ⟨fun read => ?_, fun derivedOther => ?_⟩, fun found => ⟨nofun, ?_⟩, ⟨nofun, ?_⟩⟩
      · cases read
        exact derived
      · rw [(same derivedOther).1]
      · rintro ⟨other, marksOther, derivedOther, some_, _⟩
        exact absurd (eraseDups_eq_nil_iff.mp (same derivedOther).2.symm) some_
      · exact fun none => absurd exists_ none
    | cons first others =>
      refine ⟨fun other => ⟨nofun, fun derivedOther => ?_⟩, fun found => ⟨fun read => ?_, ?_⟩, ⟨nofun, ?_⟩⟩
      · cases (same derivedOther).2
      · cases read
        refine ⟨root, marks, derived, ?_, noted⟩
        rintro rfl
        cases noted
      · rintro ⟨other, marksOther, derivedOther, _, rfl⟩
        rw [← (same derivedOther).2]
      · exact fun none => absurd exists_ none

end

/-- Elements of classes may be `^`, and yet `[^]` is no class of one element but a negated one of none. -/
theorem derives_caret_unread :
    Derives True "[^]" [[.once (.runes [.single '^'])]] [] ∧
      ofText "[^]" = .error (.regexp ⟨.invalidInClass ']', 2⟩) := by
  refine ⟨.whole (by decide) (.branch (.piece (.repeated (.plain (.expression ?_)) .once) .empty)), rfl⟩
  have rune : ClassRune ['^', ']'] '^' [']'] := .plain (by decide) (by decide)
  have set : RuneSet.simplify ([.single '^'] ++ []) = [.single '^'] := by cbv
  exact set ▸ .plain (Or.inl trivial) (.element (.rune rune) .none)

end ByteAutomata.Regexp
