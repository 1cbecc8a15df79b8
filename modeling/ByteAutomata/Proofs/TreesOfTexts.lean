import ByteAutomata.Proofs.LoopBodies

/-!
Trees of texts.

In the tree of a regexp that was read from a text no set of runes has swapped ends, however the set came about. And
since bounds are in order there, an atom counts as nullable just if it can read nothing.
-/

namespace ByteAutomata.Regexp

/-! ## Sets of texts -/

/-- No interval of the atom's own set has swapped ends. -/
def Atom.Proper : Atom → Prop
  | .runes set => set.Proper
  | .property _ set => set.Proper
  | _ => True

theorem proper_of_classEscape? {mark : Char} {set : RuneSet} (known : classEscape? mark = some set) :
    set.Proper := by
  have plain : digits.Proper ∧ wordRunes.Proper ∧ spaces.Proper := by
    simp [digits, wordRunes, spaces, RuneSet.Proper]
  unfold classEscape? at known
  split at known
  · exact Option.some.inj known ▸ plain.1
  · exact Option.some.inj known ▸ RuneSet.invert_proper _
  · exact Option.some.inj known ▸ plain.2.1
  · exact Option.some.inj known ▸ RuneSet.invert_proper _
  · exact Option.some.inj known ▸ plain.2.2
  · exact Option.some.inj known ▸ RuneSet.invert_proper _
  · cases known

section

variable [Unicode.Database] {text rest : List Char} {set : RuneSet} {caret : Prop}

theorem PlainAtom.pieces_eq {atom : Atom} (plain : PlainAtom caret text atom rest) : atom.pieces = [] := by
  cases plain <;> simp [Atom.pieces]

variable [Unicode.LawfulCategories]

theorem PropertyEscape.proper {name : String} (escaped : PropertyEscape text name set rest) : set.Proper := by
  cases escaped with
  | known known =>
    split
    · exact RuneSet.invert_proper _
    · exact Unicode.proper_of_property? known

theorem ClassElement.proper (element : ClassElement text set rest) : set.Proper := by
  cases element with
  | rune _ => exact RuneSet.proper_single _
  | range _ _ order => exact fun interval listed => List.mem_singleton.mp listed ▸ order
  | escaped known => exact proper_of_classEscape? known
  | property escaped => exact escaped.proper

theorem ClassItems.proper (items : ClassItems text set rest) : set.Proper := by
  induction items with
  | none => exact fun _ listed => nomatch listed
  | dash => exact RuneSet.proper_single '-'
  | element first _ ih => exact RuneSet.proper_append first.proper ih

theorem ClassBody.proper (body : ClassBody text set rest) : set.Proper := by
  cases body with
  | dash items => exact RuneSet.proper_append (RuneSet.proper_single '-') items.proper
  | element first items => exact RuneSet.proper_append first.proper items.proper

theorem PlainAtom.proper {atom : Atom} (plain : PlainAtom caret text atom rest) : atom.Proper := by
  cases plain with
  | rune _ => exact RuneSet.proper_single _
  | dot => trivial
  | escaped _ => exact RuneSet.proper_single _
  | class_ known => exact proper_of_classEscape? known
  | property escaped => exact escaped.proper
  | expression expression =>
    cases expression with
    | plain _ body => exact RuneSet.simplify_proper body.proper
    | negated body => exact RuneSet.invert_proper _

/-- No set in the tree of a regexp has an interval with swapped ends. -/
theorem RootText.proper {root : Root} {marks : List Lookaround} (roots : RootText caret text root marks rest) :
    ∀ piece ∈ rootPieces root, piece.atom.Proper := by
  refine RootText.induction
    (fun _ piece _ _ => ∀ inner ∈ piece.pieces, inner.atom.Proper)
    (fun _ branch _ _ => ∀ inner ∈ branchPieces branch, inner.atom.Proper)
    (fun _ root _ _ => ∀ inner ∈ rootPieces root, inner.atom.Proper)
    ?plain ?group ?empty ?piece ?branch ?choice roots
  case plain =>
    intro _ _ _ atom _ plain behind
    obtain ⟨least, most, rfl, _⟩ := behind.exists_eq
    rw [Piece.pieces, plain.pieces_eq, List.forall_mem_singleton]
    exact plain.proper
  case group =>
    intro _ _ _ _ _ root _ _ _ _ behind inner
    obtain ⟨least, most, rfl, _⟩ := behind.exists_eq
    rw [Piece.pieces, Atom.pieces, List.forall_mem_cons]
    exact ⟨trivial, inner⟩
  case empty =>
    intro _
    rw [branchPieces]
    exact fun _ listed => nomatch listed
  case piece =>
    intro _ _ _ _ _ _ _ _ here there
    rw [branchPieces, List.forall_mem_append]
    exact ⟨here, there⟩
  case branch =>
    intro _ _ _ _ here
    rw [rootPieces, rootPieces, List.append_nil]
    exact here
  case choice =>
    intro _ _ _ _ _ _ _ _ here there
    rw [rootPieces, List.forall_mem_append]
    exact ⟨here, there⟩

theorem proper_of_text {text : String} {root : Root} (parsed : ofText text = .ok root) :
    ∀ piece ∈ rootPieces root, piece.atom.Proper := by
  cases derives_of_ofText parsed with
  | empty =>
    rw [rootPieces]
    exact fun _ listed => nomatch listed
  | whole _ roots => exact roots.proper

end

/-! ## What is nullable -/

mutual

/-- With bounds in order, only what can read nothing counts as nullable. -/
theorem Atom.nil_of_isNullable : ∀ (atom : Atom), atom.Ordered → atom.isNullable → [] ∈ atom.language
  | .dot, _, nullable => by simp [Atom.isNullable] at nullable
  | .runes _, _, nullable => by simp [Atom.isNullable] at nullable
  | .group [], _, _ => by
    rw [Atom.language, rootLanguage]
    exact Language.nil_mem_one
  | .group (branch :: rest), ordered, nullable => by
    rw [Atom.Ordered, rootOrdered] at ordered
    rw [Atom.isNullable, anyNullable, List.isEmpty_cons, Bool.false_or, Bool.or_eq_true] at nullable
    rw [Atom.language, rootLanguage]
    exact nullable.imp (nil_of_allNullable branch ordered.1) (nil_of_anyNullable rest ordered.2)
  | .property _ _, _, nullable => by simp [Atom.isNullable] at nullable

theorem Piece.nil_of_isNullable : ∀ (piece : Piece), piece.Ordered → piece.isNullable → [] ∈ piece.language
  | .mk atom least most, ordered, nullable => by
    rw [Piece.Ordered] at ordered
    rw [Piece.isNullable, Bool.or_eq_true, beq_iff_eq] at nullable
    rw [Piece.language, mem_repeated]
    rcases nullable with rfl | nullable
    · exact ⟨0, le_rfl, fun _ _ => Nat.zero_le _, Language.nil_mem_one⟩
    · refine ⟨least, le_rfl, ordered.1, Language.mem_pow.mpr ⟨List.replicate least [], by simp, by simp, ?_⟩⟩
      exact fun word listed => List.eq_of_mem_replicate listed ▸ Atom.nil_of_isNullable atom ordered.2 nullable

theorem nil_of_allNullable : ∀ (branch : Branch), branchOrdered branch → allNullable branch →
    [] ∈ branchLanguage branch
  | [], _, _ => by
    rw [branchLanguage]
    exact Language.nil_mem_one
  | piece :: rest, ordered, nullable => by
    rw [branchOrdered] at ordered
    rw [allNullable, Bool.and_eq_true] at nullable
    rw [branchLanguage]
    exact Language.append_mem_mul (Piece.nil_of_isNullable piece ordered.1 nullable.1)
      (nil_of_allNullable rest ordered.2 nullable.2)

theorem nil_of_anyNullable : ∀ (root : Root), rootOrdered root → anyNullable root → [] ∈ anyLanguage root
  | [], _, nullable => by simp [anyNullable] at nullable
  | branch :: rest, ordered, nullable => by
    rw [rootOrdered] at ordered
    rw [anyNullable, Bool.or_eq_true] at nullable
    rw [anyLanguage]
    exact nullable.imp (nil_of_allNullable branch ordered.1) (nil_of_anyNullable rest ordered.2)

end

end ByteAutomata.Regexp
