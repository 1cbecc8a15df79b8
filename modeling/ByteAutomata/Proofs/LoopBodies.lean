import ByteAutomata.Proofs.RegexpMeanings

/-!
What loops are put around.

Building a plan returns the state behind it where there is nothing to build, and a loop around such a body
would lead into itself. The compiler refuses loops around atoms that count as nullable. This tells the atoms
for which nothing is built as long as a piece that is to be repeated no times at all counts as nullable too,
which it does if no least number is above its greatest one, as in all regexps that were read from a text.
-/

namespace ByteAutomata.Regexp

open Compile

/-! ## The pieces of a tree -/

mutual

/-- The pieces in an atom, at any depth. -/
def Atom.pieces : Atom → List Piece
  | .group root => rootPieces root
  | _ => []

/-- A piece and the pieces in its atom. -/
def Piece.pieces : Piece → List Piece
  | .mk atom least most => .mk atom least most :: atom.pieces

def branchPieces : Branch → List Piece
  | [] => []
  | piece :: rest => piece.pieces ++ branchPieces rest

def rootPieces : Root → List Piece
  | [] => []
  | branch :: rest => branchPieces branch ++ rootPieces rest

end

/-- A piece that is to be repeated no times at all counts as nullable. -/
def Piece.NullableIfOmitted (piece : Piece) : Prop := piece.most = some 0 → piece.isNullable

/-- In what is repeated without limit, all pieces that are left out count as nullable. -/
def LoopsNullable (pieces : List Piece) : Prop :=
  ∀ piece ∈ pieces, piece.most = none → ∀ inner ∈ piece.atom.pieces, inner.NullableIfOmitted

mutual

theorem Atom.ordered_of_mem : ∀ (atom : Atom), atom.Ordered → ∀ inner ∈ atom.pieces, inner.Ordered
  | .dot, _, _, listed => by simp [Atom.pieces] at listed
  | .runes _, _, _, listed => by simp [Atom.pieces] at listed
  | .group root, ordered, inner, listed => by
    rw [Atom.pieces] at listed
    rw [Atom.Ordered] at ordered
    exact ordered_of_mem_root root ordered inner listed
  | .property _ _, _, _, listed => by simp [Atom.pieces] at listed

theorem Piece.ordered_of_mem : ∀ (piece : Piece), piece.Ordered → ∀ inner ∈ piece.pieces, inner.Ordered
  | .mk atom least most, ordered, inner, listed => by
    rw [Piece.pieces] at listed
    rcases List.mem_cons.mp listed with rfl | deeper
    · exact ordered
    · rw [Piece.Ordered] at ordered
      exact Atom.ordered_of_mem atom ordered.2 inner deeper

theorem ordered_of_mem_branch : ∀ (branch : Branch), branchOrdered branch →
    ∀ inner ∈ branchPieces branch, inner.Ordered
  | [], _, _, listed => by
    rw [branchPieces] at listed
    cases listed
  | piece :: rest, ordered, inner, listed => by
    rw [branchOrdered] at ordered
    rw [branchPieces] at listed
    rcases List.mem_append.mp listed with here | there
    · exact Piece.ordered_of_mem piece ordered.1 inner here
    · exact ordered_of_mem_branch rest ordered.2 inner there

theorem ordered_of_mem_root : ∀ (root : Root), rootOrdered root → ∀ inner ∈ rootPieces root, inner.Ordered
  | [], _, _, listed => by
    rw [rootPieces] at listed
    cases listed
  | branch :: rest, ordered, inner, listed => by
    rw [rootOrdered] at ordered
    rw [rootPieces] at listed
    rcases List.mem_append.mp listed with here | there
    · exact ordered_of_mem_branch branch ordered.1 inner here
    · exact ordered_of_mem_root rest ordered.2 inner there

end

theorem Piece.Ordered.nullableIfOmitted {piece : Piece} (ordered : piece.Ordered) :
    piece.NullableIfOmitted := by
  obtain ⟨atom, least, most⟩ := piece
  rw [Piece.Ordered] at ordered
  rintro rfl
  have none : least = 0 := Nat.le_zero.mp (ordered.1 0 rfl)
  simp [Piece.isNullable, none]

/-- Loops of regexps that were read from a text leave out nothing that does not count as nullable. -/
theorem loopsNullable_of_text [Unicode.Database] {text : String} {root : Root} (parsed : ofText text = .ok root) :
    LoopsNullable (rootPieces root) := by
  rintro ⟨atom, least, most⟩ listed _ inner deeper
  have ordered := ordered_of_mem_root root (wellFormed_of_text parsed).1 _ listed
  rw [Piece.Ordered] at ordered
  exact (Atom.ordered_of_mem atom ordered.2 inner deeper).nullableIfOmitted

/-! ## Plans for which nothing is built -/

namespace Plan

/-- Building may return the state that it is given. -/
def Skips : Plan → Prop
  | skip => True
  | chain first second => first.Skips ∧ second.Skips
  | copies least skippable body => least = 0 ∧ skippable = some 0 ∨ body.Skips
  | either first second => first.Skips ∨ second.Skips
  | _ => False

/-- No loop is put around a body for which nothing may be built. -/
def Grounded : Plan → Prop
  | chain first second => first.Grounded ∧ second.Grounded
  | optional body => body.Grounded
  | loop body => ¬ body.Skips ∧ body.Grounded
  | loopAtLeastOnce body => ¬ body.Skips ∧ body.Grounded
  | copies _ skippable body => (skippable = none → ¬ body.Skips) ∧ body.Grounded
  | either first second => first.Grounded ∧ second.Grounded
  | _ => True

end Plan

mutual

/-- If nothing is built for an atom then it counts as nullable. -/
theorem Atom.isNullable_of_skips (config : Config) : ∀ atom : Atom,
    (∀ inner ∈ atom.pieces, inner.NullableIfOmitted) → (atom.plan config).Skips → atom.isNullable
  | .dot, _, skips => by
    rw [Atom.plan] at skips
    exact skips.elim
  | .runes _, _, skips => by
    rw [Atom.plan] at skips
    exact skips.elim
  | .group root, omitted, skips => by
    rw [Atom.plan] at skips
    rw [Atom.pieces] at omitted
    rw [Atom.isNullable, Bool.or_eq_true, List.isEmpty_iff]
    exact nullable_of_skips_root config root omitted skips
  | .property _ _, _, skips => by
    rw [Atom.plan] at skips
    exact skips.elim

theorem Piece.isNullable_of_skips (config : Config) : ∀ piece : Piece,
    (∀ inner ∈ piece.pieces, inner.NullableIfOmitted) → (piece.plan config).Skips → piece.isNullable
  | .mk atom least most, omitted, skips => by
    rw [Piece.pieces, List.forall_mem_cons] at omitted
    have body (skips : (atom.plan config).Skips) : (Piece.mk atom least most).isNullable := by
      rw [Piece.isNullable, Atom.isNullable_of_skips config atom omitted.2 skips, Bool.or_true]
    rw [Piece.plan] at skips
    by_cases single : (Piece.mk atom least most).isSingleton
    · rw [if_pos single] at skips
      exact body skips
    rw [if_neg single] at skips
    by_cases absent : most = some 0
    · exact omitted.1 absent
    rw [if_neg absent] at skips
    cases checked : checkBounds config (.mk atom least most) with
    | error error =>
      rw [checked] at skips
      exact skips.elim
    | ok _ =>
      simp only [checked] at skips
      by_cases once : (Piece.mk atom least most).isOptional
      · rw [if_pos once] at skips
        exact skips.elim
      rw [if_neg once] at skips
      by_cases star : (Piece.mk atom least most).isStar
      · rw [if_pos star] at skips
        exact skips.elim
      rw [if_neg star] at skips
      by_cases plus : (Piece.mk atom least most).isPlus
      · rw [if_pos plus] at skips
        exact skips.elim
      rw [if_neg plus] at skips
      rcases skips with ⟨rfl, _⟩ | skips
      · rw [Piece.isNullable]
        rfl
      · exact body skips

theorem nullable_of_skips_branch (config : Config) : ∀ branch : Branch,
    (∀ inner ∈ branchPieces branch, inner.NullableIfOmitted) → (branchPlan config branch).Skips →
    allNullable branch
  | [], _, _ => by rw [allNullable]
  | piece :: rest, omitted, skips => by
    rw [branchPieces, List.forall_mem_append] at omitted
    rw [branchPlan] at skips
    rw [allNullable, Bool.and_eq_true]
    exact ⟨Piece.isNullable_of_skips config piece omitted.1 skips.1,
      nullable_of_skips_branch config rest omitted.2 skips.2⟩

theorem nullable_of_skips_joined (config : Config) : ∀ (root : Root) (joined : Plan),
    (∀ inner ∈ rootPieces root, inner.NullableIfOmitted) → (joinedPlan config root joined).Skips →
    joined.Skips ∨ anyNullable root
  | [], joined, _, skips => by
    rw [joinedPlan] at skips
    exact Or.inl skips
  | branch :: rest, joined, omitted, skips => by
    rw [rootPieces, List.forall_mem_append] at omitted
    rw [joinedPlan] at skips
    rw [anyNullable, Bool.or_eq_true]
    rcases nullable_of_skips_joined config rest _ omitted.2 skips with (early | here) | later
    · exact Or.inl early
    · exact Or.inr (Or.inl (nullable_of_skips_branch config branch omitted.1 here))
    · exact Or.inr (Or.inr later)

theorem nullable_of_skips_root (config : Config) : ∀ root : Root,
    (∀ inner ∈ rootPieces root, inner.NullableIfOmitted) → (rootPlan config root).Skips →
    root = [] ∨ anyNullable root
  | [], _, _ => Or.inl rfl
  | branch :: rest, omitted, skips => by
    rw [rootPieces, List.forall_mem_append] at omitted
    rw [rootPlan] at skips
    rw [anyNullable, Bool.or_eq_true]
    exact Or.inr ((nullable_of_skips_joined config rest _ omitted.2 skips).imp_left
      (nullable_of_skips_branch config branch omitted.1))

end

mutual

theorem Atom.plan_grounded (config : Config) : ∀ atom : Atom, LoopsNullable atom.pieces →
    (atom.plan config).Grounded
  | .dot, _ => by
    rw [Atom.plan]
    trivial
  | .runes _, _ => by
    rw [Atom.plan]
    trivial
  | .group root, loops => by
    rw [Atom.pieces] at loops
    rw [Atom.plan]
    exact rootPlan_grounded config root loops
  | .property _ _, _ => by
    rw [Atom.plan]
    trivial

theorem Piece.plan_grounded (config : Config) : ∀ piece : Piece, LoopsNullable piece.pieces →
    (piece.plan config).Grounded
  | .mk atom least most, loops => by
    rw [Piece.pieces, LoopsNullable, List.forall_mem_cons] at loops
    have body := Atom.plan_grounded config atom loops.2
    rw [Piece.plan]
    by_cases single : (Piece.mk atom least most).isSingleton
    · rw [if_pos single]
      exact body
    rw [if_neg single]
    by_cases absent : most = some 0
    · rw [if_pos absent]
      trivial
    rw [if_neg absent]
    cases checked : checkBounds config (.mk atom least most) with
    | error error => trivial
    | ok _ =>
      have unlimited (limit : most = none) : ¬ (atom.plan config).Skips := by
        subst limit
        exact fun skips => not_isNullable_of_checkBounds checked
          (Atom.isNullable_of_skips config atom (loops.1 rfl) skips)
      dsimp only
      by_cases once : (Piece.mk atom least most).isOptional
      · rw [if_pos once]
        exact body
      rw [if_neg once]
      by_cases star : (Piece.mk atom least most).isStar
      · obtain ⟨rfl, rfl⟩ : least = 0 ∧ most = none := by
          simpa [Piece.isStar, Piece.least, Piece.most] using star
        rw [if_pos star]
        exact ⟨unlimited rfl, body⟩
      rw [if_neg star]
      by_cases plus : (Piece.mk atom least most).isPlus
      · obtain ⟨rfl, rfl⟩ : least = 1 ∧ most = none := by
          simpa [Piece.isPlus, Piece.least, Piece.most] using plus
        rw [if_pos plus]
        exact ⟨unlimited rfl, body⟩
      rw [if_neg plus]
      exact ⟨fun limit => unlimited (Option.map_eq_none_iff.mp limit), body⟩

theorem branchPlan_grounded (config : Config) : ∀ branch : Branch, LoopsNullable (branchPieces branch) →
    (branchPlan config branch).Grounded
  | [], _ => by
    rw [branchPlan]
    trivial
  | piece :: rest, loops => by
    rw [branchPieces, LoopsNullable, List.forall_mem_append] at loops
    rw [branchPlan]
    exact ⟨Piece.plan_grounded config piece loops.1, branchPlan_grounded config rest loops.2⟩

theorem joinedPlan_grounded (config : Config) : ∀ (root : Root) (joined : Plan),
    LoopsNullable (rootPieces root) → joined.Grounded → (joinedPlan config root joined).Grounded
  | [], joined, _, grounded => by
    rw [joinedPlan]
    exact grounded
  | branch :: rest, joined, loops, grounded => by
    rw [rootPieces, LoopsNullable, List.forall_mem_append] at loops
    rw [joinedPlan]
    exact joinedPlan_grounded config rest _ loops.2 ⟨grounded, branchPlan_grounded config branch loops.1⟩

theorem rootPlan_grounded (config : Config) : ∀ root : Root, LoopsNullable (rootPieces root) →
    (rootPlan config root).Grounded
  | [], _ => by
    rw [rootPlan]
    trivial
  | branch :: rest, loops => by
    rw [rootPieces, LoopsNullable, List.forall_mem_append] at loops
    rw [rootPlan]
    exact joinedPlan_grounded config rest _ loops.2 (branchPlan_grounded config branch loops.1)

end

end ByteAutomata.Regexp
