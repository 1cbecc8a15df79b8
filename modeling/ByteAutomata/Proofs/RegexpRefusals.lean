import ByteAutomata.Proofs.PlanRefusals
import ByteAutomata.Proofs.TreesOfTexts

/-!
Which regexps are refused.

A regexp that was read from a text is refused if it unrolls to too many atoms, and otherwise if a piece of it has
a bound above the limit or repeats without limit what can read nothing. Pieces inside one that is repeated no times
are not looked at. The count of atoms is kept in a word that saturates, and so it is the exact count or, if that is
no word, the largest one.
-/

namespace ByteAutomata.Regexp

open Arena Compile

/-! ## Copies -/

mutual

/-- How many atoms one repetition of an atom unrolls to. -/
def Atom.copies : Atom → Nat
  | .group root => max 1 (rootCopies root)
  | _ => 1

def Piece.copies : Piece → Nat
  | .mk atom least most => atom.copies * most.getD (least + 1)

def branchCopies : Branch → Nat
  | [] => 0
  | piece :: rest => piece.copies + branchCopies rest

def rootCopies : Root → Nat
  | [] => 0
  | branch :: rest => branchCopies branch + rootCopies rest

end

/-- A sum saturates alike whether or not its parts did before. -/
theorem saturatingAdd_min (left right : Nat) :
    saturatingAdd (min left maxWord64) (min right maxWord64) = min (left + right) maxWord64 := by
  unfold saturatingAdd
  omega

theorem saturatingMul_min (left right : Nat) :
    saturatingMul (min left maxWord64) right = min (left * right) maxWord64 := by
  unfold saturatingMul
  cases right with
  | zero => rw [Nat.mul_zero, Nat.mul_zero]
  | succ right =>
    rcases Nat.le_total left maxWord64 with small | large
    · rw [Nat.min_eq_left small]
    · have grown (factor : Nat) : factor ≤ factor * (right + 1) := Nat.le_mul_of_pos_right factor right.succ_pos
      rw [Nat.min_eq_right large, Nat.min_eq_right (grown _), Nat.min_eq_right (le_trans large (grown _))]

mutual

theorem Atom.expansion_eq : ∀ atom : Atom, atom.expansion = min atom.copies maxWord64
  | .dot => by simp [Atom.expansion, Atom.copies, maxWord64]
  | .runes _ => by simp [Atom.expansion, Atom.copies, maxWord64]
  | .group root => by
    have saturated := rootExpansionFrom_eq root 0
    rw [Nat.zero_add, Nat.zero_min] at saturated
    have one : 1 ≤ maxWord64 := by decide
    rw [Atom.expansion, Atom.copies, saturated]
    omega
  | .property _ _ => by simp [Atom.expansion, Atom.copies, maxWord64]

theorem Piece.expansion_eq : ∀ piece : Piece, piece.expansion = min piece.copies maxWord64
  | .mk atom least most => by
    rw [Piece.expansion, Piece.copies, Atom.expansion_eq atom, saturatingMul_min]

theorem branchExpansionFrom_eq : ∀ (branch : Branch) (total : Nat),
    branchExpansionFrom (min total maxWord64) branch = min (total + branchCopies branch) maxWord64
  | [], total => by rw [branchExpansionFrom, branchCopies, Nat.add_zero]
  | piece :: rest, total => by
    rw [branchExpansionFrom, branchCopies, Piece.expansion_eq piece, saturatingAdd_min, branchExpansionFrom_eq rest,
      Nat.add_assoc]

theorem rootExpansionFrom_eq : ∀ (root : Root) (total : Nat),
    rootExpansionFrom (min total maxWord64) root = min (total + rootCopies root) maxWord64
  | [], total => by rw [rootExpansionFrom, rootCopies, Nat.add_zero]
  | branch :: rest, total => by
    rw [rootExpansionFrom, rootCopies, branchExpansionFrom_eq branch, rootExpansionFrom_eq rest, Nat.add_assoc]

end

/-- The count that is kept is the exact one as long as that is a word. -/
theorem rootExpansion_eq (root : Root) : rootExpansion root = min (rootCopies root) maxWord64 := by
  have saturated := rootExpansionFrom_eq root 0
  rwa [Nat.zero_add, Nat.zero_min] at saturated

theorem lt_rootExpansion_iff {limit : Nat} (word : limit < maxWord64) (root : Root) :
    limit < rootExpansion root ↔ limit < rootCopies root := by
  rw [rootExpansion_eq]
  omega

/-! ## Pieces that are compiled -/

mutual

/-- The pieces in an atom in the order in which they are compiled, less those inside a piece that is repeated no
times. -/
def Atom.reached : Atom → List Piece
  | .group root => rootReached root
  | _ => []

def Piece.reached : Piece → List Piece
  | .mk atom least most => .mk atom least most :: if most = some 0 then [] else atom.reached

/-- The last piece of a branch is compiled first. -/
def branchReached : Branch → List Piece
  | [] => []
  | piece :: rest => branchReached rest ++ piece.reached

def rootReached : Root → List Piece
  | [] => []
  | branch :: rest => branchReached branch ++ rootReached rest

end

mutual

theorem Atom.mem_pieces_of_reached : ∀ (atom : Atom), ∀ inner ∈ atom.reached, inner ∈ atom.pieces
  | .dot, _, listed => by simp [Atom.reached] at listed
  | .runes _, _, listed => by simp [Atom.reached] at listed
  | .group root, inner, listed => by
    rw [Atom.reached] at listed
    rw [Atom.pieces]
    exact mem_rootPieces_of_reached root inner listed
  | .property _ _, _, listed => by simp [Atom.reached] at listed

theorem Piece.mem_pieces_of_reached : ∀ (piece : Piece), ∀ inner ∈ piece.reached, inner ∈ piece.pieces
  | .mk atom least most, inner, listed => by
    rw [Piece.reached] at listed
    rw [Piece.pieces]
    rcases List.mem_cons.mp listed with here | deeper
    · exact here ▸ List.mem_cons_self
    · by_cases absent : most = some 0
      · rw [if_pos absent] at deeper
        cases deeper
      · rw [if_neg absent] at deeper
        exact List.mem_cons_of_mem _ (Atom.mem_pieces_of_reached atom inner deeper)

theorem mem_branchPieces_of_reached : ∀ (branch : Branch), ∀ inner ∈ branchReached branch, inner ∈ branchPieces branch
  | [], _, listed => by
    rw [branchReached] at listed
    cases listed
  | piece :: rest, inner, listed => by
    rw [branchReached] at listed
    rw [branchPieces]
    rcases List.mem_append.mp listed with there | here
    · exact List.mem_append_right _ (mem_branchPieces_of_reached rest inner there)
    · exact List.mem_append_left _ (Piece.mem_pieces_of_reached piece inner here)

theorem mem_rootPieces_of_reached : ∀ (root : Root), ∀ inner ∈ rootReached root, inner ∈ rootPieces root
  | [], _, listed => by
    rw [rootReached] at listed
    cases listed
  | branch :: rest, inner, listed => by
    rw [rootReached] at listed
    rw [rootPieces]
    rcases List.mem_append.mp listed with here | there
    · exact List.mem_append_left _ (mem_branchPieces_of_reached branch inner here)
    · exact List.mem_append_right _ (mem_rootPieces_of_reached rest inner there)

end

/-! ## Refusals of pieces -/

/-- The refusal of a set with an interval whose ends are swapped. -/
def Atom.setRefusal? : Atom → Option PatternError
  | .runes set => set.firstSwapped?.map .invalidRuneRange
  | .property _ set => set.firstSwapped?.map .invalidRuneRange
  | _ => none

theorem Atom.Proper.setRefusal?_eq {atom : Atom} (proper : atom.Proper) : atom.setRefusal? = none := by
  cases atom with
  | dot => rfl
  | group root => rfl
  | runes set => exact congrArg (Option.map _) (RuneSet.firstSwapped?_eq_none_iff.mpr proper)
  | property name set => exact congrArg (Option.map _) (RuneSet.firstSwapped?_eq_none_iff.mpr proper)

/-- The refusal of the bounds of a piece, which are not looked at if it is read exactly once. -/
def Piece.boundsRefusal? (config : Config) (piece : Piece) : Option PatternError :=
  if piece.isSingleton then none
  else match checkBounds config piece with
    | .error error => some error
    | .ok () => none

/-- The refusal of a piece for what it says itself and not for the pieces in it. -/
def Piece.refusal? (config : Config) (piece : Piece) : Option PatternError :=
  if piece.most = some 0 then none else (piece.boundsRefusal? config).or piece.atom.setRefusal?

variable {config : Config}

theorem findSome?_refusal_cons (piece : Piece) (rest : List Piece) :
    (piece :: rest).findSome? (Piece.refusal? config) =
      (piece.refusal? config).or (rest.findSome? (Piece.refusal? config)) := by
  rw [List.findSome?_cons]
  cases piece.refusal? config <;> rfl

mutual

theorem Atom.plan_refusal (config : Config) : ∀ atom : Atom,
    (atom.plan config).refusal = atom.setRefusal?.or (atom.reached.findSome? (Piece.refusal? config))
  | .dot => by simp [Atom.plan, Atom.reached, Atom.setRefusal?, Plan.refusal]
  | .runes _ => by simp [Atom.plan, Atom.reached, Atom.setRefusal?, Plan.refusal]
  | .group root => by
    rw [Atom.plan, Atom.reached, rootPlan_refusal config root]
    rfl
  | .property _ _ => by simp [Atom.plan, Atom.reached, Atom.setRefusal?, Plan.refusal]

/-- A plan is refused for the first piece that is. -/
theorem Piece.plan_refusal (config : Config) : ∀ piece : Piece,
    (piece.plan config).refusal = piece.reached.findSome? (Piece.refusal? config)
  | .mk atom least most => by
    have body := Atom.plan_refusal config atom
    rw [Piece.reached, findSome?_refusal_cons, Piece.plan]
    by_cases absent : most = some 0
    · have many : ¬ (Piece.mk atom least most).isSingleton := by
        simp [Piece.isSingleton, Piece.most, absent]
      rw [if_neg many, if_pos absent, if_pos absent, Piece.refusal?, Piece.most, if_pos absent]
      rfl
    rw [if_neg absent, if_neg absent, Piece.refusal?, Piece.most, if_neg absent, Piece.boundsRefusal?, Option.or_assoc]
    by_cases single : (Piece.mk atom least most).isSingleton
    · rw [if_pos single, if_pos single]
      exact body
    rw [if_neg single, if_neg single]
    cases checkBounds config (.mk atom least most) with
    | error error => rfl
    | ok _ =>
      -- Whichever way the body is put to use, it is compiled once and there is nothing else to refuse.
      dsimp only
      split
      · exact body
      · split
        · exact body
        · split <;> exact body

theorem branchPlan_refusal (config : Config) : ∀ branch : Branch,
    (branchPlan config branch).refusal = (branchReached branch).findSome? (Piece.refusal? config)
  | [] => by
    rw [branchPlan, branchReached]
    rfl
  | piece :: rest => by
    rw [branchPlan, branchReached, List.findSome?_append, Plan.refusal, branchPlan_refusal config rest,
      Piece.plan_refusal config piece]

theorem joinedPlan_refusal (config : Config) : ∀ (root : Root) (joined : Plan),
    (joinedPlan config root joined).refusal =
      joined.refusal.or ((rootReached root).findSome? (Piece.refusal? config))
  | [], joined => by rw [joinedPlan, rootReached, List.findSome?_nil, Option.or_none]
  | branch :: rest, joined => by
    rw [joinedPlan, rootReached, List.findSome?_append, joinedPlan_refusal config rest, Plan.refusal,
      branchPlan_refusal config branch, Option.or_assoc]

theorem rootPlan_refusal (config : Config) : ∀ root : Root,
    (rootPlan config root).refusal = (rootReached root).findSome? (Piece.refusal? config)
  | [] => by
    rw [rootPlan, rootReached]
    rfl
  | branch :: rest => by
    rw [rootPlan, rootReached, List.findSome?_append, joinedPlan_refusal config rest, branchPlan_refusal config branch]

end

/-! ## What is refused -/

/-- Repeated neither exactly once nor no times. -/
def Piece.IsRepeated (piece : Piece) : Prop :=
  ¬ (piece.least = 1 ∧ piece.most = some 1) ∧ piece.most ≠ some 0

/-- What a piece is refused for: a bound above the limit, or no limit over what can read nothing. -/
inductive Piece.Offends (config : Config) (piece : Piece) : PatternError → Prop
  | bound {bound : Nat} : bound = piece.least ∨ piece.most = some bound → config.maxQuantifier < bound →
      Offends config piece (.quantifierTooLarge bound config.maxQuantifier)
  | closure : piece.most = none → [] ∈ piece.atom.language → Offends config piece .degenerateClosure

theorem isSingleton_iff {piece : Piece} : piece.isSingleton = true ↔ piece.least = 1 ∧ piece.most = some 1 := by
  simp [Piece.isSingleton]

theorem checkBounds_none (config : Config) (atom : Atom) (least : Nat) :
    checkBounds config (.mk atom least none) =
      if config.maxQuantifier < least then .error (.quantifierTooLarge least config.maxQuantifier)
      else if atom.isNullable then .error .degenerateClosure else .ok () := by
  change (do
    if config.maxQuantifier < least then throw (.quantifierTooLarge least config.maxQuantifier)
    if atom.isNullable then throw .degenerateClosure : Except PatternError Unit) = _
  split <;> rfl

theorem checkBounds_some (config : Config) (atom : Atom) (least most : Nat) :
    checkBounds config (.mk atom least (some most)) =
      if config.maxQuantifier < least then .error (.quantifierTooLarge least config.maxQuantifier)
      else if config.maxQuantifier < most then .error (.quantifierTooLarge most config.maxQuantifier)
      else if most < least then .error (.unsupported (.mostBelowLeast least most)) else .ok () := by
  change (do
    if config.maxQuantifier < least then throw (.quantifierTooLarge least config.maxQuantifier)
    if config.maxQuantifier < most then throw (.quantifierTooLarge most config.maxQuantifier)
    if most < least then throw (.unsupported (.mostBelowLeast least most)) : Except PatternError Unit) = _
  split <;> [rfl; skip]
  split <;> rfl

namespace Piece

variable {piece : Piece} {error : PatternError}

/-- Bounds in order are refused for no other reasons. -/
theorem offends_of_checkBounds (ordered : piece.Ordered) (refused : checkBounds config piece = .error error) :
    piece.Offends config error := by
  obtain ⟨atom, least, most⟩ := piece
  rw [Piece.Ordered] at ordered
  cases most with
  | none =>
    rw [checkBounds_none] at refused
    by_cases large : config.maxQuantifier < least
    · rw [if_pos large, Except.error.injEq] at refused
      exact refused ▸ .bound (Or.inl rfl) large
    rw [if_neg large] at refused
    by_cases nullable : atom.isNullable
    · rw [if_pos nullable, Except.error.injEq] at refused
      exact refused ▸ .closure rfl (Atom.nil_of_isNullable atom ordered.2 nullable)
    · rw [if_neg nullable] at refused
      cases refused
  | some most =>
    rw [checkBounds_some] at refused
    by_cases large : config.maxQuantifier < least
    · rw [if_pos large, Except.error.injEq] at refused
      exact refused ▸ .bound (Or.inl rfl) large
    rw [if_neg large] at refused
    by_cases larger : config.maxQuantifier < most
    · rw [if_pos larger, Except.error.injEq] at refused
      exact refused ▸ .bound (Or.inr rfl) larger
    · rw [if_neg larger, if_neg (Nat.not_lt.mpr (ordered.1 most rfl))] at refused
      cases refused

theorem Offends.exists_error (offends : piece.Offends config error) :
    ∃ found, checkBounds config piece = .error found := by
  obtain ⟨atom, least, most⟩ := piece
  cases checked : checkBounds config (.mk atom least most) with
  | error found => exact ⟨found, rfl⟩
  | ok _ =>
    exfalso
    cases offends with
    | closure unlimited nothing =>
      obtain rfl : most = none := unlimited
      exact not_isNullable_of_checkBounds checked (Atom.isNullable_of_nil nothing)
    | @bound bound one large =>
      cases most with
      | none =>
        obtain rfl : bound = least := one.resolve_right fun same => nomatch same
        rw [checkBounds_none, if_pos large] at checked
        cases checked
      | some most =>
        rw [checkBounds_some] at checked
        rcases one with rfl | same
        · rw [if_pos large] at checked
          cases checked
        · obtain rfl := Option.some.inj same
          rw [if_pos large] at checked
          split at checked <;> cases checked

theorem refusal?_eq_some (ordered : piece.Ordered) (proper : piece.atom.Proper)
    (refused : piece.refusal? config = some error) : piece.IsRepeated ∧ piece.Offends config error := by
  unfold refusal? at refused
  by_cases absent : piece.most = some 0
  · rw [if_pos absent] at refused
    cases refused
  rw [if_neg absent, proper.setRefusal?_eq, Option.or_none, boundsRefusal?] at refused
  by_cases single : piece.isSingleton
  · rw [if_pos single] at refused
    cases refused
  rw [if_neg single] at refused
  refine ⟨⟨fun once => single (isSingleton_iff.mpr once), absent⟩, ?_⟩
  split at refused
  · rename_i checked
    exact Option.some.inj refused ▸ offends_of_checkBounds ordered checked
  · cases refused

theorem IsRepeated.exists_refusal? (counts : piece.IsRepeated) (offends : piece.Offends config error) :
    ∃ found, piece.refusal? config = some found := by
  obtain ⟨found, checked⟩ := offends.exists_error
  have many : ¬ piece.isSingleton := fun single => counts.1 (isSingleton_iff.mp single)
  exact ⟨found, by rw [refusal?, if_neg counts.2, boundsRefusal?, if_neg many, checked]; rfl⟩

end Piece

/-- The plan of a tree of a text is refused for a piece that is repeated and has a bound that is too large or none over
what can read nothing, and if there is such a piece then it is refused. -/
theorem rootPlan_refusal_eq_some [Unicode.Database] [Unicode.LawfulCategories] {text : String} {root : Root}
    (parsed : ofText text = .ok root) {error : PatternError}
    (refused : (rootPlan config root).refusal = some error) :
    ∃ piece ∈ rootReached root, piece.IsRepeated ∧ piece.Offends config error := by
  rw [rootPlan_refusal] at refused
  obtain ⟨piece, listed, found⟩ := List.exists_of_findSome?_eq_some refused
  have member := mem_rootPieces_of_reached root piece listed
  have ordered := ordered_of_mem_root root (wellFormed_of_text parsed).1 piece member
  exact ⟨piece, listed, Piece.refusal?_eq_some ordered (proper_of_text parsed piece member) found⟩

theorem isSome_rootPlan_refusal {root : Root} {piece : Piece} (listed : piece ∈ rootReached root)
    (counts : piece.IsRepeated) {error : PatternError} (offends : piece.Offends config error) :
    (rootPlan config root).refusal.isSome := by
  obtain ⟨found, refused⟩ := counts.exists_refusal? offends
  rw [rootPlan_refusal, List.findSome?_isSome_iff]
  exact ⟨piece, listed, by rw [refused]; rfl⟩

/-! ## Whole regexps -/

/-- Whatever compilations have filled the cache, a regexp that was read from a text is compiled without a fault. It is
refused for its size if it unrolls to more atoms than the limit. Otherwise it is refused if and only if a piece that is
repeated, and not inside one that is repeated no times, has a bound above the limit or no limit over what can read
nothing, and for no other reason. -/
theorem compile_refuses_iff [Unicode.Database] [Unicode.LawfulCategories] {text : String} {root : Root}
    (parsed : ofText text = .ok root) (config : Config)
    (word : config.maxExpansion < maxWord64) {cache : TemplateCache}
    (filled : cache.FilledBy fun other => ∃ source, ofText source = .ok other) {arena : Arena}
    (formed : arena.WellFormed) {next : StateId} (inside : next < arena.size) (quoted : Bool) :
    ∃ outcome after, (compile config root quoted (some next)).runIn { arena, cache } = .ok (outcome, after) ∧
      ((∃ copies limit, outcome = .error (.expansionTooLarge copies limit)) ↔
        config.maxExpansion < rootCopies root) ∧
      (config.maxExpansion < rootCopies root →
        outcome = .error (.expansionTooLarge (min (rootCopies root) maxWord64) config.maxExpansion)) ∧
      (rootCopies root ≤ config.maxExpansion →
        ((∃ error, outcome = .error error) ↔
          ∃ piece ∈ rootReached root, piece.IsRepeated ∧ ∃ error, piece.Offends config error) ∧
        ∀ error, outcome = .error error →
          ∃ piece ∈ rootReached root, piece.IsRepeated ∧ piece.Offends config error) := by
  by_cases excess : config.maxExpansion < rootCopies root
  · have ran := congrArg (Compile.runIn · { arena, cache })
      (compile_of_excess ((lt_rootExpansion_iff word root).mpr excess) quoted (some next))
    refine ⟨_, _, ran, ⟨fun _ => excess, fun _ => ⟨_, _, rfl⟩⟩, fun _ => by rw [rootExpansion_eq], fun within => ?_⟩
    exact absurd excess (Nat.not_lt.mpr within)
  · have within : ¬ config.maxExpansion < rootExpansion root := fun large =>
      excess ((lt_rootExpansion_iff word root).mp large)
    have honest : cache.Honest := filled.holds (fun _ => .canonical) fun _ other property listed => by
      obtain ⟨_, parsedOther⟩ := other
      exact .property ((wellFormed_of_text parsedOther).2 property listed)
    have named : (rootPlan config root).Named fun key set => set.Named key :=
      rootPlan_named config (fun _ => .canonical) root fun property listed =>
        .property ((wellFormed_of_text parsed).2 property listed)
    obtain ⟨outcome, after, ran, _, _, concludes⟩ :=
      compile_ends config named quoted within { arena, cache } next ⟨formed, honest⟩ inside
    have why : ∀ error, outcome = .error error →
        ∃ piece ∈ rootReached root, piece.IsRepeated ∧ piece.Offends config error := by
      rintro error rfl
      generalize refusal : (rootPlan config root).refusal = refused at concludes
      cases concludes with
      | refused error => exact rootPlan_refusal_eq_some parsed refusal
    refine ⟨outcome, after, ran, ⟨?_, fun large => absurd large excess⟩, fun large => absurd large excess, fun _ =>
      ⟨⟨?_, ?_⟩, why⟩⟩
    · rintro ⟨copies, limit, same⟩
      obtain ⟨_, _, _, offends⟩ := why _ same
      cases offends
    · rintro ⟨error, same⟩
      obtain ⟨piece, listed, counts, offends⟩ := why error same
      exact ⟨piece, listed, counts, error, offends⟩
    · rintro ⟨piece, listed, counts, error, offends⟩
      have some_ := isSome_rootPlan_refusal listed counts offends
      generalize (rootPlan config root).refusal = refused at concludes some_
      cases concludes with
      | refused error => exact ⟨error, rfl⟩
      | made _ => cases some_

/-- A loop over what can read nothing, behind a piece that is left out whatever its bounds are. -/
theorem compile_refuses_iff_loop :
    let inner : Piece := .mk (.runes [.single 'b']) 0 none
    let looping : Piece := .mk (.group [[inner]]) 1 none
    let omitted : Piece := .mk (.group [[.mk (.runes [.single 'a']) 300 (some 300)]]) 0 (some 0)
    ofText "(a\x7b300\x7d)\x7b0\x7d(b*)+" = .ok [[omitted, looping]] ∧
      rootReached [[omitted, looping]] = [looping, inner, omitted] ∧ ∃ error after,
        (compile {} [[omitted, looping]] true (some 0)).runIn { arena := matchState 7 } =
          .ok (.error error, after) := by
  intro inner looping omitted
  have parsed : ofText "(a\x7b300\x7d)\x7b0\x7d(b*)+" = .ok [[omitted, looping]] := rfl
  have reached : rootReached [[omitted, looping]] = [looping, inner, omitted] := by
    simp [rootReached, branchReached, Piece.reached, Atom.reached, looping, omitted, inner]
  have small : rootCopies [[omitted, looping]] ≤ 10000 := by
    simp [rootCopies, branchCopies, Piece.copies, Atom.copies, looping, omitted, inner]
  have nothing : [] ∈ looping.atom.language :=
    Atom.nil_of_isNullable _
      (by simp [looping, inner, Piece.atom, Atom.Ordered, rootOrdered, branchOrdered, Piece.Ordered])
      (by simp [looping, inner, Piece.atom, Atom.isNullable, anyNullable, allNullable, Piece.isNullable])
  obtain ⟨outcome, after, ran, _, _, refused⟩ := compile_refuses_iff parsed {} (by decide) .empty
    (wellFormed_matchState 7) (by decide : 0 < (matchState 7).size) true
  obtain ⟨error, rfl⟩ := (refused small).1.mpr
    ⟨looping, by simp [reached], by simp [Piece.IsRepeated, looping, Piece.most], _, .closure rfl nothing⟩
  exact ⟨parsed, reached, error, after, ran⟩

end ByteAutomata.Regexp
