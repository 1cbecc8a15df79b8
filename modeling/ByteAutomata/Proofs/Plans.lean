import ByteAutomata.Proofs.Workshops
import ByteAutomata.Regexp.Compile

/-!
Regexps as plans.

What is built for a regexp depends on its tree and on the limits alone, and on neither the arena nor
the cache. A plan says what is built: the ways to put fragments together that the compiler uses, and the
refusals where they stand. Compiling a tree is building its plan, so a property of all compilations is
shown once for each way of putting fragments together.
-/

namespace ByteAutomata.Regexp

open Compile

inductive Plan where
  | skip
  | refuse (error : PatternError)
  | anyRune
  | runes (name : Option String) (set : RuneSet)
  /-- One fragment in front of another. -/
  | chain (first second : Plan)
  | optional (body : Plan)
  | loop (body : Plan)
  | loopAtLeastOnce (body : Plan)
  /-- Copies of one template: as many as there have to be and behind these a number of copies each of
  which can be skipped, or a loop. -/
  | copies (least : Nat) (skippable : Option Nat) (body : Plan)
  | either (first second : Plan)

namespace Plan

/-- What stands behind the copies that have to be there. -/
def buildSkippable (template : Template) (next : Target) : Option Nat → Compile Target
  | some count => graftOptional template next count next
  | none => Regexp.loop next (graft template)

def build (config : Config) : Plan → Target → Compile Target
  | skip, next => return next
  | refuse error, _ => throw error
  | anyRune, next => return some (← onArena fun arena => arena.pushAnyRune next)
  | runes name set, next => Compile.runes config name set next
  | chain first second, next => do first.build config (← second.build config next)
  | optional body, next => do
    let entry ← body.build config next
    return some (← splice [entry, next])
  | loop body, next => Regexp.loop next (body.build config)
  | loopAtLeastOnce body, next => Regexp.loopAtLeastOnce next (body.build config)
  | copies least skippable body, next => do
    let template ← template (body.build config)
    let rest ← buildSkippable template next skippable
    graftTimes template least rest
  | either first second, next => do
    let left ← first.build config next
    let right ← second.build config next
    onArenaChecked fun arena => arena.union left right

end Plan

mutual

def Atom.plan (config : Config) : Atom → Plan
  | .dot => .anyRune
  | .runes set => .runes none set
  | .group root => rootPlan config root
  | .property name set => .runes (some name) set

def Piece.plan (config : Config) : Piece → Plan
  | .mk atom least most =>
    let piece : Piece := .mk atom least most
    if piece.isSingleton then atom.plan config
    else if most = some 0 then .skip
    else match checkBounds config piece with
      | .error error => .refuse error
      | .ok () =>
        if piece.isOptional then .optional (atom.plan config)
        else if piece.isStar then .loop (atom.plan config)
        else if piece.isPlus then .loopAtLeastOnce (atom.plan config)
        else .copies least (most.map (· - least)) (atom.plan config)

def branchPlan (config : Config) : Branch → Plan
  | [] => .skip
  | piece :: rest => .chain (piece.plan config) (branchPlan config rest)

/-- Further branches beside what is planned already. -/
def joinedPlan (config : Config) : Root → Plan → Plan
  | [], joined => joined
  | branch :: rest, joined => joinedPlan config rest (.either joined (branchPlan config branch))

def rootPlan (config : Config) : Root → Plan
  | [] => .skip
  | branch :: rest => joinedPlan config rest (branchPlan config branch)

end

/-! ## Compiling is building -/

/-- Bounds that are refused end a compilation and all others let it go on. -/
theorem checkBounds_bind (config : Config) (piece : Piece) (further : Compile Target) :
    (do checkBounds config piece; further : Compile Target) =
      match checkBounds config piece with
      | .error error => throw error
      | .ok () => further := by
  cases checkBounds config piece <;> rfl

mutual

theorem compileAtom_eq (config : Config) (next : Target) : ∀ atom : Atom,
    compileAtom config atom next = (atom.plan config).build config next
  | .dot => by
    rw [compileAtom, Atom.plan]
    rfl
  | .runes set => by
    rw [compileAtom, Atom.plan]
    rfl
  | .group root => by
    rw [compileAtom, Atom.plan]
    exact compileRoot_eq config next root
  | .property name set => by
    rw [compileAtom, Atom.plan]
    rfl

theorem compilePiece_eq (config : Config) (next : Target) : ∀ piece : Piece,
    compilePiece config piece next = (piece.plan config).build config next
  | .mk atom least most => by
    have body : compileAtom config atom = (atom.plan config).build config :=
      funext fun next => compileAtom_eq config next atom
    rw [compilePiece, Piece.plan]
    simp only [body, checkBounds_bind]
    by_cases single : (Piece.mk atom least most).isSingleton
    · rw [if_pos single, if_pos single]
    rw [if_neg single, if_neg single]
    by_cases absent : most = some 0
    · rw [if_pos absent, if_pos absent]
      rfl
    rw [if_neg absent, if_neg absent]
    cases checkBounds config (.mk atom least most) with
    | error error => rfl
    | ok _ =>
      dsimp only
      by_cases once : (Piece.mk atom least most).isOptional
      · rw [if_pos once, if_pos once]
        rfl
      rw [if_neg once, if_neg once]
      by_cases star : (Piece.mk atom least most).isStar
      · rw [if_pos star, if_pos star]
        rfl
      rw [if_neg star, if_neg star]
      by_cases plus : (Piece.mk atom least most).isPlus
      · rw [if_pos plus, if_pos plus]
        rfl
      rw [if_neg plus, if_neg plus]
      cases most <;> rfl

theorem compileBranch_eq (config : Config) (next : Target) : ∀ branch : Branch,
    compileBranch config branch next = (branchPlan config branch).build config next
  | [] => by
    rw [compileBranch, branchPlan]
    rfl
  | piece :: rest => by
    rw [compileBranch, branchPlan, Plan.build, compileBranch_eq config next rest]
    exact congrArg _ (funext fun between => compilePiece_eq config between piece)

theorem joinBranches_eq (config : Config) (next : Target) : ∀ (root : Root) (joined : Plan),
    (do joinBranches config next root (← joined.build config next)) =
      (joinedPlan config root joined).build config next
  | [], joined => by
    rw [joinedPlan]
    simp only [joinBranches]
    exact bind_pure _
  | branch :: rest, joined => by
    rw [joinedPlan, ← joinBranches_eq config next rest (.either joined (branchPlan config branch))]
    simp only [joinBranches, Plan.build, compileBranch_eq config next branch, bind_assoc]

theorem compileRoot_eq (config : Config) (next : Target) : ∀ root : Root,
    compileRoot config root next = (rootPlan config root).build config next
  | [] => by
    rw [compileRoot, rootPlan]
    rfl
  | branch :: rest => by
    rw [compileRoot, rootPlan, ← joinBranches_eq, compileBranch_eq]

end

end ByteAutomata.Regexp
