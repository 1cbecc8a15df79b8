import ByteAutomata.Pattern
import ByteAutomata.Proofs.TwinCompiles

/-!
Patterns compiled side by side.

Every plan is built alike in two workshops that belong together, by induction on the plan, and so is every
pattern. The only thing asked of a pattern is that the names of its properties are names of their sets.
-/

namespace ByteAutomata

open Arena Compile

variable {names : String → RuneSet → Prop} {base : Arena} {workshop other : Workshop} {next : StateId}

namespace Regexp

/-! ## The names that a regexp uses -/

mutual

/-- The properties that stand in an atom, each with its name and its set. -/
def Atom.properties : Atom → List (String × RuneSet)
  | .group root => rootProperties root
  | .property name set => [(name, set)]
  | _ => []

def Piece.properties : Piece → List (String × RuneSet)
  | .mk atom _ _ => atom.properties

def branchProperties : Branch → List (String × RuneSet)
  | [] => []
  | piece :: rest => piece.properties ++ branchProperties rest

def rootProperties : Root → List (String × RuneSet)
  | [] => []
  | branch :: rest => branchProperties branch ++ rootProperties rest

end

/-- Every set of the plan may be kept under the name that the plan keeps it under. -/
def Plan.Named (names : String → RuneSet → Prop) : Plan → Prop
  | skip => True
  | refuse _ => True
  | anyRune => True
  | runes name set => names (name.getD set.simplify.canonicalName) set
  | chain first second => first.Named names ∧ second.Named names
  | optional body => body.Named names
  | loop body => body.Named names
  | loopAtLeastOnce body => body.Named names
  | copies _ _ body => body.Named names
  | either first second => first.Named names ∧ second.Named names

mutual

theorem Atom.plan_named (config : Config) (canonical : ∀ set : RuneSet, names set.simplify.canonicalName set) :
    ∀ atom : Atom, (∀ property ∈ atom.properties, names property.1 property.2) →
    (atom.plan config).Named names
  | .dot, _ => by
    rw [Atom.plan]
    trivial
  | .runes set, _ => by
    rw [Atom.plan]
    exact canonical set
  | .group root, listed => by
    rw [Atom.properties] at listed
    rw [Atom.plan]
    exact rootPlan_named config canonical root listed
  | .property name set, listed => by
    rw [Atom.properties] at listed
    rw [Atom.plan]
    exact listed (name, set) (List.mem_singleton_self _)

theorem Piece.plan_named (config : Config) (canonical : ∀ set : RuneSet, names set.simplify.canonicalName set) :
    ∀ piece : Piece, (∀ property ∈ piece.properties, names property.1 property.2) →
    (piece.plan config).Named names
  | .mk atom least most, listed => by
    rw [Piece.properties] at listed
    have body := Atom.plan_named config canonical atom listed
    rw [Piece.plan]
    split
    · exact body
    · split
      · trivial
      · split
        · trivial
        · split
          · exact body
          · split
            · exact body
            · split <;> exact body

theorem branchPlan_named (config : Config) (canonical : ∀ set : RuneSet, names set.simplify.canonicalName set) :
    ∀ branch : Branch,
    (∀ property ∈ branchProperties branch, names property.1 property.2) →
    (branchPlan config branch).Named names
  | [], _ => by
    rw [branchPlan]
    trivial
  | piece :: rest, listed => by
    rw [branchProperties] at listed
    rw [branchPlan]
    exact ⟨Piece.plan_named config canonical piece fun property member => listed property (List.mem_append_left _ member),
      branchPlan_named config canonical rest fun property member => listed property (List.mem_append_right _ member)⟩

theorem joinedPlan_named (config : Config) (canonical : ∀ set : RuneSet, names set.simplify.canonicalName set) :
    ∀ (root : Root) (joined : Plan),
    (∀ property ∈ rootProperties root, names property.1 property.2) → joined.Named names →
    (joinedPlan config root joined).Named names
  | [], joined, _, named => by
    rw [joinedPlan]
    exact named
  | branch :: rest, joined, listed, named => by
    rw [rootProperties] at listed
    rw [joinedPlan]
    exact joinedPlan_named config canonical rest _ (fun property member => listed property (List.mem_append_right _ member))
      ⟨named, branchPlan_named config canonical branch fun property member => listed property (List.mem_append_left _ member)⟩

theorem rootPlan_named (config : Config) (canonical : ∀ set : RuneSet, names set.simplify.canonicalName set) :
    ∀ root : Root, (∀ property ∈ rootProperties root, names property.1 property.2) →
    (rootPlan config root).Named names
  | [], _ => by
    rw [rootPlan]
    trivial
  | branch :: rest, listed => by
    rw [rootProperties] at listed
    rw [rootPlan]
    exact joinedPlan_named config canonical rest _ (fun property member => listed property (List.mem_append_right _ member))
      (branchPlan_named config canonical branch fun property member => listed property (List.mem_append_left _ member))

end

/-! ## Plans -/

theorem buildSkippable_alike {template : Template} (ready : template.Ready)
    (twins : workshop.Twin names base other) (inside : next < workshop.arena.size) (skippable : Option Nat) :
    Tandem names base workshop.arena.size (Entry base) (Plan.buildSkippable template (some next) skippable)
      (Plan.buildSkippable template (some (base.size + next)) skippable) workshop other := by
  cases skippable with
  | none => exact (BuildAlike.graft ready names base).loop workshop other next twins inside
  | some count => exact .graftOptional ready count twins inside inside

/-- Two fragments in front of one state are joined. -/
theorem either_alike {first second : Plan} {config : Config}
    (left : BuildAlike names base (first.build config) (first.build config))
    (right : BuildAlike names base (second.build config) (second.build config)) :
    BuildAlike names base ((Plan.either first second).build config)
      ((Plan.either first second).build config) := by
  intro workshop other next twins inside
  refine (left workshop other next twins inside).bind fun middle middleTwin _ _ twins extends_ there => ?_
  obtain ⟨a, belowA, rfl, rfl⟩ := there
  refine ((right middle middleTwin next twins (extends_.lt inside)).mono extends_.size).bind
    fun last lastTwin _ _ twins further there => ?_
  obtain ⟨b, belowB, rfl, rfl⟩ := there
  have withinA : last.arena.TargetWithin (some a) := targetWithin_some (further.lt belowA)
  have withinB : last.arena.TargetWithin (some b) := targetWithin_some belowB
  obtain ⟨joined, start, pairs, united, unites, resolves⟩ := union_eq twins.formed withinA withinB
  obtain ⟨entry, rfl, below, _⟩ := unites.exists_start withinA withinB resolves
  have grown := unites.extends_
  exact .onArenaChecked twins united (union_above twins.formed withinA withinB united base)
    (grown.mono (extends_.size.trans further.size)) (twins.packed.union united) ⟨entry, below, rfl, rfl⟩

theorem Plan.build_alike (config : Config) (plan : Plan) (named : plan.Named names) (base : Arena) :
    BuildAlike names base (plan.build config) (plan.build config) := by
  induction plan generalizing base with
  | skip => exact fun workshop other next twins inside => .pure twins ⟨next, inside, rfl, rfl⟩
  | refuse error => exact fun workshop other next twins _ => .throw twins error
  | anyRune => exact fun workshop other next twins inside => .anyRune twins inside
  | runes name set => exact .runes config named
  | chain first second ihFirst ihSecond =>
    intro workshop other next twins inside
    refine (ihSecond named.2 base workshop other next twins inside).bind
      fun middle middleTwin _ _ twins extends_ there => ?_
    obtain ⟨id, below, rfl, rfl⟩ := there
    exact (ihFirst named.1 base middle middleTwin id twins below).mono extends_.size
  | optional body ih =>
    intro workshop other next twins inside
    refine (ih named base workshop other next twins inside).bind
      fun middle middleTwin _ _ twins extends_ there => ?_
    obtain ⟨id, below, rfl, rfl⟩ := there
    refine ((Tandem.splice twins [id, next] ?_).mono extends_.size).bind
      fun last lastTwin skip _ twins _ new => ?_
    · simpa using ⟨below, extends_.lt inside⟩
    · obtain ⟨_, here, rfl⟩ := new
      exact .pure twins ⟨skip, here, rfl, rfl⟩
  | loop body ih => exact (ih named base).loop
  | loopAtLeastOnce body ih => exact (ih named base).loopAtLeastOnce
  | copies least skippable body ih =>
    intro workshop other next twins inside
    refine (Tandem.template (ih named {}) twins).bind
      fun middle middleTwin template _ twins extends_ both => ?_
    obtain ⟨rfl, ready⟩ := both
    refine ((buildSkippable_alike ready twins (extends_.lt inside) skippable).mono extends_.size).bind
      fun last lastTwin _ _ twins further there => ?_
    obtain ⟨id, below, rfl, rfl⟩ := there
    exact (BuildAlike.graftTimes ready least last lastTwin id twins below).mono
      (extends_.size.trans further.size)
  | either first second ihFirst ihSecond => exact either_alike (ihFirst named.1 base) (ihSecond named.2 base)

/-! ## Whole regexps -/

/-- Adds a state with one byte step. -/
def pushSingle (byte : UInt8) (next : Target) : Compile Target := do
  return some (← onArena fun arena => arena.pushTable (.single byte next))

theorem pushSingle_alike (byte : UInt8) : BuildAlike names base (pushSingle byte) (pushSingle byte) := by
  intro workshop other next twins inside
  have fits : State.Fits (workshop.arena.size + 1) { table := .single byte (some next) } :=
    .of_single byte fun id same => Option.some.inj same ▸ Nat.lt_succ_of_lt inside
  refine .fragment twins (twins.formed.grows_pushTable fits)
    (twins.packed.pushTable (Table.packed_mapping _ _)) ?_
  rw [← pushTable_above, ← Table.single_raise]
  rfl

theorem compile_of_excess {config : Config} {root : Root} (excess : config.maxExpansion < rootExpansion root)
    (quoted : Bool) (next : Target) : compile config root quoted next =
      throw (.expansionTooLarge (rootExpansion root) config.maxExpansion) := by
  unfold compile
  rw [if_pos excess]
  rfl

/-- A plan is built in front of a terminator, and where the value is quoted between two quotes. -/
theorem compile_of_within {config : Config} {root : Root} (within : ¬ config.maxExpansion < rootExpansion root)
    (quoted : Bool) (next : Target) : compile config root quoted next = (do
      let terminator ← pushSingle valueTerminator next
      if quoted then do
        let closing ← pushSingle 0x22 terminator
        let body ← (rootPlan config root).build config closing
        pushSingle 0x22 body
      else (rootPlan config root).build config terminator) := by
  unfold compile
  rw [if_neg within]
  cases quoted <;> simp only [pushSingle, compileRoot_eq, bind_assoc, pure_bind]


theorem compile_alike (config : Config) {root : Root} (named : (rootPlan config root).Named names)
    (quoted : Bool) (base : Arena) :
    BuildAlike names base (compile config root quoted) (compile config root quoted) := by
  have plan := Plan.build_alike config _ named base
  intro workshop other next twins inside
  by_cases excess : config.maxExpansion < rootExpansion root
  · rw [compile_of_excess excess, compile_of_excess excess]
    exact .throw twins _
  · rw [compile_of_within excess, compile_of_within excess]
    refine (pushSingle_alike valueTerminator workshop other next twins inside).bind
      fun middle middleTwin _ _ twins extends_ there => ?_
    obtain ⟨terminator, below, rfl, rfl⟩ := there
    cases quoted with
    | false => exact (plan middle middleTwin terminator twins below).mono extends_.size
    | true =>
      refine ((pushSingle_alike 0x22 middle middleTwin terminator twins below).mono extends_.size).bind
        fun later laterTwin _ _ twins further there => ?_
      obtain ⟨closing, under, rfl, rfl⟩ := there
      have grown := extends_.size.trans further.size
      refine ((plan later laterTwin closing twins under).mono grown).bind
        fun last lastTwin _ _ twins built there => ?_
      obtain ⟨body, inner, rfl, rfl⟩ := there
      exact (pushSingle_alike 0x22 last lastTwin body twins inner).mono (grown.trans built.size)

end Regexp

namespace Pattern

/-- The properties that stand in a pattern, each with its name and its set. -/
def properties : Pattern → List (String × RuneSet)
  | regexp root => Regexp.rootProperties root
  | _ => []

variable {kept : Nat}

/-- What is refused before anything is built is refused on both sides. -/
theorem checked_alike {α β : Type} {alike : Arena → β → β → Prop} (twins : workshop.Twin names base other)
    {checked : Except PatternError α} {further furtherTwin : α → Compile β}
    (goesOn : ∀ result, Tandem names base kept alike (further result) (furtherTwin result) workshop other) :
    Tandem names base kept alike (do further (← checked)) (do furtherTwin (← checked)) workshop other := by
  cases checked with
  | error error => exact .throw twins error
  | ok result => exact goesOn result

theorem checkedTexts_alike (twins : workshop.Twin names base other) (values : List (List UInt8)) :
    Tandem names base kept (fun _ _ _ => True)
      (values.forM fun value => do let _ ← requireText value : Compile Unit)
      (values.forM fun value => do let _ ← requireText value : Compile Unit) workshop other := by
  induction values generalizing workshop other with
  | nil => exact .pure twins trivial
  | cons value rest ih =>
    have first : Tandem names base kept (fun _ _ _ => True) (do let _ ← requireText value : Compile Unit)
        (do let _ ← requireText value : Compile Unit) workshop other :=
      checked_alike twins fun _ => .pure twins trivial
    exact first.bind fun middle middleTwin _ _ twins _ _ => ih twins

/-- Every pattern is compiled alike in workshops that belong together. -/
theorem compile_alike [Unicode.Database] (config : Config) {pattern : Pattern}
    (canonical : ∀ set : RuneSet, names set.simplify.canonicalName set)
    (listed : ∀ property ∈ pattern.properties, names property.1 property.2) (base : Arena) :
    BuildAlike names base (pattern.compile config) (pattern.compile config) := by
  cases pattern with
  | exact value =>
    intro workshop other next twins inside
    exact checked_alike twins fun _ => .fragment twins
      (pushExact_grows twins.formed value (targetWithin_some inside)) (twins.packed.pushExact value _)
      (pushExact_above base workshop.arena value (some next))
  | leading value =>
    intro workshop other next twins inside
    exact checked_alike twins fun _ => .fragment twins
      (pushLeading_grows twins.formed value (targetWithin_some inside)) (twins.packed.pushLeading value _)
      (pushLeading_above base workshop.arena value (some next))
  | shell value =>
    intro workshop other next twins inside
    exact checked_alike twins fun _ => checked_alike twins fun tokens => .fragment twins
      (pushGlob_grows twins.formed tokens (targetWithin_some inside)) (twins.packed.pushGlob tokens _)
      (pushGlob_above base workshop.arena tokens (some next))
  | wildcard value =>
    intro workshop other next twins inside
    exact checked_alike twins fun _ => checked_alike twins fun tokens => .fragment twins
      (pushGlob_grows twins.formed tokens (targetWithin_some inside)) (twins.packed.pushGlob tokens _)
      (pushGlob_above base workshop.arena tokens (some next))
  | anyCase value =>
    intro workshop other next twins inside
    exact checked_alike twins fun text => .fragment twins
      (pushFolded_grows twins.formed text (targetWithin_some inside)) (twins.packed.pushFolded text _)
      (pushFolded_above base workshop.arena text (some next))
  | anythingBut values =>
    intro workshop other next twins inside
    refine (checkedTexts_alike twins values).bind fun middle middleTwin _ _ twins extends_ _ => ?_
    exact (Tandem.fragment twins
      (pushComplement_grows twins.formed values (targetWithin_some (extends_.lt inside)))
      (twins.packed.pushComplement values _)
      (pushComplement_above base middle.arena values (some next))).mono extends_.size
  | runes set =>
    have named : (Regexp.rootPlan config [[.once (.runes set)]]).Named names :=
      Regexp.rootPlan_named config canonical _ fun property member => by
        simp [Regexp.rootProperties, Regexp.branchProperties, Regexp.Piece.once, Regexp.Piece.properties,
          Regexp.Atom.properties] at member
    exact Regexp.compile_alike config named true base
  | regexp root =>
    exact Regexp.compile_alike config (Regexp.rootPlan_named config canonical root listed) true base

end Pattern

end ByteAutomata
