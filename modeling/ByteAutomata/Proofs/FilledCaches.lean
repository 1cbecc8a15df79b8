import ByteAutomata.Proofs.PatternTwins

/-!
What compilations leave in a cache.

Whatever arena a regexp is compiled into, and however that ends, the cache gets templates of rune sets only,
each under a name of its set. So what may be asked of a cache holds of each one that compilations have filled.
-/

namespace ByteAutomata

open Arena

variable {names : String → RuneSet → Prop}

namespace Compile

variable {α β : Type} {compile : Compile α}

/-- All templates in the cache are for sets of their names if they were so before. -/
def Keeps (names : String → RuneSet → Prop) (compile : Compile α) : Prop :=
  ∀ (workshop : Workshop) (outcome : Except PatternError α) (after : Workshop),
    workshop.cache.Holds names → compile.runIn workshop = .ok (outcome, after) → after.cache.Holds names

namespace Keeps

theorem pure (result : α) : Keeps names (Pure.pure result) := by
  intro workshop outcome after holds ran
  cases ran
  exact holds

theorem throw (error : PatternError) : Keeps names (MonadExcept.throw error : Compile α) := by
  intro workshop outcome after holds ran
  cases ran
  exact holds

theorem bind {further : α → Compile β} (first : Keeps names compile)
    (second : ∀ result, Keeps names (further result)) : Keeps names (compile >>= further) := by
  intro workshop outcome after holds ran
  rcases runIn_bind_eq_ok ran with ⟨error, refused, _⟩ | ⟨result, middle, made, went⟩
  · exact first workshop _ after holds refused
  · exact second result middle outcome after (first workshop _ middle holds made) went

theorem onArena (change : Arena → Arena × α) : Keeps names (Compile.onArena change) := by
  intro workshop outcome after holds ran
  cases ran
  exact holds

theorem onArenaChecked (change : Arena → Checked (Arena × α)) : Keeps names (Compile.onArenaChecked change) := by
  intro workshop outcome after holds ran
  obtain ⟨arena, result, _, _, rfl⟩ := exists_of_runIn_onArenaChecked ran
  exact holds

theorem inScratch (inner : Keeps names compile) : Keeps names (Compile.inScratch compile) := by
  intro workshop outcome after holds ran
  obtain ⟨scratch, ended, rfl⟩ := exists_of_runIn_inScratch ran
  exact inner { cache := workshop.cache } outcome scratch holds ended

theorem template {build : Target → Compile Target} (body : ∀ exit, Keeps names (build exit)) :
    Keeps names (Compile.template build) := by
  refine inScratch ((onArena _).bind fun exit => (body (some exit)).bind fun entry => ?_)
  intro workshop outcome after holds ran
  rw [runIn_capture] at ran
  cases captured : Template.capture workshop.arena entry (some exit) with
  | error fault =>
    rw [captured] at ran
    cases ran
  | ok made =>
    rw [captured] at ran
    cases ran
    exact holds

theorem runes (config : Config) {name : Option String} {set : RuneSet}
    (named : names (name.getD set.simplify.canonicalName) set) (next : Target) :
    Keeps names (Compile.runes config name set next) := by
  cases swapped : set.firstSwapped? with
  | some interval =>
    rw [runes_of_swapped swapped]
    exact throw _
  | none =>
    have proper := RuneSet.firstSwapped?_eq_none_iff.mp swapped
    by_cases small : set.simplify.count < config.shellCacheMinRunes
    · rw [runes_of_small swapped small]
      exact (onArena _).bind fun _ => pure _
    · rw [runes_of_large swapped small]
      refine bind (fun workshop outcome after holds ran => ?_) fun _ => onArenaChecked _
      obtain ⟨made, computed, _⟩ := Template.ofRunes_eq set.simplify
      obtain ⟨served, cached, _, _, _, left⟩ :=
        runIn_cached_runes (name.getD set.simplify.canonicalName) computed workshop
      rw [ran] at cached
      cases cached
      rcases left with same | added
      · exact same ▸ holds
      · exact added ▸ holds.insert named proper computed

end Keeps

end Compile

namespace Regexp

open Compile

variable {build : Target → Compile Target}

theorem loop_keeps (body : ∀ next, Keeps names (build next)) (next : Target) : Keeps names (loop next build) :=
  (Keeps.onArena _).bind fun _ => (body _).bind fun _ => (Keeps.onArena _).bind fun _ => .pure _

theorem loopAtLeastOnce_keeps (body : ∀ next, Keeps names (build next)) (next : Target) :
    Keeps names (loopAtLeastOnce next build) :=
  (Keeps.onArena _).bind fun _ => (body _).bind fun _ => (Keeps.onArena _).bind fun _ => .pure _

theorem graftTimes_keeps (template : Template) (count : Nat) (next : Target) :
    Keeps names (graftTimes template count next) := by
  induction count generalizing next with
  | zero => exact .pure _
  | succ count ih => exact (Keeps.onArenaChecked _).bind ih

theorem graftOptional_keeps (template : Template) (next : Target) (count : Nat) (current : Target) :
    Keeps names (graftOptional template next count current) := by
  induction count generalizing current with
  | zero => exact .pure _
  | succ count ih =>
    exact (Keeps.onArenaChecked _).bind fun _ => (Keeps.onArena _).bind fun _ => ih _

theorem buildSkippable_keeps (template : Template) (next : Target) (skippable : Option Nat) :
    Keeps names (Plan.buildSkippable template next skippable) := by
  cases skippable with
  | none =>
    have copy (next : Target) : Keeps names (graft template next) := .onArenaChecked _
    exact loop_keeps copy next
  | some count => exact graftOptional_keeps template next count next

theorem Plan.build_keeps (config : Config) (plan : Plan) (named : plan.Named names) (next : Target) :
    Keeps names (plan.build config next) := by
  induction plan generalizing next with
  | skip => exact .pure _
  | refuse error => exact .throw error
  | anyRune => exact (Keeps.onArena _).bind fun _ => .pure _
  | runes name set => exact .runes config named next
  | chain first second ihFirst ihSecond => exact (ihSecond named.2 next).bind (ihFirst named.1)
  | optional body ih => exact (ih named next).bind fun _ => (Keeps.onArena _).bind fun _ => .pure _
  | loop body ih => exact loop_keeps (ih named) next
  | loopAtLeastOnce body ih => exact loopAtLeastOnce_keeps (ih named) next
  | copies least skippable body ih =>
    exact (Keeps.template (ih named)).bind fun template =>
      (buildSkippable_keeps template next skippable).bind (graftTimes_keeps template least)
  | either first second ihFirst ihSecond =>
    exact (ihFirst named.1 next).bind fun _ => (ihSecond named.2 next).bind fun _ => .onArenaChecked _

theorem compile_keeps (config : Config) {root : Root} (named : (rootPlan config root).Named names)
    (quoted : Bool) (next : Target) : Keeps names (compile config root quoted next) := by
  by_cases excess : config.maxExpansion < rootExpansion root
  · rw [compile_of_excess excess]
    exact .throw _
  · have single (byte : UInt8) (next : Target) : Keeps names (pushSingle byte next) :=
      (Keeps.onArena _).bind fun _ => .pure _
    rw [compile_of_within excess]
    refine (single _ next).bind fun terminator => ?_
    cases quoted with
    | false => exact Plan.build_keeps config _ named terminator
    | true =>
      exact (single _ terminator).bind fun closing =>
        (Plan.build_keeps config _ named closing).bind (single _)

end Regexp

/-- Caches as they are behind any compilations of these regexps. -/
inductive TemplateCache.FilledBy (allowed : Regexp.Root → Prop) : TemplateCache → Prop
  | empty : FilledBy allowed {}
  | compiled {cache : TemplateCache} {root : Regexp.Root} {config : Config} {quoted : Bool} {next : Target}
      {arena : Arena} {outcome : Except PatternError Target} {after : Workshop} :
      FilledBy allowed cache → allowed root →
      (Regexp.compile config root quoted next).runIn { arena, cache } = .ok (outcome, after) →
      FilledBy allowed after.cache

/-- Where names of properties are names of their sets, each template was made for a set of its name. -/
theorem TemplateCache.FilledBy.holds {allowed : Regexp.Root → Prop} {cache : TemplateCache}
    (filled : cache.FilledBy allowed) (canonical : ∀ set : RuneSet, names set.simplify.canonicalName set)
    (listed : ∀ root, allowed root → ∀ property ∈ Regexp.rootProperties root, names property.1 property.2) :
    cache.Holds names := by
  induction filled with
  | empty => exact holds_empty names
  | @compiled cache root config quoted next arena outcome after _ permitted ran ih =>
    have named := Regexp.rootPlan_named config canonical root (listed root permitted)
    exact Regexp.compile_keeps config named quoted next { arena, cache } outcome after ih ran

end ByteAutomata
