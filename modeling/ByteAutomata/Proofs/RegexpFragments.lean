import ByteAutomata.Proofs.Histories
import ByteAutomata.Proofs.RegexpLanguages

/-!
What regexps are compiled to.

A compilation that is not refused builds a fragment in front of the state that it is given, and the cache
stays one whose templates are for the sets of their names. Each way of putting fragments together has its
equation between languages, so what is built for a tree reads what the tree denotes, by induction on the tree.
-/

namespace ByteAutomata

open Arena
open scoped Computability

namespace Arena

namespace Fragment

variable {arena middle built : Arena} {entry next : StateId} {words : Language UInt8}

/-- A fragment is one of every earlier arena that has the state in front of which it stands. -/
theorem earlier (extends_ : Extends arena.size arena middle) (inside : next < arena.size)
    (fragment : Fragment middle built entry next words) : Fragment arena built entry next words where
  extends_ := extends_.append fragment.extends_
  inside := fragment.inside
  goal := inside
  place := fragment.place.imp_left (Nat.le_trans extends_.size)
  reads := fun future keeps x => fragment.reads future (keeps.mono extends_.size) x

end Fragment

end Arena

namespace Compile

variable {build : Target → Compile Target} {words more : Language UInt8} {workshop after : Workshop}

/-- What is built in front of a state that only forwards as yet is built where that state is the last one. -/
theorem exists_of_runIn_waiting {further : StateId → Target → Compile Target} {targets : List Target}
    {result : Target}
    (ran : (do
      let waiting ← Regexp.splice targets
      let entry ← build (some waiting)
      further waiting entry).runIn workshop = .ok (.ok result, after)) :
    ∃ entry middle,
      (build (some workshop.arena.size)).runIn { workshop with arena := (workshop.arena.pushSplice targets).1 } =
        .ok (.ok entry, middle) ∧
      (further workshop.arena.size entry).runIn middle = .ok (.ok result, after) := by
  obtain ⟨waiting, between, spliced, ran⟩ := exists_of_runIn_bind ran
  cases spliced
  exact exists_of_runIn_bind ran

variable [Unicode.Database]

/-- Unless it is refused, what is built in front of a state is a fragment that reads these words. -/
def Reads (build : Target → Compile Target) (words : Language UInt8) : Prop :=
  ∀ (workshop after : Workshop) (next : StateId) (result : Target), workshop.arena.WellFormed →
    workshop.cache.Honest → next < workshop.arena.size →
    (build (some next)).runIn workshop = .ok (.ok result, after) →
    after.cache.Honest ∧ ∃ entry, result = some entry ∧ Fragment workshop.arena after.arena entry next words

namespace Reads

theorem congr (reads : Reads build words) (same : words = more) : Reads build more := same ▸ reads

/-- What is always refused reads whatever one likes. -/
theorem throw (error : PatternError) (words : Language UInt8) :
    Reads (fun _ => MonadExcept.throw error) words := by
  intro workshop after next result _ _ _ ran
  cases ran

theorem pure : Reads (fun next => Pure.pure next) 1 := by
  intro workshop after next result formed honest inside ran
  cases ran
  exact ⟨honest, next, rfl, .refl (.refl _ formed) inside⟩

theorem fragment (change : Arena → Target → Arena × StateId)
    (reads : ∀ (arena : Arena) (next : StateId), arena.WellFormed → next < arena.size →
      Fragment arena (change arena (some next)).1 (change arena (some next)).2 next words) :
    Reads (fun next => do return some (← onArena fun arena => change arena next)) words := by
  intro workshop after next result formed honest inside ran
  cases ran
  exact ⟨honest, _, rfl, reads workshop.arena next formed inside⟩

theorem single {byte : UInt8} (below : byte < byteCeiling) :
    Reads (fun next => do return some (← onArena fun arena => arena.pushTable (.single byte next))) {[byte]} :=
  .fragment (fun arena next => arena.pushTable (.single byte next))
    fun _ _ formed inside => fragment_single formed inside below

theorem anyRune :
    Reads (fun next => do return some (← onArena fun arena => arena.pushAnyRune next))
      (runeWords fun _ => True) :=
  .fragment (fun arena next => arena.pushAnyRune next)
    fun _ _ formed inside => (pushAnyRune_reads formed inside).fragment inside

theorem runeTrie (set : RuneSet) :
    Reads (fun next => do return some (← onArena fun arena => arena.pushRuneTrie set next))
      (runeWords set.Contains) :=
  .fragment (fun arena next => arena.pushRuneTrie set next)
    fun _ _ formed inside => (pushRuneTrie_reads formed set inside).fragment inside

/-- What is built in front of a fragment reads its words first. -/
theorem chain {first : Target → Compile Target} (second : Reads build words) (reads : Reads first more) :
    Reads (fun next => do first (← build next)) (more * words) := by
  intro workshop after next result formed honest inside ran
  obtain ⟨between, middle, ran, ranFirst⟩ := exists_of_runIn_bind ran
  obtain ⟨honest, id, rfl, fragment⟩ := second workshop middle next between formed honest inside ran
  obtain ⟨honest, entry, rfl, further⟩ := reads middle after id result fragment.formed honest fragment.inside ranFirst
  exact ⟨honest, entry, rfl, fragment.trans further⟩

/-- What is built can be skipped. -/
theorem optional (body : Reads build words) :
    Reads (fun next => do
      let entry ← build next
      return some (← Regexp.splice [entry, next])) (words + 1) := by
  intro workshop after next result formed honest inside ran
  obtain ⟨entry, middle, ran, spliced⟩ := exists_of_runIn_bind ran
  obtain ⟨honest, id, rfl, fragment⟩ := body workshop middle next entry formed honest inside ran
  cases spliced
  exact ⟨honest, _, rfl, fragment.splice (.refl fragment.extends_ inside)⟩

/-- A body is built in front of a new state that only forwards as yet. -/
theorem exists_waiting {further : StateId → Target → Compile Target} {next : StateId} {result : Target}
    (body : Reads build words) (formed : workshop.arena.WellFormed) (honest : workshop.cache.Honest)
    (inside : next < workshop.arena.size)
    (ran : (do
      let waiting ← Regexp.splice [some next]
      let entry ← build (some waiting)
      further waiting entry).runIn workshop = .ok (.ok result, after)) :
    ∃ entry middle, middle.cache.Honest ∧
      Fragment (workshop.arena.pushSplice [some next]).1 middle.arena entry workshop.arena.size words ∧
      (further workshop.arena.size (some entry)).runIn middle = .ok (.ok result, after) := by
  obtain ⟨entry, middle, ran, goesOn⟩ := exists_of_runIn_waiting ran
  have forwards := formed.grows_forward inside
  obtain ⟨honest, id, rfl, fragment⟩ :=
    body { workshop with arena := (workshop.arena.pushSplice [some next]).1 } middle workshop.arena.size entry
      forwards.extends_.formed honest forwards.entry ran
  exact ⟨id, middle, honest, fragment, goesOn⟩

theorem loop (body : Reads build words) (proper : [] ∉ words) :
    Reads (fun next => Regexp.loop next build) words∗ := by
  intro workshop after next result formed honest inside ran
  obtain ⟨entry, middle, honest, fragment, wired⟩ := exists_waiting body formed honest inside ran
  cases wired
  exact ⟨honest, _, rfl, fragment.loop formed inside proper⟩

theorem loopAtLeastOnce (body : Reads build words) (proper : [] ∉ words) :
    Reads (fun next => Regexp.loopAtLeastOnce next build) (words * words∗) := by
  intro workshop after next result formed honest inside ran
  obtain ⟨entry, middle, honest, fragment, wired⟩ := exists_waiting body formed honest inside ran
  cases wired
  exact ⟨honest, _, rfl, fragment.loopAtLeastOnce formed inside proper⟩

/-- The union of two fragments in front of the same state reads the words of either. -/
theorem either {other : Target → Compile Target} (left : Reads build words) (right : Reads other more) :
    Reads (fun next => do
      let first ← build next
      let second ← other next
      onArenaChecked fun arena => arena.union first second) (words + more) := by
  intro workshop after next result formed honest inside ran
  obtain ⟨first, middle, ran, ranOther⟩ := exists_of_runIn_bind ran
  obtain ⟨honest, id, rfl, fragment⟩ := left workshop middle next first formed honest inside ran
  obtain ⟨second, last, ran, joined⟩ := exists_of_runIn_bind ranOther
  obtain ⟨honest, place, rfl, further⟩ :=
    right middle last next second fragment.formed honest (fragment.extends_.lt inside) ran
  obtain ⟨arena, target, united, same, rfl⟩ := exists_of_runIn_onArenaChecked joined
  obtain ⟨union, start, unites, whole⟩ :=
    (fragment.later further.extends_).union (further.earlier fragment.extends_ inside)
  rw [unites] at united
  cases united
  cases same
  exact ⟨honest, start, rfl, whole⟩

/-! ## Copies -/

variable {template : Template}

theorem graft (reads : template.Reads words) : Reads (Compile.graft template) words := by
  intro workshop after next result formed honest inside ran
  obtain ⟨arena, target, grafted, same, rfl⟩ := exists_of_runIn_onArenaChecked ran
  obtain ⟨built, entry, copied, fragment⟩ := reads workshop.arena next formed inside
  rw [copied] at grafted
  cases grafted
  cases same
  exact ⟨honest, entry, rfl, fragment⟩

theorem graftTimes (reads : template.Reads words) (count : Nat) :
    Reads (Regexp.graftTimes template count) (words ^ count) := by
  induction count with
  | zero => exact pow_zero words ▸ pure
  | succ count ih => exact ((graft reads).chain ih).congr (pow_succ words count).symm

/-- Copies that can be skipped, in front of some that are there already. -/
theorem graftOptional_eq (reads : template.Reads words) {arena : Arena} {next : StateId}
    (inside : next < arena.size) (count done : Nat) {current : StateId} {result : Target}
    (before : Fragment arena workshop.arena current next (repeated words 0 (some done)))
    (honest : workshop.cache.Honest)
    (ran : (Regexp.graftOptional template (some next) count (some current)).runIn workshop =
      .ok (.ok result, after)) :
    after.cache.Honest ∧ ∃ entry, result = some entry ∧
      Fragment arena after.arena entry next (repeated words 0 (some (done + count))) := by
  induction count generalizing workshop done current with
  | zero =>
    cases ran
    exact ⟨honest, current, rfl, before⟩
  | succ count ih =>
    obtain ⟨copy, middle, grafted, ran⟩ := exists_of_runIn_bind ran
    obtain ⟨honest, id, rfl, fragment⟩ :=
      graft reads workshop middle current copy before.formed honest before.inside grafted
    obtain ⟨skip, last, spliced, ran⟩ := exists_of_runIn_bind ran
    cases spliced
    have longer := before.trans fragment
    have skippable := longer.splice (.refl longer.extends_ inside)
    rw [← repeated_succ] at skippable
    rw [Nat.add_comm count, ← Nat.add_assoc]
    refine ih (done + 1) skippable ?_ ran
    exact honest

theorem graftOptional (reads : template.Reads words) (count : Nat) :
    Reads (fun next => Regexp.graftOptional template next count next) (repeated words 0 (some count)) := by
  intro workshop after next result formed honest inside ran
  have start : Fragment workshop.arena workshop.arena next next (repeated words 0 (some 0)) :=
    (Fragment.refl (.refl _ formed) inside).congr (by rw [repeated_exactly, pow_zero])
  have built := graftOptional_eq reads inside count 0 start honest ran
  rwa [Nat.zero_add] at built

/-- What is captured of what a body builds reads the words of the body. -/
theorem template_eq (body : Reads build words) (honest : workshop.cache.Honest)
    (ran : (Compile.template build).runIn workshop = .ok (.ok template, after)) :
    template.Reads words ∧ after.arena = workshop.arena ∧ after.cache.Honest := by
  obtain ⟨entry, last, built, captured, rfl⟩ := exists_of_runIn_template ran
  obtain ⟨honest, id, rfl, fragment⟩ :=
    body (bench workshop.cache) last 0 entry wellFormed_openExit honest Nat.zero_lt_one built
  obtain ⟨copy, taken, reads⟩ := capture_reads fragment
  obtain rfl := Except.ok.inj (captured.symm.trans taken)
  exact ⟨reads, rfl, honest⟩

/-- Copies of one template, then a number of copies that can be skipped or a loop. -/
theorem copies (body : Reads build words) (least : Nat) (skippable : Option Nat)
    (proper : skippable = none → [] ∉ words) :
    Reads (fun next => do
      let template ← Compile.template build
      let rest ← Regexp.Plan.buildSkippable template next skippable
      Regexp.graftTimes template least rest) (words ^ least * repeated words 0 skippable) := by
  intro workshop after next result formed honest inside ran
  obtain ⟨template, middle, captured, ran⟩ := exists_of_runIn_bind ran
  obtain ⟨reads, same, honest⟩ := template_eq body honest captured
  rw [← same] at formed inside ⊢
  have skips : Reads (fun next => Regexp.Plan.buildSkippable template next skippable)
      (repeated words 0 skippable) := by
    cases skippable with
    | some count => exact graftOptional reads count
    | none => exact repeated_star words ▸ loop (graft reads) (proper rfl)
  exact skips.chain (graftTimes reads least) middle after next result formed honest inside ran

/-! ## Sets of runes -/

theorem runes (config : Config) {name : Option String} {set : RuneSet}
    (named : set.Named (name.getD set.simplify.canonicalName)) :
    Reads (Compile.runes config name set) (runeWords set.Contains) := by
  cases swapped : set.firstSwapped? with
  | some interval =>
    have refused : Compile.runes config name set = fun _ => MonadExcept.throw (.invalidRuneRange interval) :=
      funext fun next => runes_of_swapped swapped config name next
    exact refused ▸ throw _ _
  | none =>
    have proper := RuneSet.firstSwapped?_eq_none_iff.mp swapped
    have words : runeWords set.simplify.Contains = runeWords set.Contains :=
      congrArg runeWords (funext fun rune => propext (set.contains_simplify rune))
    by_cases small : set.simplify.count < config.shellCacheMinRunes
    · have built : Compile.runes config name set = fun next => do
          return some (← onArena fun arena => arena.pushRuneTrie set.simplify next) :=
        funext fun next => runes_of_small swapped small name next
      exact built ▸ words ▸ runeTrie set.simplify
    · intro workshop after next result formed honest inside ran
      rw [runes_of_large swapped small] at ran
      obtain ⟨template, middle, cached, ran⟩ := exists_of_runIn_bind ran
      obtain ⟨made, computed, reads⟩ := Template.ofRunes_eq set.simplify
      obtain ⟨served, ranToo, arena, _, _, left⟩ :=
        runIn_cached_runes (name.getD set.simplify.canonicalName) computed workshop
      rw [ranToo] at cached
      cases cached
      -- Whatever is kept under the name was made for these runes.
      have same : (workshop.cache.find? (name.getD set.simplify.canonicalName)).getD made = made := by
        cases kept : workshop.cache.find? (name.getD set.simplify.canonicalName) with
        | none => rfl
        | some template => exact honest.find?_eq named computed kept
      have honestAfter : middle.cache.Honest := by
        rcases left with unchanged | added
        · exact unchanged ▸ honest
        · exact added ▸ honest.insert named proper computed
      rw [← arena] at formed inside ⊢
      rw [same] at ran
      exact words ▸ graft reads middle after next result formed honestAfter inside ran

end Reads

end Compile

end ByteAutomata
