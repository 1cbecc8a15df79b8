import ByteAutomata.Proofs.FilledCaches
import ByteAutomata.Proofs.StepPaths

/-!
What a shared cache of templates does to the fragments for sets of runes.

A graft of a captured trie moves by byte steps just as the trie does, so it reads a rune of the same set.
Calls of any matchers with any thresholds may fill the cache before. As long as a given name stands for the
same runes each time and is no canonical name, a template is only ever found by those that ask for the runes
it was made for, and nobody can tell whether a fragment was copied or built in place.
-/

namespace ByteAutomata

namespace Arena

/-! ## Grafts of tries -/

namespace CapturedBy

variable {source arena : Arena} {entry exit next : StateId} {found : Discovery} {ids : List StateId}
  {template : Template} {tables : List Table} {target : Target}

/-- A byte step of the graft is the byte step of the captured state, with its target renamed. -/
theorem stepFrom_graft (taken : source.CapturedBy entry exit found ids template)
    (copies : List.Forall₂ (fun id table => ∃ state, source.get? id = some state ∧
      state.Copies (boundName template found exit arena.size next) { table }) ids tables)
    (inside : next < arena.size) (known : ∀ id, target = some id → id ∈ ids ∨ id = exit) (byte : UInt8) :
    (arena.pushTables tables).stepFrom (some next) (boundName template found exit arena.size next target) byte =
      boundName template found exit arena.size next (source.stepFrom (some exit) target byte) := by
  cases target with
  | none => simp [boundName, Template.localName]
  | some id =>
    rcases known id rfl with listed | rfl
    · obtain ⟨place, there⟩ := List.mem_iff_getElem?.mp listed
      obtain ⟨state, copy, stored, copied, same⟩ := get?_pushTables_of_copies arena copies there
      have other : some id ≠ some exit := fun same =>
        taken.captured.apart (Option.some.inj same ▸ listed)
      have away : some (arena.size + place) ≠ some next := by
        simpa using Nat.ne_of_gt (lt_of_lt_of_le inside (Nat.le_add_right _ _))
      rw [taken.boundName_eq arena.size next there, stepFrom_of_get? away copied, stepFrom_of_get? other stored]
      exact same.lookup byte
    · rw [taken.boundName_exit, stepFrom_goal, stepFrom_goal]
      rfl

/-- What a captured state leads to is captured as well, or it is the exit. -/
theorem known_stepFrom (taken : source.CapturedBy entry exit found ids template) (formed : source.WellFormed)
    (known : ∀ id, target = some id → id ∈ ids ∨ id = exit) (byte : UInt8) (next : StateId)
    (leads : source.stepFrom (some exit) target byte = some next) : next ∈ ids ∨ next = exit := by
  cases target with
  | none => simp at leads
  | some id =>
    rcases known id rfl with listed | rfl
    · obtain ⟨state, stored⟩ := exists_get? (taken.captured.inside id listed)
      have other : some id ≠ some exit := fun same =>
        taken.captured.apart (Option.some.inj same ▸ listed)
      rw [stepFrom_of_get? other stored] at leads
      have step := Table.lookup_mem_steps (formed.fits stored).table leads
      refine taken.captured.closed id listed state stored next ?_
      simp [State.targets, step]
    · simp at leads

theorem follow_graft (taken : source.CapturedBy entry exit found ids template) (formed : source.WellFormed)
    (copies : List.Forall₂ (fun id table => ∃ state, source.get? id = some state ∧
      state.Copies (boundName template found exit arena.size next) { table }) ids tables)
    (inside : next < arena.size) (known : ∀ id, target = some id → id ∈ ids ∨ id = exit) (bytes : List UInt8) :
    (arena.pushTables tables).follow (some next) (boundName template found exit arena.size next target) bytes =
        boundName template found exit arena.size next (source.follow (some exit) target bytes) ∧
      ∀ id, source.follow (some exit) target bytes = some id → id ∈ ids ∨ id = exit := by
  induction bytes generalizing target with
  | nil => exact ⟨rfl, known⟩
  | cons byte rest ih =>
    rw [follow_cons, follow_cons, taken.stepFrom_graft copies inside known]
    exact ih (taken.known_stepFrom formed known byte)

/-- Only the exit is named like the state that it is bound to. -/
theorem boundName_eq_some_iff (taken : source.CapturedBy entry exit found ids template)
    (inside : next < arena.size) (known : ∀ id, target = some id → id ∈ ids ∨ id = exit) :
    boundName template found exit arena.size next target = some next ↔ target = some exit := by
  cases target with
  | none => simp [boundName, Template.localName]
  | some id =>
    rcases known id rfl with listed | rfl
    · obtain ⟨place, there⟩ := List.mem_iff_getElem?.mp listed
      have other : id ≠ exit := fun same => taken.captured.apart (same ▸ listed)
      have away := Nat.ne_of_gt (lt_of_lt_of_le inside (Nat.le_add_right arena.size place))
      simp [taken.boundName_eq arena.size next there, other, away]
    · simp [taken.boundName_exit]

/-- Each new state of the graft is the copy of a captured one. -/
theorem exists_original (taken : source.CapturedBy entry exit found ids template)
    (copies : List.Forall₂ (fun id table => ∃ state, source.get? id = some state ∧
      state.Copies (boundName template found exit arena.size next) { table }) ids tables)
    {id : StateId} {copy : State} (new : arena.size ≤ id)
    (stored : (arena.pushTables tables).get? id = some copy) :
    ∃ here ∈ ids, boundName template found exit arena.size next (some here) = some id ∧
      ∃ state, source.get? here = some state ∧
        state.Copies (boundName template found exit arena.size next) copy := by
  obtain ⟨place, rfl⟩ := Nat.exists_eq_add_of_le new
  have bound := lt_size_of_get? stored
  rw [size_pushTables, ← copies.length_eq] at bound
  have there := List.getElem?_eq_getElem (Nat.lt_of_add_lt_add_left bound)
  obtain ⟨state, copyToo, held, storedToo, copied⟩ := get?_pushTables_of_copies arena copies there
  obtain rfl := Option.some.inj (stored.symm.trans storedToo)
  exact ⟨_, List.mem_of_getElem? there, taken.boundName_eq arena.size next there, state, held, copied⟩

/-- Copies of states with byte steps only have byte steps only. -/
theorem stepsTo_graft (taken : source.CapturedBy entry exit found ids template)
    (copies : List.Forall₂ (fun id table => ∃ state, source.get? id = some state ∧
      state.Copies (boundName template found exit arena.size next) { table }) ids tables)
    (only : ∀ id state, id ≠ exit → source.get? id = some state → state.StepsOnly) :
    (arena.pushTables tables).StepsTo arena.size next where
  only := by
    intro id copy new stored
    obtain ⟨here, member, _, state, held, copied⟩ := taken.exists_original copies new stored
    have before := only here state (fun same => taken.captured.apart (same ▸ member)) held
    exact ⟨by rw [copied.epsilons, before.epsilons]; rfl, by rw [copied.spinout, before.spinout]; rfl,
      by rw [copied.continuations, before.continuations]⟩
  leads := by
    intro id copy new stored aim step
    obtain ⟨here, member, _, state, held, copied⟩ := taken.exists_original copies new stored
    obtain ⟨target, stepped, named⟩ := List.mem_map.mp (copied.steps aim step)
    cases target with
    | none => cases named
    | some aimed =>
      rcases taken.captured.closed here member state held aimed (by simp [State.targets, stepped]) with
        further | rfl
      · obtain ⟨place, there⟩ := List.mem_iff_getElem?.mp further
        rw [taken.boundName_eq arena.size next there, Option.some.injEq] at named
        exact Or.inl (named ▸ Nat.le_add_right _ _)
      · rw [taken.boundName_exit] at named
        exact Or.inr named.symm

end CapturedBy

/-- What is captured of states with byte steps only can be copied, and the copies read the same runes. -/
theorem ReadsRune.capture {holds : Char → Prop} {source : Arena} {start : StateId}
    (reads : openExit.ReadsRune 0 holds (source, start)) :
    ∃ template, Template.capture source (some start) (some 0) = .ok template ∧
      ∀ (arena : Arena) (next : StateId), arena.WellFormed → next < arena.size →
        ∃ built entry, template.graft arena (some next) = .ok (built, some entry) ∧
          arena.ReadsRune next holds (built, entry) := by
  have formed := reads.grows.extends_.formed
  obtain ⟨template, found, ids, ran, taken⟩ :=
    capture_eq formed reads.grows.entry 0 reads.grows.extends_.silent
  refine ⟨template, ran, fun arena next arenaFormed inside => ?_⟩
  have listed : start ∈ ids := taken.captured.reached.resolve_right (Nat.ne_of_gt reads.new)
  obtain ⟨tables, id, grafted, named, grows, place, copies⟩ := taken.graft_grows formed arenaFormed inside
  have new : arena.size ≤ id := place.resolve_right fun here => Nat.ne_of_gt reads.new here.2
  refine ⟨arena.pushTables tables, id, grafted, grows, new, ?_, fun bytes => ?_⟩
  · exact taken.stepsTo_graft copies fun id state other =>
      reads.steps.only id state (Nat.pos_of_ne_zero other)
  · have known (id : StateId) (same : some start = some id) : id ∈ ids ∨ id = 0 :=
      Or.inl (Option.some.inj same ▸ listed)
    obtain ⟨followed, last⟩ := taken.follow_graft formed copies inside known bytes
    rw [named] at followed
    rw [followed, taken.boundName_eq_some_iff inside last]
    exact reads.reads bytes

end Arena

open Arena

namespace Template

variable {first second set : RuneSet} {template : Template}

/-- A graft of the template for a set reads one of its runes. -/
theorem graft_reads (computed : ofRunes set = .ok template) {arena : Arena} {next : StateId}
    (formed : arena.WellFormed) (inside : next < arena.size) :
    ∃ built entry, template.graft arena (some next) = .ok (built, some entry) ∧
      arena.ReadsRune next set.Contains (built, entry) := by
  obtain ⟨made, computedToo, grafts⟩ := (pushRuneTrie_reads wellFormed_openExit set Nat.zero_lt_one).capture
  obtain rfl := Except.ok.inj (computed.symm.trans computedToo)
  exact grafts arena next formed inside

/-- Sets with one template hold the same runes. -/
theorem contains_iff_of_ofRunes (left : ofRunes first = .ok template) (right : ofRunes second = .ok template)
    (rune : Char) : first.Contains rune ↔ second.Contains rune := by
  have inside : 0 < openExit.size := Nat.zero_lt_one
  obtain ⟨built, entry, grafted, reads⟩ := graft_reads left wellFormed_openExit inside
  obtain ⟨builtToo, entryToo, graftedToo, readsToo⟩ := graft_reads right wellFormed_openExit inside
  rw [grafted] at graftedToo
  cases graftedToo
  have word (set : RuneSet) : (∃ other, set.Contains other ∧
      String.utf8EncodeChar rune = String.utf8EncodeChar other) ↔ set.Contains rune := by
    constructor
    · rintro ⟨other, contains, same⟩
      exact Utf8.encode_injective same ▸ contains
    · intro contains
      exact ⟨rune, contains, rfl⟩
  rw [← word first, ← reads.path_iff inside, readsToo.path_iff inside, word second]

end Template

/-! ## Names and histories -/

/-- Each name that is given to sets of runes comes with the same runes every time and is no canonical name. -/
structure RuneSet.NamesApart (given : String → RuneSet → Prop) : Prop where
  same : ∀ name first second, given name first → given name second → ∀ rune,
    first.Contains rune ↔ second.Contains rune
  foreign : ∀ name set, given name set → ∀ other : RuneSet, name ≠ other.canonicalName

/-- The name under which a set is looked up: the one given to it, or else its canonical name. -/
def RuneSet.KnownAs (given : String → RuneSet → Prop) (key : String) (set : RuneSet) : Prop :=
  key = set.simplify.canonicalName ∨ given key set

/-- Caches as any calls leave them that add fragments for sets of runes or for regexps, with any thresholds
and in any arenas, refused calls included. Of the names that come with sets only those given occur. -/
inductive TemplateCache.SharedBy (given : String → RuneSet → Prop) : TemplateCache → Prop
  | empty : SharedBy given {}
  | runes {cache : TemplateCache} {name : Option String} {set : RuneSet} {config : Config} {next : Target}
      {arena : Arena} {outcome : Except PatternError Target} {after : Workshop} :
      SharedBy given cache → (∀ key ∈ name, given key set) →
      (Compile.runes config name set next).runIn { arena, cache } = .ok (outcome, after) →
      SharedBy given after.cache
  | regexp {cache : TemplateCache} {root : Regexp.Root} {config : Config} {quoted : Bool} {next : Target}
      {arena : Arena} {outcome : Except PatternError Target} {after : Workshop} :
      SharedBy given cache → (∀ property ∈ Regexp.rootProperties root, given property.1 property.2) →
      (Regexp.compile config root quoted next).runIn { arena, cache } = .ok (outcome, after) →
      SharedBy given after.cache

namespace RuneSet

variable {given : String → RuneSet → Prop} {key : String} {first second set : RuneSet}

theorem knownAs_getD {name : Option String} (named : ∀ key ∈ name, given key set) :
    KnownAs given (name.getD set.simplify.canonicalName) set := by
  cases name with
  | none => exact Or.inl rfl
  | some key => exact Or.inr (named key rfl)

/-- Sets with one name hold the same runes. -/
theorem NamesApart.contains_iff (apart : NamesApart given) (left : KnownAs given key first)
    (right : KnownAs given key second) (rune : Char) : first.Contains rune ↔ second.Contains rune := by
  rcases left with rfl | named
  · rcases right with same | namedToo
    · rw [← contains_simplify first, canonicalName_injective same, contains_simplify]
    · exact absurd rfl (apart.foreign _ second namedToo _)
  · rcases right with rfl | namedToo
    · exact absurd rfl (apart.foreign _ first named _)
    · exact apart.same key first second named namedToo rune

end RuneSet

namespace TemplateCache

variable {given : String → RuneSet → Prop} {cache : TemplateCache} {key other : String}
  {first second set : RuneSet} {template : Template}

theorem SharedBy.holds (shared : cache.SharedBy given) : cache.Holds (RuneSet.KnownAs given) := by
  induction shared with
  | empty => exact holds_empty _
  | @runes cache name set config next arena outcome after _ named ran ih =>
    exact Compile.Keeps.runes config (RuneSet.knownAs_getD named) next { arena, cache } outcome after ih ran
  | @regexp cache root config quoted next arena outcome after _ named ran ih =>
    have plan : (Regexp.rootPlan config root).Named (RuneSet.KnownAs given) :=
      Regexp.rootPlan_named config (fun _ => Or.inl rfl) root fun property listed =>
        Or.inr (named property listed)
    exact Regexp.compile_keeps config plan quoted next { arena, cache } outcome after ih ran

/-- A template is found by sets with the same runes only. -/
theorem Holds.contains_iff {later : TemplateCache} (apart : RuneSet.NamesApart given)
    (holds : cache.Holds (RuneSet.KnownAs given)) (left : RuneSet.KnownAs given key first)
    (found : cache.find? key = some template) (holdsLater : later.Holds (RuneSet.KnownAs given))
    (right : RuneSet.KnownAs given other second) (foundLater : later.find? other = some template)
    (rune : Char) : first.Contains rune ↔ second.Contains rune := by
  obtain ⟨source, knownToo, _, computed⟩ := holds key template found
  obtain ⟨sourceToo, knownOther, _, computedToo⟩ := holdsLater other template foundLater
  rw [apart.contains_iff left knownToo, ← RuneSet.contains_simplify,
    Template.contains_iff_of_ofRunes computed computedToo, RuneSet.contains_simplify,
    apart.contains_iff knownOther right]

end TemplateCache

namespace Compile

variable {given : String → RuneSet → Prop} {cache : TemplateCache} {arena : Arena} {set : RuneSet}
  {next : StateId}

/-- Adding a fragment for a set succeeds. It reads one of the runes of a set with the same name, which is what
may have been kept under this name. -/
theorem exists_runIn_runes {names : String → RuneSet → Prop} (holds : cache.Holds names) (config : Config)
    {name : Option String} (named : names (name.getD set.simplify.canonicalName) set) (proper : set.Proper)
    (formed : arena.WellFormed) (inside : next < arena.size) :
    ∃ entry after source, (Compile.runes config name set (some next)).runIn { arena, cache } =
        .ok (.ok (some entry), after) ∧ names (name.getD set.simplify.canonicalName) source ∧
      arena.ReadsRune next source.Contains (after.arena, entry) := by
  have swapped := RuneSet.firstSwapped?_eq_none_iff.mpr proper
  have same (set : RuneSet) : set.simplify.Contains = set.Contains :=
    funext fun rune => propext (set.contains_simplify rune)
  by_cases small : set.simplify.count < config.shellCacheMinRunes
  · rw [runes_of_small swapped small]
    exact ⟨_, _, set, rfl, named, same set ▸ pushRuneTrie_reads formed set.simplify inside⟩
  · rw [runes_of_large swapped small]
    obtain ⟨made, computed, _⟩ := Template.ofRunes_eq set.simplify
    obtain ⟨middle, cached, kept, served, _, left⟩ :=
      runIn_cached_runes (name.getD set.simplify.canonicalName) computed { arena, cache }
    have holdsAfter : middle.cache.Holds names := by
      rcases left with same | added
      · exact same ▸ holds
      · exact added ▸ holds.insert named proper computed
    obtain ⟨source, namedToo, _, computedToo⟩ := holdsAfter _ _ served
    obtain ⟨built, entry, grafted, reads⟩ := Template.graft_reads computedToo formed inside
    refine ⟨entry, { middle with arena := built }, source, ?_, namedToo, same source ▸ reads⟩
    rw [runIn_bind_of_ok cached]
    exact runIn_onArenaChecked (kept ▸ grafted)

/-- Whatever a shared cache holds by then and whatever the threshold, a fragment for a set of runes changes no
state and leads to the state behind it on the bytes of just these runes, as the fragment built in place does.
Sets that are ever served with one template hold the same runes. -/
theorem runes_path_iff (apart : RuneSet.NamesApart given) (shared : cache.SharedBy given) (config : Config)
    {name : Option String} (named : ∀ key ∈ name, given key set) (proper : set.Proper)
    (formed : arena.WellFormed) (inside : next < arena.size) :
    ∃ entry after, (Compile.runes config name set (some next)).runIn { arena, cache } =
        .ok (.ok (some entry), after) ∧
      (∀ id < arena.size, after.arena.get? id = arena.get? id) ∧
      (∀ bytes, after.arena.Path (arena.size ≤ ·) entry bytes next ↔
        ∃ rune, set.Contains rune ∧ bytes = String.utf8EncodeChar rune) ∧
      (∀ bytes, after.arena.Path (arena.size ≤ ·) entry bytes next ↔
        (arena.pushRuneTrie set.simplify (some next)).1.Path (arena.size ≤ ·)
          (arena.pushRuneTrie set.simplify (some next)).2 bytes next) ∧
      ∀ (later : TemplateCache) (otherName : Option String) (other : RuneSet) (template : Template),
        later.SharedBy given → (∀ key ∈ otherName, given key other) →
          after.cache.find? (name.getD set.simplify.canonicalName) = some template →
            later.find? (otherName.getD other.simplify.canonicalName) = some template →
              ∀ rune, set.Contains rune ↔ other.Contains rune := by
  have known := RuneSet.knownAs_getD named
  obtain ⟨entry, after, source, ran, knownToo, reads⟩ :=
    exists_runIn_runes shared.holds config known proper formed inside
  have same : source.Contains = set.Contains :=
    funext fun rune => propext (apart.contains_iff knownToo known rune)
  rw [same] at reads
  refine ⟨entry, after, ran, reads.grows.extends_.kept, fun bytes => reads.path_iff inside, fun bytes => ?_, ?_⟩
  · refine (reads.path_iff inside).trans (Iff.symm ?_)
    rw [(pushRuneTrie_reads formed set.simplify inside).path_iff inside]
    simp only [RuneSet.contains_simplify]
  · intro later otherName other template sharedLater namedOther found foundLater
    exact TemplateCache.Holds.contains_iff apart (shared.runes named ran).holds known found sharedLater.holds
      (RuneSet.knownAs_getD namedOther) foundLater

/-- A matcher with a high threshold finds what one with a low threshold has left in the cache. -/
theorem runes_path_iff_left :
    let letters : RuneSet := [⟨'a', 'z'⟩]
    let given : String → RuneSet → Prop := fun key set => key = "~letters" ∧ set = letters
    ∃ cache : TemplateCache, cache.SharedBy given ∧ ∃ entry after,
      (Compile.runes { shellCacheMinRunes := 20 } (some "~letters") letters (some 0)).runIn
          { arena := ⟨#[{}]⟩, cache } = .ok (.ok (some entry), after) ∧
        after.arena.Path (1 ≤ ·) entry [0x71] 0 := by
  intro letters given
  have foreign (other : RuneSet) : "~letters" ≠ other.canonicalName :=
    fun same => other.not_mem_canonicalName (same ▸ by decide)
  have apart : RuneSet.NamesApart given := by
    refine ⟨?_, fun name set named other => named.1 ▸ foreign other⟩
    rintro name first second ⟨_, rfl⟩ ⟨_, rfl⟩ rune
    rfl
  have named : ∀ key ∈ some "~letters", given key letters := by
    rintro key same
    exact ⟨(Option.some.inj same).symm, rfl⟩
  have proper : letters.Proper := by
    intro interval listed
    rw [List.mem_singleton.mp listed]
    decide
  have formed : Arena.WellFormed ⟨#[{}]⟩ := by decide
  have inside : 0 < Arena.size ⟨#[{}]⟩ := by decide
  obtain ⟨_, filled, ran, _⟩ :=
    runes_path_iff apart .empty { shellCacheMinRunes := 1 } named proper formed inside
  obtain ⟨entry, after, ranAgain, _, leads, _⟩ :=
    runes_path_iff apart (.runes .empty named ran) { shellCacheMinRunes := 20 } named proper formed
      inside
  exact ⟨filled.cache, .runes .empty named ran, entry, after, ranAgain,
    (leads _).mpr ⟨'q', ⟨⟨'a', 'z'⟩, List.mem_singleton_self _, by decide⟩, by decide⟩⟩

end Compile

end ByteAutomata
