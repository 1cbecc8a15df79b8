import ByteAutomata.Proofs.Plans
import ByteAutomata.Proofs.TemplateCaches

/-!
Two compilations side by side.

The same compiler runs in an arena and behind the states of another one, where its cache may hold other
templates. As long as both caches serve alike, both compilations end alike: they refuse alike, and where
they succeed the second arena is the first one behind the same states. Neither faults, and the states that
were there before stay as they were.
-/

namespace ByteAutomata

open Arena

variable {names : String → RuneSet → Prop} {base : Arena}

/-- The other workshop has the arena of this one behind the states of `base`, and its cache serves as this
one does. -/
structure Workshop.Twin (names : String → RuneSet → Prop) (base : Arena) (workshop other : Workshop) :
    Prop where
  formed : workshop.arena.WellFormed
  packed : workshop.arena.Packed
  behind : other.arena = base.above workshop.arena
  holds : workshop.cache.Holds names
  holdsOther : other.cache.Holds names
  agrees : workshop.cache.Agrees names other.cache

namespace Compile

variable {α β : Type} {workshop other after afterTwin : Workshop} {kept fewer : Nat}

/-- The same refusal, or two results that belong together. -/
inductive Outcomes (alike : α → α → Prop) : Except PatternError α → Except PatternError α → Prop
  | refused (error : PatternError) : Outcomes alike (.error error) (.error error)
  | made {result resultTwin : α} : alike result resultTwin → Outcomes alike (.ok result) (.ok resultTwin)

/-- Both compilations end alike, in workshops that belong together, with the first `kept` states
untouched. -/
def Tandem (names : String → RuneSet → Prop) (base : Arena) (kept : Nat) (alike : Arena → α → α → Prop)
    (compile twin : Compile α) (workshop other : Workshop) : Prop :=
  ∃ outcome outcomeTwin after afterTwin, compile.runIn workshop = .ok (outcome, after) ∧
    twin.runIn other = .ok (outcomeTwin, afterTwin) ∧ after.Twin names base afterTwin ∧
    Extends kept workshop.arena after.arena ∧ Outcomes (alike after.arena) outcome outcomeTwin

namespace Tandem

variable {alike : Arena → α → α → Prop} {compile twin : Compile α}

theorem mono (tandem : Tandem names base kept alike compile twin workshop other) (order : fewer ≤ kept) :
    Tandem names base fewer alike compile twin workshop other := by
  obtain ⟨outcome, outcomeTwin, after, afterTwin, ran, ranTwin, twins, extends_, outcomes⟩ := tandem
  exact ⟨outcome, outcomeTwin, after, afterTwin, ran, ranTwin, twins, extends_.mono order, outcomes⟩

theorem pure (twins : workshop.Twin names base other) {result resultTwin : α}
    (related : alike workshop.arena result resultTwin) :
    Tandem names base kept alike (Pure.pure result) (Pure.pure resultTwin) workshop other :=
  ⟨_, _, workshop, other, rfl, rfl, twins, .refl _ twins.formed, .made related⟩

theorem throw (twins : workshop.Twin names base other) (error : PatternError) :
    Tandem names base kept alike (MonadExcept.throw error) (MonadExcept.throw error) workshop other :=
  ⟨_, _, workshop, other, rfl, rfl, twins, .refl _ twins.formed, .refused error⟩

/-- What runs alike step by step runs alike. -/
theorem bind {further furtherTwin : α → Compile β} {alikeNext : Arena → β → β → Prop}
    (first : Tandem names base kept alike compile twin workshop other)
    (second : ∀ after afterTwin result resultTwin, after.Twin names base afterTwin →
      Extends kept workshop.arena after.arena → alike after.arena result resultTwin →
      Tandem names base kept alikeNext (further result) (furtherTwin resultTwin) after afterTwin) :
    Tandem names base kept alikeNext (compile >>= further) (twin >>= furtherTwin) workshop other := by
  obtain ⟨outcome, outcomeTwin, middle, middleTwin, ran, ranTwin, twins, extends_, outcomes⟩ := first
  cases outcomes with
  | refused error =>
    exact ⟨_, _, middle, middleTwin, runIn_bind_of_error ran, runIn_bind_of_error ranTwin, twins, extends_,
      .refused error⟩
  | made related =>
    obtain ⟨outcome, outcomeTwin, after, afterTwin, went, wentTwin, twinsAfter, further, outcomes⟩ :=
      second middle middleTwin _ _ twins extends_ related
    exact ⟨outcome, outcomeTwin, after, afterTwin, (runIn_bind_of_ok ran).trans went,
      (runIn_bind_of_ok ranTwin).trans wentTwin, twinsAfter, extends_.trans further, outcomes⟩

theorem onArena (twins : workshop.Twin names base other) {change changeTwin : Arena → Arena × α}
    (extends_ : Extends kept workshop.arena (change workshop.arena).1)
    (packed : (change workshop.arena).1.Packed)
    (behind : (changeTwin (base.above workshop.arena)).1 = base.above (change workshop.arena).1)
    (related : alike (change workshop.arena).1 (change workshop.arena).2
      (changeTwin (base.above workshop.arena)).2) :
    Tandem names base kept alike (Compile.onArena change) (Compile.onArena changeTwin) workshop other := by
  refine ⟨_, _, _, _, runIn_onArena change workshop, runIn_onArena changeTwin other,
    ⟨extends_.formed, packed, ?_, twins.holds, twins.holdsOther, twins.agrees⟩, extends_, ?_⟩
  · rw [twins.behind]
    exact behind
  · rw [twins.behind]
    exact .made related

theorem onArenaChecked (twins : workshop.Twin names base other)
    {change changeTwin : Arena → Checked (Arena × α)} {built : Arena} {result resultTwin : α}
    (changed : change workshop.arena = .ok (built, result))
    (changedTwin : changeTwin (base.above workshop.arena) = .ok (base.above built, resultTwin))
    (extends_ : Extends kept workshop.arena built) (packed : built.Packed)
    (related : alike built result resultTwin) :
    Tandem names base kept alike (Compile.onArenaChecked change) (Compile.onArenaChecked changeTwin)
      workshop other :=
  ⟨_, _, _, _, runIn_onArenaChecked changed, runIn_onArenaChecked (twins.behind ▸ changedTwin),
    ⟨extends_.formed, packed, rfl, twins.holds, twins.holdsOther, twins.agrees⟩, extends_, .made related⟩

end Tandem

/-- A state of the arena and the same one behind the states of `base`. -/
def Entry (base arena : Arena) (target twin : Target) : Prop :=
  ∃ id < arena.size, target = some id ∧ twin = some (base.size + id)

/-- In front of every state both compilers build alike. -/
def BuildAlike (names : String → RuneSet → Prop) (base : Arena) (build buildTwin : Target → Compile Target) :
    Prop :=
  ∀ (workshop other : Workshop) (next : StateId), workshop.Twin names base other →
    next < workshop.arena.size → Tandem names base workshop.arena.size (Entry base)
      (build (some next)) (buildTwin (some (base.size + next))) workshop other

/-! ## Fragments -/

theorem Tandem.fragment (twins : workshop.Twin names base other) {change changeTwin : Arena → Arena × StateId}
    (grows : workshop.arena.Grows (change workshop.arena)) (packed : (change workshop.arena).1.Packed)
    (behind : changeTwin (base.above workshop.arena) = base.raised (change workshop.arena)) :
    Tandem names base workshop.arena.size (Entry base) (do return some (← Compile.onArena change))
      (do return some (← Compile.onArena changeTwin)) workshop other := by
  have pushed : Tandem names base workshop.arena.size
      (fun arena id idTwin => id < arena.size ∧ idTwin = base.size + id)
      (Compile.onArena change) (Compile.onArena changeTwin) workshop other :=
    .onArena twins grows.extends_ packed (congrArg Prod.fst behind)
      ⟨grows.entry, congrArg Prod.snd behind⟩
  refine pushed.bind fun after afterTwin id idTwin twins _ entry => .pure twins ?_
  exact ⟨id, entry.1, rfl, congrArg some entry.2⟩

theorem Tandem.anyRune {next : StateId} (twins : workshop.Twin names base other)
    (inside : next < workshop.arena.size) :
    Tandem names base workshop.arena.size (Entry base)
      (do return some (← Compile.onArena fun arena => arena.pushAnyRune (some next)))
      (do return some (← Compile.onArena fun arena => arena.pushAnyRune (some (base.size + next))))
      workshop other :=
  .fragment twins (pushAnyRune_reads twins.formed inside).grows (twins.packed.pushAnyRune _)
    (pushAnyRune_above base workshop.arena (some next))

theorem Tandem.runeTrie (set : RuneSet) {next : StateId}
    (twins : workshop.Twin names base other) (inside : next < workshop.arena.size) :
    Tandem names base workshop.arena.size (Entry base)
      (do return some (← Compile.onArena fun arena => arena.pushRuneTrie set (some next)))
      (do return some (← Compile.onArena fun arena => arena.pushRuneTrie set (some (base.size + next))))
      workshop other :=
  .fragment twins (pushRuneTrie_reads twins.formed set inside).grows (twins.packed.pushRuneTrie set _)
    (pushRuneTrie_above base workshop.arena set (some next))

/-- The new state forwards to states that are there already. -/
theorem Tandem.splice (twins : workshop.Twin names base other) (ids : List StateId)
    (inside : ∀ id ∈ ids, id < workshop.arena.size) :
    Tandem names base workshop.arena.size
      (fun arena id idTwin => id = workshop.arena.size ∧ id < arena.size ∧ idTwin = base.size + id)
      (Regexp.splice (ids.map some)) (Regexp.splice (ids.map fun id => some (base.size + id)))
      workshop other := by
  have pushed : workshop.arena.Grows (workshop.arena.pushSplice (ids.map some)) := by
    apply twins.formed.grows_pushSplice
    intro target listed
    obtain ⟨id, member, rfl⟩ := List.mem_map.mp listed
    exact ⟨id, inside id member, rfl⟩
  have behind : (base.above workshop.arena).pushSplice (ids.map fun id => some (base.size + id)) =
      base.raised (workshop.arena.pushSplice (ids.map some)) := by
    rw [← pushSplice_above, List.map_map]
    rfl
  exact .onArena twins pushed.extends_ (twins.packed.pushSplice _)
    (congrArg Prod.fst behind) ⟨rfl, pushed.entry, congrArg Prod.snd behind⟩

/-! ## Loops -/

/-- A state made since is wired to forward to other states. -/
theorem Tandem.setEpsilons (twins : workshop.Twin names base other) {node : StateId} (new : kept ≤ node)
    (ids : List StateId) (inside : ∀ id ∈ ids, id < workshop.arena.size) :
    Tandem names base kept (fun _ _ _ => True)
      (Compile.onArena fun arena => (arena.setEpsilons node (ids.map some), ()))
      (Compile.onArena fun arena =>
        (arena.setEpsilons (base.size + node) (ids.map fun id => some (base.size + id)), ()))
      workshop other := by
  have raised : (ids.map fun id => some (base.size + id)) = (ids.map some).map (Target.raise base.size) := by
    rw [List.map_map]
    rfl
  have extends_ : Extends kept workshop.arena (workshop.arena.setEpsilons node (ids.map some)) := by
    refine twins.formed.extends_modify new _ fun state found => (twins.formed.fits found).setEpsilons ?_
    intro target listed
    obtain ⟨id, member, rfl⟩ := List.mem_map.mp listed
    exact ⟨id, inside id member, rfl⟩
  refine .onArena twins extends_ (twins.packed.setEpsilons node _) ?_ trivial
  · change (base.above workshop.arena).setEpsilons (base.size + node) _ = _
    rw [raised, setEpsilons_above]

variable {build buildTwin : Target → Compile Target}

theorem BuildAlike.loop (body : BuildAlike names base build buildTwin) :
    BuildAlike names base (Regexp.loop · build) (Regexp.loop · buildTwin) := by
  intro workshop other next twins inside
  refine (Tandem.splice twins [next] (by simpa using inside)).bind
    fun middle middleTwin looping _ twins extends_ new => ?_
  obtain ⟨rfl, here, rfl⟩ := new
  refine ((body middle middleTwin _ twins here).mono extends_.size).bind
    fun last lastTwin entry entryTwin twins further there => ?_
  obtain ⟨id, below, rfl, rfl⟩ := there
  refine (Tandem.setEpsilons twins (Nat.le_refl _) [id, next] ?_).bind
    fun after afterTwin _ _ twins wired _ => ?_
  · simpa using ⟨below, further.lt (extends_.lt inside)⟩
  · exact .pure twins ⟨_, wired.lt (further.lt here), rfl, rfl⟩

theorem BuildAlike.loopAtLeastOnce (body : BuildAlike names base build buildTwin) :
    BuildAlike names base (Regexp.loopAtLeastOnce · build) (Regexp.loopAtLeastOnce · buildTwin) := by
  intro workshop other next twins inside
  refine (Tandem.splice twins [next] (by simpa using inside)).bind
    fun middle middleTwin back _ twins extends_ new => ?_
  obtain ⟨rfl, here, rfl⟩ := new
  refine ((body middle middleTwin _ twins here).mono extends_.size).bind
    fun last lastTwin entry entryTwin twins further there => ?_
  obtain ⟨id, below, rfl, rfl⟩ := there
  refine (Tandem.setEpsilons twins (Nat.le_refl _) [next, id] ?_).bind
    fun after afterTwin _ _ twins wired _ => ?_
  · simpa using ⟨further.lt (extends_.lt inside), below⟩
  · exact .pure twins ⟨id, wired.lt below, rfl, rfl⟩

/-! ## Copies -/

theorem BuildAlike.graft {template : Template} (ready : template.Ready) (names : String → RuneSet → Prop)
    (base : Arena) : BuildAlike names base (Compile.graft template) (Compile.graft template) := by
  intro workshop other next twins inside
  obtain ⟨built, entry, grafted, extends_, below⟩ := ready.grafts workshop.arena next twins.formed inside
  refine .onArenaChecked twins grafted ?_ extends_ (twins.packed.graft ready.packed grafted) ⟨entry, below, rfl, rfl⟩
  have raised := template.graft_above base workshop.arena (some next)
  rw [grafted] at raised
  exact raised

theorem BuildAlike.graftTimes {template : Template} (ready : template.Ready) (count : Nat) :
    BuildAlike names base (Regexp.graftTimes template count) (Regexp.graftTimes template count) := by
  induction count with
  | zero =>
    intro workshop other next twins inside
    exact .pure twins ⟨next, inside, rfl, rfl⟩
  | succ count ih =>
    intro workshop other next twins inside
    refine (BuildAlike.graft ready names base workshop other next twins inside).bind
      fun middle middleTwin entry entryTwin twins extends_ there => ?_
    obtain ⟨id, below, rfl, rfl⟩ := there
    exact (ih middle middleTwin id twins below).mono extends_.size

theorem Tandem.graftOptional {template : Template} (ready : template.Ready) (count : Nat)
    {next current : StateId} (twins : workshop.Twin names base other) (inside : next < workshop.arena.size)
    (below : current < workshop.arena.size) :
    Tandem names base workshop.arena.size (Entry base)
      (Regexp.graftOptional template (some next) count (some current))
      (Regexp.graftOptional template (some (base.size + next)) count (some (base.size + current)))
      workshop other := by
  induction count generalizing workshop other current with
  | zero => exact .pure twins ⟨current, below, rfl, rfl⟩
  | succ count ih =>
    refine (BuildAlike.graft ready names base workshop other current twins below).bind
      fun middle middleTwin entry entryTwin twins extends_ there => ?_
    obtain ⟨id, here, rfl, rfl⟩ := there
    refine ((Tandem.splice twins [id, next] ?_).mono extends_.size).bind
      fun last lastTwin skip _ twins further new => ?_
    · simpa using ⟨here, extends_.lt inside⟩
    · obtain ⟨_, there, rfl⟩ := new
      exact (ih twins (further.lt (extends_.lt inside)) there).mono
        (extends_.size.trans further.size)

/-! ## Templates -/

theorem runIn_capture (entry exit : Target) (workshop : Workshop) :
    (do Template.capture (← get).arena entry exit : Compile Template).runIn workshop =
      (fun template => (.ok template, workshop)) <$> Template.capture workshop.arena entry exit := by
  change (do
    let result ← (do
      let template ← Template.capture workshop.arena entry exit
      return (template, workshop) : Checked (Template × Workshop))
    return (Except.ok result.1, result.2) : Checked _) = _
  cases Template.capture workshop.arena entry exit <;> rfl

/-- What the body of a template is built in. -/
def bench (cache : TemplateCache) : Workshop := { arena := openExit, cache }

theorem runIn_template_of_ok (after : Workshop) {entry : Target} {template : Template}
    (ran : (build (some 0)).runIn (bench workshop.cache) = .ok (.ok entry, after))
    (captured : Template.capture after.arena entry (some 0) = .ok template) :
    (Compile.template build).runIn workshop =
      .ok (.ok template, { workshop with cache := after.cache }) := by
  apply runIn_inScratch
  rw [runIn_bind_of_ok (runIn_onArena pushPlaceholder { cache := workshop.cache })]
  refine (runIn_bind_of_ok ran).trans ((runIn_capture entry (some 0) after).trans ?_)
  rw [captured]
  rfl

theorem runIn_template_of_error {error : PatternError}
    (ran : (build (some 0)).runIn (bench workshop.cache) = .ok (.error error, after)) :
    (Compile.template build).runIn workshop =
      .ok (.error error, { workshop with cache := after.cache }) := by
  apply runIn_inScratch
  rw [runIn_bind_of_ok (runIn_onArena pushPlaceholder { cache := workshop.cache })]
  exact runIn_bind_of_error ran

/-- A template that is captured is one of what the body builds in an arena of its own. -/
theorem exists_of_runIn_template {template : Template}
    (ran : (Compile.template build).runIn workshop = .ok (.ok template, after)) :
    ∃ entry last, (build (some 0)).runIn (bench workshop.cache) = .ok (.ok entry, last) ∧
      Template.capture last.arena entry (some 0) = .ok template ∧
      after = { workshop with cache := last.cache } := by
  obtain ⟨scratch, built, rfl⟩ := exists_of_runIn_inScratch ran
  obtain ⟨exit, placed, first, built⟩ := exists_of_runIn_bind built
  cases first
  obtain ⟨entry, last, built, captured⟩ := exists_of_runIn_bind built
  have outcome := (runIn_capture entry (some 0) last).symm.trans captured
  cases taken : Template.capture last.arena entry (some 0) with
  | error fault =>
    rw [taken] at outcome
    cases outcome
  | ok made =>
    rw [taken] at outcome
    cases outcome
    exact ⟨entry, _, built, taken, rfl⟩

theorem bench_twin (twins : workshop.Twin names base other) :
    (bench workshop.cache).Twin names {} (bench other.cache) where
  formed := wellFormed_openExit
  packed := Template.packed_openExit
  behind := (empty_above openExit).symm
  holds := twins.holds
  holdsOther := twins.holdsOther
  agrees := twins.agrees

/-- A body is built in an arena of its own, so both templates are the same. -/
theorem Tandem.template (body : BuildAlike names {} build buildTwin)
    (twins : workshop.Twin names base other) :
    Tandem names base kept (fun _ template templateTwin => templateTwin = template ∧ template.Ready)
      (Compile.template build) (Compile.template buildTwin) workshop other := by
  obtain ⟨outcome, outcomeTwin, after, afterTwin, ran, ranTwin, twinsAfter, extends_, outcomes⟩ :=
    body _ _ 0 (bench_twin twins) Nat.zero_lt_one
  have kept : ({ workshop with cache := after.cache } : Workshop).Twin names base
      { other with cache := afterTwin.cache } :=
    ⟨twins.formed, twins.packed, twins.behind, twinsAfter.holds, twinsAfter.holdsOther, twinsAfter.agrees⟩
  have start : some (({} : Arena).size + 0) = some 0 := rfl
  rw [start] at ranTwin
  cases outcomes with
  | refused error =>
    exact ⟨_, _, _, _, runIn_template_of_error ran, runIn_template_of_error ranTwin, kept,
      .refl _ twins.formed, .refused error⟩
  | made there =>
    obtain ⟨entry, inside, rfl, rfl⟩ := there
    have same : afterTwin.arena = after.arena := twinsAfter.behind.trans (empty_above after.arena)
    have entrySame : ({} : Arena).size + entry = entry := Nat.zero_add entry
    obtain ⟨template, captured, grafts⟩ := capture_grafts extends_ inside
    rw [entrySame] at ranTwin
    exact ⟨_, _, _, _, runIn_template_of_ok after ran captured,
      runIn_template_of_ok afterTwin ranTwin (same.symm ▸ captured), kept, .refl _ twins.formed,
      .made ⟨rfl, grafts, twinsAfter.packed.capture captured⟩⟩

theorem runIn_template_runes {set : RuneSet} {made : Template} (computed : Template.ofRunes set = .ok made)
    (workshop : Workshop) :
    (Compile.template fun exit =>
      return some (← onArena fun arena => arena.pushRuneTrie set exit)).runIn workshop =
        .ok (.ok made, workshop) := by
  exact runIn_template_of_ok ⟨(openExit.pushRuneTrie set (some 0)).1, workshop.cache⟩ rfl computed

/-- A template is taken from the cache, or made and kept. -/
theorem runIn_cached_runes {set : RuneSet} {made : Template} (key : String)
    (computed : Template.ofRunes set = .ok made) (workshop : Workshop) :
    ∃ after, (Compile.cached key (Compile.template fun exit =>
        return some (← onArena fun arena => arena.pushRuneTrie set exit))).runIn workshop =
          .ok (.ok ((workshop.cache.find? key).getD made), after) ∧
      after.arena = workshop.arena ∧
      after.cache.find? key = some ((workshop.cache.find? key).getD made) ∧
      (∀ name, name ≠ key → after.cache.find? name = workshop.cache.find? name) ∧
      (after.cache = workshop.cache ∨ after.cache = workshop.cache.insert key made) := by
  rw [runIn_cached]
  cases found : workshop.cache.find? key with
  | some template => exact ⟨workshop, rfl, rfl, found, fun _ _ => rfl, Or.inl rfl⟩
  | none =>
    refine ⟨_, runIn_kept_of_ok (runIn_template_runes computed workshop), rfl, ?_, fun name other => ?_,
      Or.inr rfl⟩
    · exact (TemplateCache.find?_insert _ _ _ _).trans (if_pos rfl)
    · exact (TemplateCache.find?_insert _ _ _ _).trans (if_neg (Ne.symm other))

/-- Both caches serve a set of runes with one template. -/
theorem Tandem.cached {key : String} {set : RuneSet} (named : names key set) (proper : set.Proper)
    (twins : workshop.Twin names base other) :
    Tandem names base kept (fun _ template templateTwin => templateTwin = template ∧ template.Ready)
      (Compile.cached key (Compile.template fun exit =>
        return some (← Compile.onArena fun arena => arena.pushRuneTrie set.simplify exit)))
      (Compile.cached key (Compile.template fun exit =>
        return some (← Compile.onArena fun arena => arena.pushRuneTrie set.simplify exit)))
      workshop other := by
  obtain ⟨made, computed, reads⟩ := Template.ofRunes_eq set.simplify
  obtain ⟨after, ran, arena, served, elsewhere, grown⟩ := runIn_cached_runes key computed workshop
  obtain ⟨afterTwin, ranTwin, arenaTwin, servedTwin, elsewhereTwin, grownTwin⟩ :=
    runIn_cached_runes key computed other
  have same := twins.agrees key set made named proper computed
  have holds {before now : TemplateCache} (holds : before.Holds names)
      (grown : now = before ∨ now = before.insert key made) : now.Holds names := by
    rcases grown with rfl | rfl
    · exact holds
    · exact holds.insert named proper computed
  have holdsAfter := holds twins.holds grown
  refine ⟨_, _, after, afterTwin, ran, ranTwin, ⟨arena ▸ twins.formed, arena ▸ twins.packed, ?_, holdsAfter,
    holds twins.holdsOther grownTwin, ?_⟩, arena.symm ▸ .refl _ twins.formed, ?_⟩
  · rw [arena, arenaTwin]
    exact twins.behind
  · exact twins.agrees.congr key (fun name other => ⟨elsewhere name other, elsewhereTwin name other⟩)
      (by rw [served, servedTwin, same])
  · rw [same]
    exact .made ⟨rfl, same ▸ holdsAfter.ready served⟩

/-! ## Sets of runes -/

theorem runes_of_swapped {set : RuneSet} {interval : RuneInterval} (swapped : set.firstSwapped? = some interval)
    (config : Config) (name : Option String) (next : Target) :
    runes config name set next = MonadExcept.throw (.invalidRuneRange interval) := by
  unfold runes
  rw [swapped]
  rfl

theorem runes_of_small {config : Config} {set : RuneSet} (proper : set.firstSwapped? = none)
    (small : set.simplify.count < config.shellCacheMinRunes) (name : Option String) (next : Target) :
    runes config name set next = do
      return some (← Compile.onArena fun arena => arena.pushRuneTrie set.simplify next) := by
  unfold runes
  rw [proper]
  simp only [if_pos small]

theorem runes_of_large {config : Config} {set : RuneSet} (proper : set.firstSwapped? = none)
    (large : ¬ set.simplify.count < config.shellCacheMinRunes) (name : Option String) (next : Target) :
    runes config name set next = (do
      let template ← Compile.cached (name.getD set.simplify.canonicalName) (Compile.template fun exit =>
        return some (← Compile.onArena fun arena => arena.pushRuneTrie set.simplify exit))
      Compile.graft template next) := by
  unfold runes
  rw [proper]
  simp only [if_neg large]

theorem BuildAlike.runes (config : Config) {name : Option String} {set : RuneSet}
    (named : names (name.getD set.simplify.canonicalName) set) :
    BuildAlike names base (Compile.runes config name set) (Compile.runes config name set) := by
  intro workshop other next twins inside
  cases swapped : set.firstSwapped? with
  | some interval =>
    rw [runes_of_swapped swapped, runes_of_swapped swapped]
    exact .throw twins _
  | none =>
    have proper := RuneSet.firstSwapped?_eq_none_iff.mp swapped
    by_cases small : set.simplify.count < config.shellCacheMinRunes
    · rw [runes_of_small swapped small, runes_of_small swapped small]
      exact .runeTrie set.simplify twins inside
    · rw [runes_of_large swapped small, runes_of_large swapped small]
      refine (Tandem.cached named proper twins).bind
        fun middle middleTwin template templateTwin twins extends_ both => ?_
      obtain ⟨rfl, ready⟩ := both
      exact (BuildAlike.graft ready names base middle middleTwin next twins (extends_.lt inside)).mono
        extends_.size

end Compile

end ByteAutomata
