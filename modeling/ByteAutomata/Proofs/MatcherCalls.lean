import ByteAutomata.Proofs.LeftoverFrontiers
import ByteAutomata.Proofs.PatternTwins
import ByteAutomata.Proofs.RootedArenas
import ByteAutomata.Proofs.UnionReports

/-!
Adding one pattern to a matcher.

What is compiled behind the states of a matcher is what would be compiled by itself. So a call either is
refused, and then all that it has built is cut off again, or joins a fragment to the union that depends on
the pattern alone.
-/

namespace ByteAutomata

namespace Arena

variable {arena base : Arena} {id : StateId} {x : Continuation} {start : Target} {value : List UInt8}

/-- Behind the states of another arena an automaton reports what it reports by itself. -/
theorem reports_above_iff (base : Arena) (formed : arena.WellFormed) (inside : id < arena.size) :
    (base.above arena).Reports (some (base.size + id)) value x ↔ arena.Reports (some id) value x := by
  rw [reports_some_iff, reports_some_iff]
  refine exists_congr fun read => and_congr_right fun _ => Iff.symm ?_
  refine yields_iff_of_renamed (base.size + ·) (· < arena.size) (fun _ => False) (fun id bound => ?_)
    (fun _ outside => outside.elim) inside read
  obtain ⟨state, found⟩ := exists_get? bound
  refine ⟨state, state.raise base.size, found, ?_, state.renamesTo_raise base.size, fun next leads =>
    ⟨Or.inl ((formed.fits found).lt_of_leadsTo leads), fun same => Nat.add_left_cancel same⟩⟩
  rw [get?_above, found]
  rfl

theorem Yields.exists_holds {read : List UInt8} (yields : arena.Yields x id read) :
    ∃ id, arena.Holds id x := by
  induction yields with
  | here holds => exact ⟨_, holds⟩
  | forward _ _ ih => exact ih
  | read _ _ ih => exact ih

/-- What is reported is held by some state. -/
theorem Reports.exists_holds (reports : arena.Reports start value x) : ∃ id, arena.Holds id x := by
  obtain ⟨id, _, read, _, yields⟩ := reports
  exact yields.exists_holds

/-- A state that reports, for a fragment to be built in front of it. -/
def matchState (x : Continuation) : Arena := (({} : Arena).pushMatch x).1

theorem wellFormed_matchState (x : Continuation) : (matchState x).WellFormed :=
  wellFormed_empty.push (.of_idle _ [x])

theorem packed_matchState (x : Continuation) : (matchState x).Packed := packed_empty.pushMatch x

theorem pushMatch_eq_above (base : Arena) (x : Continuation) :
    (base.pushMatch x).1 = base.above (matchState x) := by
  have pushed := pushMatch_above base {} x
  rw [above_empty] at pushed
  exact congrArg Prod.fst pushed

/-- What is built in front of a reporting state reports nothing else. -/
theorem Extends.eq_of_reports {kept : Nat} {built : Arena} {y : Continuation}
    (extends_ : Extends kept (matchState x) built) (reports : built.Reports start value y) : y = x := by
  obtain ⟨id, holds⟩ := reports.exists_holds
  obtain ⟨original, state, found, held⟩ := extends_.holds id y holds
  have first : original = 0 := Nat.lt_one_iff.mp (lt_size_of_get? found)
  subst first
  cases found
  exact List.mem_singleton.mp held

end Arena

open Arena Compile

namespace Matcher

/-- Joins a fragment to the union, behind its states, and publishes the result. -/
def join (matcher : Matcher) (fragment : Arena) (entry : StateId) : Checked Matcher := do
  let joined ← (matcher.arena.above fragment).union matcher.start (some (matcher.arena.size + entry))
  let copied ← joined.1.extract joined.2
  let published ← publishable matcher.config copied.1 copied.2
  return { matcher with
    arena := copied.1, start := copied.2, patterns := matcher.patterns + 1, published }

/-- The states are well-formed and packed. Before any pattern is added there are none, and afterwards all of
them can be reached from the first one, which is the start. What is published is made of them. -/
structure Sound (matcher : Matcher) : Prop where
  formed : matcher.arena.WellFormed
  packed : matcher.arena.Packed
  within : matcher.arena.TargetWithin matcher.start
  published : (matcher.patterns = 0 ∧ matcher.arena = {} ∧ matcher.start = none ∧ matcher.published = {}) ∨
    (0 < matcher.patterns ∧ matcher.start = some 0 ∧ matcher.arena.Rooted ∧
      publishable matcher.config matcher.arena matcher.start = .ok matcher.published)

variable {matcher : Matcher} {fragment : Arena} {entry : StateId}

theorem sound_blank (config : Config) : ({ config } : Matcher).Sound where
  formed := wellFormed_empty
  packed := packed_empty
  within := by simp [TargetWithin]
  published := Or.inl ⟨rfl, rfl, rfl, rfl⟩

/-- Below the ceiling of tables the published automaton matches what the union reports. -/
theorem Sound.matched_eq (sound : matcher.Sound) {value : List UInt8}
    (below : ∀ byte ∈ value, byte < byteCeiling) :
    ∃ found, matcher.matched value = .ok found ∧ found.Nodup ∧
      ∀ x, x ∈ found ↔ matcher.arena.Reports matcher.start value x := by
  rcases sound.published with ⟨_, _, start, published⟩ | ⟨_, _, _, published⟩
  · refine ⟨[], ?_, List.nodup_nil, by simp [start]⟩
    rw [matched, published]
    rfl
  · obtain ⟨automaton, publishedToo, matches_⟩ := publishable_eq sound.formed sound.within matcher.config
    rw [published, Except.ok.injEq] at publishedToo
    rw [matched, publishedToo]
    exact matches_ value below

theorem exists_start_of_resolves {arena joined : Arena} {pairs : List (StateId × StateId)} {left : Target}
    {right : StateId} {target : Target} (unites : arena.Unites pairs joined) (within : arena.TargetWithin left)
    (inside : right < arena.size) (resolves : Resolves arena.size pairs left (some right) target) :
    ∃ start, target = some start ∧ start < joined.size := by
  have insideRight : arena.TargetWithin (some right) := targetWithin_some inside
  cases left with
  | some left =>
    obtain ⟨start, same, below, _⟩ := unites.exists_start within insideRight resolves
    exact ⟨start, same, below⟩
  | none =>
    cases resolves
    exact ⟨right, rfl, unites.size ▸ Nat.lt_add_right _ inside⟩

/-- Joining never faults. The union reports what it reported and what the fragment reports. -/
theorem Sound.join_eq (sound : matcher.Sound) (formed : fragment.WellFormed) (packed : fragment.Packed)
    (inside : entry < fragment.size) :
    ∃ after, matcher.join fragment entry = .ok after ∧ after.Sound ∧ after.config = matcher.config ∧
      after.patterns = matcher.patterns + 1 ∧ ∀ value x, after.arena.Reports after.start value x ↔
        matcher.arena.Reports matcher.start value x ∨ fragment.Reports (some entry) value x := by
  have formedAbove := sound.formed.above formed
  have withinStart : (matcher.arena.above fragment).TargetWithin matcher.start := fun id same =>
    size_above matcher.arena fragment ▸ Nat.lt_add_right _ (sound.within id same)
  have insideEntry : matcher.arena.size + entry < (matcher.arena.above fragment).size :=
    size_above matcher.arena fragment ▸ Nat.add_lt_add_left inside _
  have withinEntry : (matcher.arena.above fragment).TargetWithin (some (matcher.arena.size + entry)) :=
    targetWithin_some insideEntry
  obtain ⟨joined, target, pairs, united, unites, resolves⟩ := union_eq formedAbove withinStart withinEntry
  obtain ⟨start, rfl, below⟩ := exists_start_of_resolves unites withinStart insideEntry resolves
  have packedJoined := (sound.packed.above packed).union united
  have solid : ∀ id state, joined.get? id = some state → state.table.Solid :=
    fun id state stored => (packedJoined id state stored).solid
  obtain ⟨copied, found, ids, ran, extracted⟩ := extract_some_eq unites.formed below
  have formedCopy := extracted.formed unites.formed
  obtain ⟨published, publishes, _⟩ := publishable_eq formedCopy extracted.within matcher.config
  refine ⟨{ matcher with
    arena := copied, start := some 0, patterns := matcher.patterns + 1, published }, ?_, ?_, rfl, rfl, ?_⟩
  · simp only [join, united, ran, publishes, bind, Except.bind]
    rfl
  · exact ⟨formedCopy, extracted.packed packedJoined, extracted.within,
      Or.inr ⟨Nat.succ_pos _, rfl, extracted.rooted unites.formed (fun id _ => solid id), publishes⟩⟩
  · intro value x
    rw [extracted.reports_iff unites.formed,
      unites.reports_iff formedAbove withinStart withinEntry resolves,
      reports_above_iff matcher.arena formed inside,
      reports_iff_of_kept sound.formed (fun id below => get?_above_of_lt fragment below) sound.within]

/-! ## One call -/

section

variable [Unicode.Database] {cache : TemplateCache} {pattern : Pattern} {x : Continuation} {workshop : Workshop}

theorem add_of_refused {error : PatternError} (ran : (pattern.compile matcher.config
      (some matcher.arena.size)).runIn { arena := (matcher.arena.pushMatch x).1, cache } =
        .ok (.error error, workshop))
    (behind : workshop.arena = matcher.arena.above fragment) :
    matcher.add cache pattern x = .ok (.error error, matcher, workshop.cache) := by
  change (do
    let compiled ← (pattern.compile matcher.config (some matcher.arena.size)).runIn
      { arena := (matcher.arena.pushMatch x).1, cache }
    _) = _
  rw [ran]
  change Except.ok (Except.error error, { matcher with
    arena := workshop.arena.truncate matcher.arena.size }, workshop.cache) = _
  rw [behind, truncate_above]

theorem add_of_compiled (ran : (pattern.compile matcher.config
      (some matcher.arena.size)).runIn { arena := (matcher.arena.pushMatch x).1, cache } =
        .ok (.ok (some (matcher.arena.size + entry)), workshop))
    (behind : workshop.arena = matcher.arena.above fragment) :
    matcher.add cache pattern x =
      (fun after => (.ok (), after, workshop.cache)) <$> matcher.join fragment entry := by
  change (do
    let compiled ← (pattern.compile matcher.config (some matcher.arena.size)).runIn
      { arena := (matcher.arena.pushMatch x).1, cache }
    _) = _
  rw [ran]
  change (do
    let joined ← workshop.arena.union matcher.start (some (matcher.arena.size + entry))
    let copied ← joined.1.extract joined.2
    let published ← publishable matcher.config copied.1 copied.2
    return (Except.ok (), { matcher with
      arena := copied.1, start := copied.2, patterns := matcher.patterns + 1, published }, workshop.cache) :
        Checked _) = _
  rw [behind]
  unfold join
  cases (matcher.arena.above fragment).union matcher.start (some (matcher.arena.size + entry)) with
  | error fault => rfl
  | ok joined =>
    change (do
      let copied ← joined.1.extract joined.2
      _ : Checked _) = _ <$> (do
        let copied ← joined.1.extract joined.2
        _ : Checked Matcher)
    cases joined.1.extract joined.2 with
    | error fault => rfl
    | ok copied =>
      change (do
        let published ← publishable matcher.config copied.1 copied.2
        _ : Checked _) = _ <$> (do
          let published ← publishable matcher.config copied.1 copied.2
          _ : Checked Matcher)
      cases publishable matcher.config copied.1 copied.2 <;> rfl

/-- A pattern compiled by itself, in front of a state that reports. -/
def compiledAlone (config : Config) (cache : TemplateCache) (pattern : Pattern) (x : Continuation) :
    Checked (Except PatternError Target × Workshop) :=
  (pattern.compile config (some 0)).runIn { arena := matchState x, cache }

variable {names : String → RuneSet → Prop} {alone : TemplateCache}

/-- A pattern is compiled by itself without a fault, and what a call does is told by this alone: the matcher
stays as it is if the pattern is refused, and else the fragment joins it. -/
theorem add_eq (matcher : Matcher)
    (canonical : ∀ set : RuneSet, names set.simplify.canonicalName set)
    (listed : ∀ property ∈ pattern.properties, names property.1 property.2)
    (holdsAlone : alone.Holds names) (holds : cache.Holds names) (agrees : alone.Agrees names cache)
    (x : Continuation) :
    ∃ outcome built after, compiledAlone matcher.config alone pattern x = .ok (outcome, built) ∧
      Extends 1 (matchState x) built.arena ∧ built.arena.Packed ∧
      built.cache.Holds names ∧ after.Holds names ∧ built.cache.Agrees names after ∧
      ((∃ error, outcome = .error error ∧
        matcher.add cache pattern x = .ok (.error error, matcher, after)) ∨
      ∃ entry < built.arena.size, outcome = .ok (some entry) ∧
        matcher.add cache pattern x =
          (fun joined => (.ok (), joined, after)) <$> matcher.join built.arena entry) := by
  have twins : Workshop.Twin names matcher.arena { arena := matchState x, cache := alone }
      { arena := (matcher.arena.pushMatch x).1, cache } :=
    ⟨wellFormed_matchState x, packed_matchState x, pushMatch_eq_above matcher.arena x, holdsAlone, holds, agrees⟩
  obtain ⟨outcome, outcomeTwin, built, after, ran, ranTwin, twinsAfter, extends_, outcomes⟩ :=
    Pattern.compile_alike matcher.config canonical listed matcher.arena _ _ 0 twins Nat.zero_lt_one
  refine ⟨outcome, built, after.cache, ran, extends_, twinsAfter.packed, twinsAfter.holds,
    twinsAfter.holdsOther, twinsAfter.agrees, ?_⟩
  rw [Nat.add_zero] at ranTwin
  cases outcomes with
  | refused error => exact Or.inl ⟨error, rfl, add_of_refused ranTwin twinsAfter.behind⟩
  | made there =>
    obtain ⟨entry, inside, rfl, rfl⟩ := there
    exact Or.inr ⟨entry, inside, rfl, add_of_compiled ranTwin twinsAfter.behind⟩

end

/-! ## Calls one after the other -/

/-- Adds patterns one after the other. Listed are the verdict on each and the matcher behind it. -/
def addAll [Unicode.Database] (matcher : Matcher) (cache : TemplateCache) :
    List (Pattern × Continuation) → Checked (List (Except PatternError Unit × Matcher))
  | [] => return []
  | call :: rest => do
    let added ← matcher.add cache call.1 call.2
    return (added.1, added.2.1) :: (← addAll added.2.1 added.2.2 rest)

/-- The calls whose patterns were not refused. -/
def accepted (calls : List (Pattern × Continuation)) (record : List (Except PatternError Unit × Matcher)) :
    List (Pattern × Continuation) :=
  ((calls.zip record).filter (·.2.1.isOk)).map (·.1)

/-- The matcher behind all calls. -/
def behind (matcher : Matcher) (record : List (Except PatternError Unit × Matcher)) : Matcher :=
  (record.getLast?.map (·.2)).getD matcher

@[simp] theorem accepted_cons_ok (call : Pattern × Continuation) (calls : List (Pattern × Continuation))
    (after : Matcher) (record : List (Except PatternError Unit × Matcher)) :
    accepted (call :: calls) ((.ok (), after) :: record) = call :: accepted calls record := by
  unfold accepted
  rw [List.zip_cons_cons, List.filter_cons_of_pos rfl, List.map_cons]

@[simp] theorem accepted_cons_error (call : Pattern × Continuation) (calls : List (Pattern × Continuation))
    (error : PatternError) (after : Matcher) (record : List (Except PatternError Unit × Matcher)) :
    accepted (call :: calls) ((.error error, after) :: record) = accepted calls record := by
  unfold accepted
  rw [List.zip_cons_cons, List.filter_cons_of_neg Bool.false_ne_true]

theorem behind_cons (matcher after : Matcher) (verdict : Except PatternError Unit)
    (record : List (Except PatternError Unit × Matcher)) :
    behind matcher ((verdict, after) :: record) = behind after record := by
  unfold behind
  rw [List.getLast?_cons]
  cases record.getLast? <;> rfl

/-- Templates may be of any sets. -/
abbrev anyName : String → RuneSet → Prop := fun _ _ => True

/-- Whatever names the properties have, a call is refused and changes nothing, or its fragment joins. Which of
both it is and what joins can be told with any cache that serves as the one at hand. -/
theorem Sound.add_any [Unicode.Database] (sound : matcher.Sound) (holdsAlone : alone.Holds anyName)
    (holds : cache.Holds anyName) (agrees : alone.Agrees anyName cache) (call : Pattern × Continuation) :
    ∃ outcome built left, compiledAlone matcher.config alone call.1 call.2 = .ok (outcome, built) ∧
      built.cache.Holds anyName ∧ left.Holds anyName ∧ built.cache.Agrees anyName left ∧
      ((∃ error, outcome = .error error ∧
        matcher.add cache call.1 call.2 = .ok (.error error, matcher, left)) ∨
      ∃ entry after, outcome = .ok (some entry) ∧ matcher.join built.arena entry = .ok after ∧ after.Sound ∧
        after.config = matcher.config ∧ after.patterns = matcher.patterns + 1 ∧
        matcher.add cache call.1 call.2 = .ok (.ok (), after, left)) := by
  have any : ∀ property ∈ call.1.properties, anyName property.1 property.2 := fun _ _ => trivial
  obtain ⟨outcome, built, left, ran, extends_, packed, holdsBuilt, holdsLeft, agreesLeft, told⟩ :=
    add_eq matcher (fun _ => trivial) any holdsAlone holds agrees call.2
  refine ⟨outcome, built, left, ran, holdsBuilt, holdsLeft, agreesLeft, ?_⟩
  rcases told with refused | ⟨entry, inside, same, added⟩
  · exact Or.inl refused
  · obtain ⟨after, joined, soundAfter, sameConfig, counted, _⟩ := sound.join_eq extends_.formed packed inside
    rw [joined] at added
    exact Or.inr ⟨entry, after, same, joined, soundAfter, sameConfig, counted, added⟩

theorem addAll_cons [Unicode.Database] {call : Pattern × Continuation} {calls : List (Pattern × Continuation)}
    {verdict : Except PatternError Unit} {after : Matcher} {left : TemplateCache}
    {record : List (Except PatternError Unit × Matcher)}
    (added : matcher.add cache call.1 call.2 = .ok (verdict, after, left))
    (goesOn : after.addAll left calls = .ok record) :
    matcher.addAll cache (call :: calls) = .ok ((verdict, after) :: record) := by
  simp only [addAll, added, bind, Except.bind, goesOn]
  rfl

end Matcher

end ByteAutomata
