import ByteAutomata.Proofs.FilledCaches
import ByteAutomata.Proofs.MatcherCalls

/-!
Histories of a matcher.

What a pattern is compiled to by itself decides what each call with it does, whatever was added before and
whatever templates are at hand. So a history tells verdicts and matchers by these compilations alone. Calls
that were refused can be left out of it, and what the last matcher reports is what the accepted calls
contribute.
-/

namespace ByteAutomata

open Arena Compile

/-- The properties of the regexp have the sets that their escapes are read as. -/
def Regexp.Resolved [Unicode.Database] (root : Regexp.Root) : Prop :=
  ∀ property ∈ Regexp.rootProperties root, Regexp.IsProperty property.1 property.2

/-- The properties of the pattern have the sets that their escapes are read as. -/
def Pattern.Resolved [Unicode.Database] (pattern : Pattern) : Prop :=
  ∀ property ∈ pattern.properties, Regexp.IsProperty property.1 property.2

namespace TemplateCache

/-- Each template is for the set that its name stands for. -/
def Honest [Unicode.Database] (cache : TemplateCache) : Prop :=
  cache.Holds fun key set => set.Named key

theorem FilledBy.honest [Unicode.Database] {cache : TemplateCache} (filled : cache.FilledBy Regexp.Resolved) :
    cache.Honest :=
  filled.holds (fun _ => .canonical) fun _ resolved property listed => .property (resolved property listed)

end TemplateCache

namespace Matcher

variable {config : Config} {matcher after : Matcher} {call : Pattern × Continuation}
  {calls : List (Pattern × Continuation)} {record : List (Except PatternError Unit × Matcher)}
  {error : PatternError} {fragment : Arena} {entry : StateId} {cache : TemplateCache}
  {value : List UInt8} {x : Continuation}

/-! ## One call by itself -/

section

variable [Unicode.Database]

/-- The pattern is refused when it is compiled by itself. -/
def Refused (config : Config) (call : Pattern × Continuation) (error : PatternError) : Prop :=
  ∃ workshop, compiledAlone config {} call.1 call.2 = .ok (.error error, workshop)

/-- By itself the pattern is compiled to this fragment. -/
structure Builds (config : Config) (call : Pattern × Continuation) (fragment : Arena) (entry : StateId) :
    Prop where
  ran : ∃ cache, compiledAlone config {} call.1 call.2 = .ok (.ok (some entry), ⟨fragment, cache⟩)
  extends_ : Extends 1 (matchState call.2) fragment
  packed : fragment.Packed
  inside : entry < fragment.size

theorem Builds.unique {other : Arena} {place : StateId} (first : Builds config call fragment entry)
    (second : Builds config call other place) : fragment = other ∧ entry = place := by
  obtain ⟨cache, ran⟩ := first.ran
  obtain ⟨cacheToo, ranToo⟩ := second.ran
  rw [ran] at ranToo
  cases ranToo
  exact ⟨rfl, rfl⟩

theorem Refused.not_builds (refused : Refused config call error) : ¬ Builds config call fragment entry := by
  intro builds
  obtain ⟨workshop, ran⟩ := refused
  obtain ⟨cache, ranToo⟩ := builds.ran
  rw [ran] at ranToo
  cases ranToo

/-- A call goes as its pattern goes by itself. -/
theorem add_eq_alone (matcher : Matcher) (resolved : call.1.Resolved) (honest : cache.Honest) :
    ∃ after : TemplateCache, after.Honest ∧
      ((∃ error, Refused matcher.config call error ∧
        matcher.add cache call.1 call.2 = .ok (.error error, matcher, after)) ∨
      ∃ fragment entry, Builds matcher.config call fragment entry ∧
        matcher.add cache call.1 call.2 =
          (fun joined => (.ok (), joined, after)) <$> matcher.join fragment entry) := by
  have blank : ({} : TemplateCache).Honest := TemplateCache.holds_empty _
  obtain ⟨outcome, built, after, ran, extends_, packed, _, honestAfter, _, told⟩ :=
    add_eq matcher (fun _ => .canonical) (fun property listed => .property (resolved property listed))
      blank honest (blank.agrees honest) call.2
  refine ⟨after, honestAfter, ?_⟩
  rcases told with ⟨error, rfl, added⟩ | ⟨entry, inside, rfl, added⟩
  · exact Or.inl ⟨error, ⟨built, ran⟩, added⟩
  · exact Or.inr ⟨built.arena, entry, ⟨⟨built.cache, ran⟩, extends_, packed, inside⟩, added⟩

/-- The pattern contributes the continuation if its fragment reports it. -/
def Contributes (config : Config) (call : Pattern × Continuation) (value : List UInt8) (x : Continuation) :
    Prop :=
  ∃ fragment entry, Builds config call fragment entry ∧ fragment.Reports (some entry) value x

theorem Contributes.eq (contributes : Contributes config call value x) : x = call.2 := by
  obtain ⟨fragment, entry, builds, reports⟩ := contributes
  exact builds.extends_.eq_of_reports reports

/-! ## Calls one after the other -/

/-- Each call is refused or joins its fragment. -/
inductive History : Matcher → List (Pattern × Continuation) → List (Except PatternError Unit × Matcher) → Prop
  | done {matcher : Matcher} : History matcher [] []
  | refused {matcher : Matcher} {call : Pattern × Continuation} {rest : List (Pattern × Continuation)}
      {error : PatternError} {record : List (Except PatternError Unit × Matcher)} :
      Refused matcher.config call error → History matcher rest record →
      History matcher (call :: rest) ((.error error, matcher) :: record)
  | joined {matcher after : Matcher} {call : Pattern × Continuation} {rest : List (Pattern × Continuation)}
      {fragment : Arena} {entry : StateId} {record : List (Except PatternError Unit × Matcher)} :
      Builds matcher.config call fragment entry → matcher.join fragment entry = .ok after →
      after.config = matcher.config → History after rest record →
      History matcher (call :: rest) ((.ok (), after) :: record)

theorem exists_history (sound : matcher.Sound) (resolved : ∀ call ∈ calls, call.1.Resolved) :
    ∃ record, History matcher calls record := by
  induction calls generalizing matcher with
  | nil => exact ⟨[], .done⟩
  | cons call rest ih =>
    have resolvedRest : ∀ call ∈ rest, call.1.Resolved := fun call member =>
      resolved call (List.mem_cons_of_mem _ member)
    obtain ⟨_, _, told⟩ := add_eq_alone matcher (resolved call List.mem_cons_self)
      (TemplateCache.holds_empty fun key set => set.Named key)
    rcases told with ⟨error, refused, _⟩ | ⟨fragment, entry, builds, _⟩
    · obtain ⟨record, history⟩ := ih sound resolvedRest
      exact ⟨_, .refused refused history⟩
    · obtain ⟨after, joined, soundAfter, same, _⟩ :=
        sound.join_eq builds.extends_.formed builds.packed builds.inside
      obtain ⟨record, history⟩ := ih soundAfter resolvedRest
      exact ⟨_, .joined builds joined same history⟩

/-- Whatever honest cache is at hand, the calls go as the history tells. -/
theorem History.addAll_eq (history : History matcher calls record)
    (resolved : ∀ call ∈ calls, call.1.Resolved) (honest : cache.Honest) :
    matcher.addAll cache calls = .ok record := by
  induction history generalizing cache with
  | done => rfl
  | @refused matcher call rest error record refused _ ih =>
    obtain ⟨after, honestAfter, told⟩ := add_eq_alone matcher (resolved call List.mem_cons_self) honest
    have goesOn := ih (fun call member => resolved call (List.mem_cons_of_mem _ member)) honestAfter
    rcases told with ⟨other, refusedToo, added⟩ | ⟨fragment, entry, builds, _⟩
    · obtain ⟨workshop, ran⟩ := refused
      obtain ⟨workshopToo, ranToo⟩ := refusedToo
      rw [ran] at ranToo
      cases ranToo
      exact addAll_cons added goesOn
    · exact absurd builds refused.not_builds
  | @joined matcher after call rest fragment entry record builds joined _ _ ih =>
    obtain ⟨left, honestAfter, told⟩ := add_eq_alone matcher (resolved call List.mem_cons_self) honest
    have goesOn := ih (fun call member => resolved call (List.mem_cons_of_mem _ member)) honestAfter
    rcases told with ⟨error, refused, _⟩ | ⟨other, place, buildsToo, added⟩
    · exact absurd builds refused.not_builds
    · obtain ⟨rfl, rfl⟩ := builds.unique buildsToo
      rw [joined] at added
      exact addAll_cons added goesOn

/-- Calls that were refused can be left out. -/
theorem History.accepted (history : History matcher calls record) :
    History matcher (accepted calls record) (record.filter (·.1.isOk)) := by
  induction history with
  | done => exact .done
  | refused _ _ ih =>
    rw [accepted_cons_error, List.filter_cons_of_neg Bool.false_ne_true]
    exact ih
  | joined builds joined same _ ih =>
    rw [accepted_cons_ok, List.filter_cons_of_pos rfl]
    exact .joined builds joined same ih

theorem History.length_eq (history : History matcher calls record) : record.length = calls.length := by
  induction history with
  | done => rfl
  | refused _ _ ih => rw [List.length_cons, List.length_cons, ih]
  | joined _ _ _ _ ih => rw [List.length_cons, List.length_cons, ih]

/-- Behind a call that is refused the matcher is the one before it. -/
theorem History.refused_eq (history : History matcher calls record) {place : Nat}
    (stood : record[place]? = some (.error error, after)) :
    (matcher :: record.map (·.2))[place]? = some after := by
  induction history generalizing place with
  | done => cases stood
  | refused _ _ ih =>
    cases place with
    | zero =>
      cases stood
      rfl
    | succ place => exact ih stood
  | joined _ _ _ _ ih =>
    cases place with
    | zero => cases stood
    | succ place => exact ih stood

/-! ## What the last matcher reports -/

theorem History.mem_accepted_iff (history : History matcher calls record) :
    call ∈ Matcher.accepted calls record ↔
      call ∈ calls ∧ ∃ fragment entry, Builds matcher.config call fragment entry := by
  induction history with
  | done => simp [Matcher.accepted]
  | @refused matcher head rest error record refused _ ih =>
    rw [accepted_cons_error, ih, List.mem_cons, or_and_right]
    refine (or_iff_right ?_).symm
    rintro ⟨rfl, fragment, entry, builds⟩
    exact refused.not_builds builds
  | @joined matcher after head rest fragment entry record builds _ same _ ih =>
    rw [accepted_cons_ok, List.mem_cons, ih, List.mem_cons, or_and_right, same]
    refine or_congr_left (iff_self_and.mpr ?_)
    rintro rfl
    exact ⟨fragment, entry, builds⟩

/-- The last matcher is sound, and reports what the first one reports and what accepted calls contribute. -/
theorem History.behind_reports (history : History matcher calls record) (sound : matcher.Sound) :
    (behind matcher record).Sound ∧ (behind matcher record).config = matcher.config ∧
      ∀ value x, (behind matcher record).arena.Reports (behind matcher record).start value x ↔
        matcher.arena.Reports matcher.start value x ∨
          ∃ call ∈ Matcher.accepted calls record, Contributes matcher.config call value x := by
  induction history with
  | done => exact ⟨sound, rfl, fun value x => by simp [behind, Matcher.accepted]⟩
  | refused _ _ ih =>
    rw [behind_cons, accepted_cons_error]
    exact ih sound
  | @joined matcher after call rest fragment entry record builds joined same _ ih =>
    obtain ⟨made, joinedToo, soundAfter, _, _, reports⟩ :=
      sound.join_eq builds.extends_.formed builds.packed builds.inside
    rw [joined, Except.ok.injEq] at joinedToo
    subst joinedToo
    obtain ⟨soundLast, sameLast, ih⟩ := ih soundAfter
    rw [behind_cons]
    refine ⟨soundLast, sameLast.trans same, fun value x => ?_⟩
    have contributes : fragment.Reports (some entry) value x ↔ Contributes matcher.config call value x := by
      refine ⟨fun reported => ⟨fragment, entry, builds, reported⟩, ?_⟩
      rintro ⟨other, place, buildsToo, reported⟩
      obtain ⟨rfl, rfl⟩ := builds.unique buildsToo
      exact reported
    rw [ih, reports, same, contributes, accepted_cons_ok, or_assoc]
    simp only [List.mem_cons, exists_eq_or_imp]

/-- A blank matcher that is given one call reports what the call contributes. -/
theorem Builds.add_eq (builds : Builds config call fragment entry) (resolved : call.1.Resolved) :
    ∃ fresh cache, ({ config } : Matcher).add {} call.1 call.2 = .ok (.ok (), fresh, cache) ∧ fresh.Sound ∧
      ∀ value x, fresh.arena.Reports fresh.start value x ↔ Contributes config call value x := by
  have history : ∃ fresh, History { config } [call] [(.ok (), fresh)] := by
    obtain ⟨fresh, joined, _, same, _⟩ :=
      (sound_blank config).join_eq builds.extends_.formed builds.packed builds.inside
    exact ⟨fresh, .joined builds joined same .done⟩
  obtain ⟨fresh, history⟩ := history
  obtain ⟨sound, _, reports⟩ := history.behind_reports (sound_blank config)
  have blank : ({} : TemplateCache).Honest := TemplateCache.holds_empty _
  have ran := history.addAll_eq (by simpa using resolved) blank
  obtain ⟨⟨verdict, made, cache⟩, added, ended⟩ := Checked.exists_of_bind_eq_ok ran
  cases ended
  refine ⟨made, cache, added, sound, fun value x => (reports value x).trans ?_⟩
  simp only [accepted_cons_ok, List.mem_cons, exists_eq_or_imp, not_reports_none, false_or]
  simp [accepted]

/-- What a pattern contributes is what a matcher reports that is given its call only. -/
theorem contributes_iff (resolved : call.1.Resolved) (below : ∀ byte ∈ value, byte < byteCeiling) :
    Contributes config call value x ↔ call.2 = x ∧ ∃ fresh left alone,
      ({ config } : Matcher).add {} call.1 call.2 = .ok (.ok (), fresh, left) ∧
        fresh.matched value = .ok alone ∧ x ∈ alone := by
  constructor
  · rintro contributes
    obtain ⟨fragment, entry, builds, _⟩ := id contributes
    obtain ⟨fresh, left, added, sound, reports⟩ := builds.add_eq resolved
    obtain ⟨alone, matched, _, members⟩ := sound.matched_eq below
    exact ⟨contributes.eq.symm, fresh, left, alone, added, matched,
      (members x).mpr ((reports value x).mpr contributes)⟩
  · rintro ⟨_, fresh, left, alone, added, matched, listed⟩
    obtain ⟨_, _, told⟩ := add_eq_alone { config } resolved
      (TemplateCache.holds_empty fun key set => set.Named key)
    rcases told with ⟨error, _, addedToo⟩ | ⟨fragment, entry, builds, _⟩
    · rw [added] at addedToo
      cases addedToo
    · obtain ⟨made, leftToo, addedToo, sound, reports⟩ := builds.add_eq resolved
      rw [added] at addedToo
      cases addedToo
      obtain ⟨all, matchedToo, _, members⟩ := sound.matched_eq below
      rw [matched] at matchedToo
      cases matchedToo
      exact (reports value x).mp ((members x).mp listed)

/-- Behind calls to a blank matcher the matched continuations are those that the calls contribute. -/
theorem History.matched_eq (history : History { config } calls record)
    (below : ∀ byte ∈ value, byte < byteCeiling) :
    ∃ found, (behind { config } record).matched value = .ok found ∧ found.Nodup ∧
      ∀ x, x ∈ found ↔ ∃ call ∈ calls, Contributes config call value x := by
  obtain ⟨sound, _, reports⟩ := history.behind_reports (sound_blank config)
  obtain ⟨found, matched, distinct, members⟩ := sound.matched_eq below
  refine ⟨found, matched, distinct, fun x => (members x).trans ((reports value x).trans ?_)⟩
  simp only [not_reports_none, false_or, history.mem_accepted_iff, and_assoc]
  refine exists_congr fun call => and_congr_right fun _ => and_iff_right_of_imp ?_
  rintro ⟨fragment, entry, builds, _⟩
  exact ⟨fragment, entry, builds⟩

/-- The matcher behind any calls matches, once each, what those patterns report that are accepted, each of
them by itself. Neither the order of the calls nor the kind of automaton that is published matters. -/
theorem matched_iff_accepted (config : Config) {cache : TemplateCache}
    (filled : cache.FilledBy Regexp.Resolved) (calls : List (Pattern × Continuation))
    (resolved : ∀ call ∈ calls, call.1.Resolved) :
    ∃ record, ({ config } : Matcher).addAll cache calls = .ok record ∧
      ∀ value : List UInt8, (∀ byte ∈ value, byte < byteCeiling) →
        ∃ found, (behind { config } record).matched value = .ok found ∧ found.Nodup ∧
          (∀ x, x ∈ found ↔ ∃ call ∈ accepted calls record, call.2 = x ∧ ∃ fresh left alone,
            ({ config } : Matcher).add {} call.1 call.2 = .ok (.ok (), fresh, left) ∧
              fresh.matched value = .ok alone ∧ x ∈ alone) ∧
          (∀ reordered, reordered.Perm calls → ∃ other others,
            ({ config } : Matcher).addAll cache reordered = .ok other ∧
              (behind { config } other).matched value = .ok others ∧ others.Perm found) ∧
          ∀ determinize maxDfaStates, ∃ published others,
            publishable { config with determinize, maxDfaStates } (behind { config } record).arena
                (behind { config } record).start = .ok published ∧
              published.matched value = .ok others ∧ others.Perm found := by
  have honest := filled.honest
  obtain ⟨record, history⟩ := exists_history (sound_blank config) resolved
  obtain ⟨sound, _, reports⟩ := history.behind_reports (sound_blank config)
  refine ⟨record, history.addAll_eq resolved honest, fun value below => ?_⟩
  obtain ⟨found, matched, distinct, members⟩ := history.matched_eq below
  refine ⟨found, matched, distinct, fun x => ?_, fun reordered permuted => ?_, fun determinize maxDfaStates => ?_⟩
  · rw [members]
    constructor
    · rintro ⟨call, listed, contributes⟩
      obtain ⟨fragment, entry, builds, _⟩ := id contributes
      exact ⟨call, history.mem_accepted_iff.mpr ⟨listed, fragment, entry, builds⟩,
        (contributes_iff (resolved call listed) below).mp contributes⟩
    · rintro ⟨call, listed, alone⟩
      have stood := (history.mem_accepted_iff.mp listed).1
      exact ⟨call, stood, (contributes_iff (resolved call stood) below).mpr alone⟩
  · have resolvedToo : ∀ call ∈ reordered, call.1.Resolved := fun call listed =>
      resolved call (permuted.mem_iff.mp listed)
    obtain ⟨other, historyToo⟩ := exists_history (sound_blank config) resolvedToo
    obtain ⟨others, matchedToo, distinctToo, membersToo⟩ := historyToo.matched_eq below
    refine ⟨other, others, historyToo.addAll_eq resolvedToo honest, matchedToo, ?_⟩
    rw [List.perm_ext_iff_of_nodup distinctToo distinct]
    intro x
    rw [members, membersToo]
    exact exists_congr fun call => and_congr_left fun _ => permuted.mem_iff
  · obtain ⟨published, publishes, matches_⟩ :=
      publishable_eq sound.formed sound.within { config with determinize, maxDfaStates }
    obtain ⟨others, matchedToo, distinctToo, membersToo⟩ := matches_ value below
    refine ⟨published, others, publishes, matchedToo, ?_⟩
    rw [List.perm_ext_iff_of_nodup distinctToo distinct]
    intro x
    obtain ⟨all, matchedAll, _, reported⟩ := sound.matched_eq below
    rw [matched] at matchedAll
    cases matchedAll
    rw [membersToo, reported]

end

/-- A property, a wildcard that is refused and a value. -/
def propertyAndValue : List (Pattern × Continuation) :=
  [(.regexp [[.once (.property "~p\x7bZl\x7d" [.single '\u2028'])]], 1),
    (.wildcard [0x22, 0x2A, 0x2A, 0x22], 2), (.exact [0x22, 0x61, 0x22], 3)]

theorem isProperty_lineSeparator : Regexp.IsProperty "~p\x7bZl\x7d" [.single '\u2028'] := by
  refine ⟨false, ⟨['\x7b', 'Z', 'l', '\x7d'], 0⟩, ⟨[], 4⟩, ?_⟩
  cbv

theorem resolved_propertyAndValue : ∀ call ∈ propertyAndValue, call.1.Resolved := by
  simp only [propertyAndValue, List.forall_mem_cons]
  refine ⟨fun property listed => ?_, fun _ absent => (List.not_mem_nil absent).elim,
    fun _ absent => (List.not_mem_nil absent).elim, fun _ absent => (List.not_mem_nil absent).elim⟩
  have same : property = ("~p\x7bZl\x7d", [.single '\u2028']) := List.mem_singleton.mp listed
  exact same ▸ isProperty_lineSeparator

theorem matched_iff_accepted_propertyAndValue :
    ∃ record found, ({ config := {} } : Matcher).addAll {} propertyAndValue = .ok record ∧
      (behind { config := {} } record).matched [0x22, 0x61, 0x22] = .ok found ∧ found.Nodup := by
  obtain ⟨record, added, told⟩ := matched_iff_accepted {} .empty propertyAndValue resolved_propertyAndValue
  obtain ⟨found, matched, distinct, _⟩ := told [0x22, 0x61, 0x22] (by simp [byteCeiling])
  exact ⟨record, found, added, matched, distinct⟩

/-- A call that is refused leaves the matcher as it was, and without the calls that are refused all others
leave the same matchers, whatever templates there are. -/
theorem addAll_accepted [Unicode.Database] (config : Config) {cache other : TemplateCache}
    (filled : cache.FilledBy Regexp.Resolved) (filledOther : other.FilledBy Regexp.Resolved)
    (calls : List (Pattern × Continuation)) (resolved : ∀ call ∈ calls, call.1.Resolved) :
    ∃ record, ({ config } : Matcher).addAll cache calls = .ok record ∧ record.length = calls.length ∧
      ({ config } : Matcher).addAll other (accepted calls record) = .ok (record.filter (·.1.isOk)) ∧
      ∀ (place : Nat) (error : PatternError) (after : Matcher),
        record[place]? = some (.error error, after) →
        ({ config } :: record.map (·.2))[place]? = some after := by
  obtain ⟨record, history⟩ := exists_history (sound_blank config) resolved
  refine ⟨record, history.addAll_eq resolved filled.honest, history.length_eq, ?_, fun place error after stood =>
    history.refused_eq stood⟩
  refine history.accepted.addAll_eq (fun call listed => ?_) filledOther.honest
  exact resolved call (history.mem_accepted_iff.mp listed).1

theorem addAll_accepted_propertyAndValue :
    ∃ record, ({ config := {} } : Matcher).addAll {} propertyAndValue = .ok record ∧
      ({ config := {} } : Matcher).addAll {} (accepted propertyAndValue record) =
        .ok (record.filter (·.1.isOk)) := by
  obtain ⟨record, added, _, again, _⟩ := addAll_accepted {} .empty .empty propertyAndValue resolved_propertyAndValue
  exact ⟨record, added, again⟩

end Matcher

end ByteAutomata
