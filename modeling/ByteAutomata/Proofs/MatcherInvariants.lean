import ByteAutomata.Proofs.FilledCaches
import ByteAutomata.Proofs.MatcherCalls

/-!
What holds of a matcher at any time.

The union and the automaton published for it have well-formed, packed tables without dangling targets. From
the first accepted pattern on both start in their first state and have no state that cannot be reached. So
matching never faults, whatever the value and whichever runs have left the frontiers.
-/

namespace ByteAutomata

open Arena

/-- An automaton that can be run on any value. -/
structure Automaton.Sound (automaton : Automaton) : Prop where
  formed : automaton.arena.WellFormed
  packed : automaton.arena.Packed
  within : automaton.arena.TargetWithin automaton.start
  direct : automaton.deterministic = true → automaton.arena.Direct
  known : automaton.deterministic = false → automaton.closures.ValidFor automaton.arena

namespace Matcher

variable {config : Config} {arena : Arena} {published : Automaton} {matcher : Matcher}

theorem sound_ofUnion {start : Target} (formed : arena.WellFormed) (packed : arena.Packed)
    (inside : arena.TargetWithin start) : (Automaton.ofUnion arena start).Sound where
  formed := formed
  packed := packed
  within := inside
  direct := fun single => absurd single Bool.false_ne_true
  known := fun _ => ClosureCache.validFor_ofSize arena

/-- What is published for a union without states that cannot be reached has none either. -/
theorem publishable_sound (formed : arena.WellFormed) (packed : arena.Packed) (rooted : arena.Rooted)
    (inside : arena.TargetWithin (some 0)) (publishes : publishable config arena (some 0) = .ok published) :
    published.Sound ∧ published.start = some 0 ∧ published.arena.Rooted := by
  have union := sound_ofUnion formed packed inside
  unfold publishable at publishes
  cases wanted : config.determinize with
  | false =>
    simp only [wanted, Bool.false_eq_true, ↓reduceIte] at publishes
    cases publishes
    exact ⟨union, rfl, rooted⟩
  | true =>
    simp only [wanted, ↓reduceIte] at publishes
    rcases determinize_names formed (inside 0 rfl) (some config.maxDfaStates) with
      ⟨exceeded, _⟩ | ⟨dfa, names, made, named⟩
    · rw [exceeded] at publishes
      cases publishes
      exact ⟨union, rfl, rooted⟩
    · obtain ⟨packedDfa, direct⟩ := packed.determinize made
      rw [made] at publishes
      cases publishes
      have first : 0 < dfa.size := by
        rw [named.size]
        exact (List.getElem?_eq_some_iff.mp named.first).1
      exact ⟨⟨named.formed, packedDfa, targetWithin_some first, fun _ => direct,
        fun several => absurd several.symm Bool.false_ne_true⟩, rfl, named.rooted⟩

theorem sound_blank_published : ({} : Automaton).Sound where
  formed := wellFormed_empty
  packed := packed_empty
  within := fun _ absent => nomatch absent
  direct := fun _ _ _ stored => absurd (lt_size_of_get? stored) (Nat.not_lt_zero _)
  known := fun several => absurd several.symm Bool.false_ne_true

/-- The published automaton is sound, and reaches all its states once there is a pattern. -/
theorem Sound.published_sound (sound : matcher.Sound) : matcher.published.Sound ∧
    (0 < matcher.patterns → matcher.published.start = some 0 ∧ matcher.published.arena.Rooted) := by
  rcases sound.published with ⟨none, _, _, published⟩ | ⟨_, start, rooted, publishes⟩
  · rw [published, none]
    exact ⟨sound_blank_published, fun some => absurd some (Nat.lt_irrefl 0)⟩
  · have within := sound.within
    rw [start] at publishes within
    obtain ⟨soundPublished, kept⟩ := publishable_sound sound.formed sound.packed rooted within publishes
    exact ⟨soundPublished, fun _ => kept⟩

theorem Sound.start_eq (sound : matcher.Sound) (some : 0 < matcher.patterns) :
    matcher.start = .some 0 ∧ matcher.arena.Rooted := by
  rcases sound.published with ⟨none, _⟩ | ⟨_, start, rooted, _⟩
  · rw [none] at some
    exact absurd some (Nat.lt_irrefl 0)
  · exact ⟨start, rooted⟩

/-- No call faults, and each leaves a sound matcher that counts the accepted patterns. -/
theorem Sound.addAll_eq [Unicode.Database] (sound : matcher.Sound) {cache : TemplateCache} (holds : cache.Holds anyName)
    (calls : List (Pattern × Continuation)) :
    ∃ record, matcher.addAll cache calls = .ok record ∧ (behind matcher record).Sound ∧
      (behind matcher record).patterns = matcher.patterns + (accepted calls record).length := by
  induction calls generalizing matcher cache with
  | nil => exact ⟨[], rfl, sound, rfl⟩
  | cons call rest ih =>
    obtain ⟨_, _, left, _, _, holdsLeft, _, told⟩ := sound.add_any holds holds (.refl _ _) call
    rcases told with ⟨error, _, added⟩ | ⟨_, after, _, _, soundAfter, _, counted, added⟩
    · obtain ⟨record, ran, soundLast, counts⟩ := ih sound holdsLeft
      refine ⟨_, addAll_cons added ran, ?_⟩
      rw [behind_cons, accepted_cons_error]
      exact ⟨soundLast, counts⟩
    · obtain ⟨record, ran, soundLast, counts⟩ := ih soundAfter holdsLeft
      refine ⟨_, addAll_cons added ran, ?_⟩
      rw [behind_cons, accepted_cons_ok, List.length_cons]
      exact ⟨soundLast, by omega⟩

/-- Behind any calls, whatever their patterns are and whether or not they were refused, the invariants of a
matcher hold, and its published automaton matches any value without a fault. -/
theorem invariants_addAll [Unicode.Database] (config : Config) {cache : TemplateCache}
    (filled : cache.FilledBy fun _ => True) (calls : List (Pattern × Continuation)) :
    ∃ record matcher, ({ config } : Matcher).addAll cache calls = .ok record ∧
      behind { config } record = matcher ∧
      matcher.arena.WellFormed ∧ matcher.arena.Packed ∧ matcher.arena.TargetWithin matcher.start ∧
      matcher.published.arena.WellFormed ∧ matcher.published.arena.Packed ∧
      matcher.published.arena.TargetWithin matcher.published.start ∧
      (accepted calls record ≠ [] →
        matcher.start = some 0 ∧ matcher.arena.Rooted ∧
        matcher.published.start = some 0 ∧ matcher.published.arena.Rooted) ∧
      (matcher.published.deterministic = true → matcher.published.arena.Direct) ∧
      ∀ (value : List UInt8) (found : List Continuation) (frontiers : Frontiers), frontiers.LeftOver →
        ∃ all left, matcher.published.matchInto value frontiers found = .ok (all, left) := by
  have holds : cache.Holds anyName := filled.holds (fun _ => trivial) fun _ _ _ _ => trivial
  obtain ⟨record, ran, sound, counted⟩ := (sound_blank config).addAll_eq holds calls
  obtain ⟨published, reached⟩ := sound.published_sound
  refine ⟨record, _, ran, rfl, sound.formed, sound.packed, sound.within, published.formed, published.packed,
    published.within, fun some => ?_, published.direct, fun value found frontiers leftOver => ?_⟩
  · have patterns : 0 < (behind { config } record).patterns := by
      rw [counted]
      exact Nat.add_pos_right _ (List.length_pos_iff.mpr some)
    obtain ⟨start, rooted⟩ := sound.start_eq patterns
    exact ⟨start, rooted, reached patterns⟩
  · exact Automaton.exists_matchInto published.formed published.within published.known leftOver value found

theorem invariants_addAll_glob :
    ∃ record matcher, ({ config := {} } : Matcher).addAll {}
        [(.shell [0x2A, 0x78], 1), (.wildcard [0x2A, 0x2A], 2)] = .ok record ∧
      behind { config := {} } record = matcher ∧ matcher.published.arena.WellFormed ∧
      ∃ all left, matcher.published.matchInto [0xFF, 0x78] {} [2] = .ok (all, left) := by
  obtain ⟨record, matcher, ran, same, _, _, _, formed, _, _, _, _, runs⟩ :=
    invariants_addAll {} .empty [(.shell [0x2A, 0x78], 1), (.wildcard [0x2A, 0x2A], 2)]
  exact ⟨record, matcher, ran, same, formed, runs [0xFF, 0x78] [2] {} .fresh⟩

end Matcher

end ByteAutomata
