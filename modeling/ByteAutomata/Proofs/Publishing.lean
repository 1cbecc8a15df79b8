import ByteAutomata.Matcher
import ByteAutomata.Proofs.DeterministicRun

/-!
What published automata match.

A published automaton is a union run by frontier or a deterministic automaton made from it. Both
match, once each, what the union reports.
-/

namespace ByteAutomata

variable {arena : Arena} {start : Target}

/-- A published union matches what it reports, for every value. -/
theorem Automaton.matched_ofUnion (formed : arena.WellFormed) (inside : arena.TargetWithin start)
    (value : List UInt8) :
    ∃ found, (Automaton.ofUnion arena start).matched value = .ok found ∧ found.Nodup ∧
      ∀ x, x ∈ found ↔ arena.Reports start value x := by
  obtain ⟨found, left, learnt, swept, _, _, distinct, exactly⟩ :=
    Arena.sweep_eq formed inside (ClosureCache.validFor_ofSize arena) Frontiers.valid_empty value []
  refine ⟨found, ?_, distinct, fun x => by simp [exactly x]⟩
  simp only [List.nil_append] at swept
  simp only [matched, matchInto, ofUnion, swept, bind, Except.bind]
  rfl

/-- Whichever automaton is published for a union, it matches what the union reports. -/
theorem Matcher.publishable_eq (formed : arena.WellFormed) (inside : arena.TargetWithin start)
    (config : Config) :
    ∃ published, Matcher.publishable config arena start = .ok published ∧
      ∀ value : List UInt8, (∀ byte ∈ value, byte < byteCeiling) →
        ∃ found, published.matched value = .ok found ∧ found.Nodup ∧
          ∀ x, x ∈ found ↔ arena.Reports start value x := by
  have union : ∀ value : List UInt8, (∀ byte ∈ value, byte < byteCeiling) →
      ∃ found, (Automaton.ofUnion arena start).matched value = .ok found ∧ found.Nodup ∧
        ∀ x, x ∈ found ↔ arena.Reports start value x :=
    fun value _ => Automaton.matched_ofUnion formed inside value
  cases wanted : config.determinize with
  | false =>
    refine ⟨_, ?_, union⟩
    simp only [publishable, wanted, Bool.false_eq_true, ↓reduceIte]
    rfl
  | true =>
    rcases Arena.determinize_eq formed inside (some config.maxDfaStates) with
      ⟨exceeded, _⟩ | ⟨dfa, dfaStart, made, reports⟩
    · refine ⟨_, ?_, union⟩
      simp only [publishable, wanted, ↓reduceIte, exceeded, bind, Except.bind]
      rfl
    · refine ⟨Automaton.ofDeterministic dfa dfaStart, ?_, fun value below => ?_⟩
      · simp only [publishable, wanted, ↓reduceIte, made, bind, Except.bind]
        rfl
      · obtain ⟨found, walked, distinct, exactly⟩ := reports value below []
        refine ⟨found, ?_, distinct List.nodup_nil, fun x => by simp [exactly x]⟩
        simp only [Automaton.matched, Automaton.matchInto, Automaton.ofDeterministic, walked, bind,
          Except.bind]
        rfl

end ByteAutomata
