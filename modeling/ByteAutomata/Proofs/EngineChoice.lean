import ByteAutomata.Proofs.FilledCaches
import ByteAutomata.Proofs.MatcherCalls

/-!
Matchers that publish different automata.

Compiling asks for the limits of a configuration and not for what is to be published. Matchers that differ in
the latter only keep the same union, so they match the same as long as all bytes lie below the ceiling of
tables. From there on they need not: a deterministic automaton moves by its tables alone, and a spinout is
followed on every byte but the terminator.
-/

namespace ByteAutomata

open Arena Compile

/-- Both configurations set the same limits to compiling. -/
structure Config.SameLimits (config other : Config) : Prop where
  quantifier : config.maxQuantifier = other.maxQuantifier
  expansion : config.maxExpansion = other.maxExpansion
  template : config.shellCacheMinRunes = other.shellCacheMinRunes

variable {config other : Config}

namespace Regexp

theorem checkBounds_congr (same : config.SameLimits other) (piece : Piece) :
    checkBounds config piece = checkBounds other piece := by
  unfold checkBounds
  rw [same.quantifier]

mutual

theorem Atom.plan_congr (same : config.SameLimits other) : ∀ atom : Atom, atom.plan config = atom.plan other
  | .dot => by rw [Atom.plan, Atom.plan]
  | .runes set => by rw [Atom.plan, Atom.plan]
  | .group root => by rw [Atom.plan, Atom.plan, rootPlan_congr same root]
  | .property name set => by rw [Atom.plan, Atom.plan]

theorem Piece.plan_congr (same : config.SameLimits other) : ∀ piece : Piece,
    piece.plan config = piece.plan other
  | .mk atom least most => by
    rw [Piece.plan, Piece.plan, Atom.plan_congr same atom, checkBounds_congr same]

theorem branchPlan_congr (same : config.SameLimits other) : ∀ branch : Branch,
    branchPlan config branch = branchPlan other branch
  | [] => by rw [branchPlan, branchPlan]
  | piece :: rest => by rw [branchPlan, branchPlan, Piece.plan_congr same piece, branchPlan_congr same rest]

theorem joinedPlan_congr (same : config.SameLimits other) : ∀ (root : Root) (joined : Plan),
    joinedPlan config root joined = joinedPlan other root joined
  | [], joined => by rw [joinedPlan, joinedPlan]
  | branch :: rest, joined => by
    rw [joinedPlan, joinedPlan, branchPlan_congr same branch, joinedPlan_congr same rest]

theorem rootPlan_congr (same : config.SameLimits other) : ∀ root : Root,
    rootPlan config root = rootPlan other root
  | [] => by rw [rootPlan, rootPlan]
  | branch :: rest => by
    rw [rootPlan, rootPlan, branchPlan_congr same branch, joinedPlan_congr same rest]

end

theorem Plan.build_congr (same : config.SameLimits other) (plan : Plan) :
    plan.build config = plan.build other := by
  have runes (name : Option String) (set : RuneSet) (next : Target) :
      Compile.runes config name set next = Compile.runes other name set next := by
    unfold Compile.runes
    rw [same.template]
  induction plan with
  | skip | refuse | anyRune => rfl
  | runes name set => exact funext (runes name set)
  | chain first second ihFirst ihSecond =>
    funext next
    simp only [build, ihFirst, ihSecond]
  | either first second ihFirst ihSecond =>
    funext next
    simp only [build, ihFirst, ihSecond]
  | optional body ih | loop body ih | loopAtLeastOnce body ih | copies _ _ body ih =>
    funext next
    simp only [build, ih]

theorem compile_congr (same : config.SameLimits other) (root : Root) (quoted : Bool) (next : Target) :
    compile config root quoted next = compile other root quoted next := by
  unfold compile
  simp only [compileRoot_eq, rootPlan_congr same, Plan.build_congr same, same.expansion]

end Regexp

theorem Pattern.compile_congr [Unicode.Database] (same : config.SameLimits other) (pattern : Pattern) (next : Target) :
    pattern.compile config next = pattern.compile other next := by
  cases pattern with
  | runes set => exact Regexp.compile_congr same _ true next
  | regexp root => exact Regexp.compile_congr same root true next
  | _ => rfl

namespace Matcher

variable {matcher twin : Matcher} {cache cacheTwin alone : TemplateCache}

theorem compiledAlone_congr [Unicode.Database] (same : config.SameLimits other) (cache : TemplateCache)
    (pattern : Pattern) (x : Continuation) :
    compiledAlone config cache pattern x = compiledAlone other cache pattern x := by
  unfold compiledAlone
  rw [Pattern.compile_congr same]

/-- Matchers with the same union that compile alike. -/
structure SameUnion (matcher twin : Matcher) : Prop where
  limits : matcher.config.SameLimits twin.config
  arena : matcher.arena = twin.arena
  start : matcher.start = twin.start

/-- The same fragment joins the same union, whatever is published for it. -/
theorem SameUnion.join (same : matcher.SameUnion twin) {fragment : Arena} {entry : StateId}
    {after afterTwin : Matcher} (joined : matcher.join fragment entry = .ok after)
    (joinedTwin : twin.join fragment entry = .ok afterTwin) : after.SameUnion afterTwin := by
  unfold Matcher.join at joined joinedTwin
  rw [← same.arena, ← same.start] at joinedTwin
  obtain ⟨united, unites, joined⟩ := Checked.exists_of_bind_eq_ok joined
  obtain ⟨copied, extracted, joined⟩ := Checked.exists_of_bind_eq_ok joined
  obtain ⟨published, _, joined⟩ := Checked.exists_of_bind_eq_ok joined
  obtain ⟨unitedToo, unitesToo, joinedTwin⟩ := Checked.exists_of_bind_eq_ok joinedTwin
  rw [unites, Except.ok.injEq] at unitesToo
  subst unitesToo
  obtain ⟨copiedToo, extractedToo, joinedTwin⟩ := Checked.exists_of_bind_eq_ok joinedTwin
  rw [extracted, Except.ok.injEq] at extractedToo
  subst extractedToo
  obtain ⟨publishedTwin, _, joinedTwin⟩ := Checked.exists_of_bind_eq_ok joinedTwin
  cases joined
  cases joinedTwin
  exact ⟨same.limits, rfl, rfl⟩

/-- The same calls leave the same union. -/
theorem SameUnion.addAll_eq [Unicode.Database] (same : matcher.SameUnion twin) (sound : matcher.Sound)
    (soundTwin : twin.Sound) (holdsAlone : alone.Holds anyName) (holds : cache.Holds anyName)
    (holdsTwin : cacheTwin.Holds anyName) (agrees : alone.Agrees anyName cache)
    (agreesTwin : alone.Agrees anyName cacheTwin) (calls : List (Pattern × Continuation)) :
    ∃ record recordTwin, matcher.addAll cache calls = .ok record ∧ twin.addAll cacheTwin calls = .ok recordTwin ∧
      (behind matcher record).Sound ∧ (behind twin recordTwin).Sound ∧
      (behind matcher record).SameUnion (behind twin recordTwin) := by
  induction calls generalizing matcher twin cache cacheTwin alone with
  | nil => exact ⟨[], [], rfl, rfl, sound, soundTwin, same⟩
  | cons call rest ih =>
    obtain ⟨outcome, built, left, ran, holdsBuilt, holdsLeft, agreesLeft, told⟩ :=
      sound.add_any holdsAlone holds agrees call
    obtain ⟨_, _, leftTwin, ranTwin, _, holdsLeftTwin, agreesLeftTwin, toldTwin⟩ :=
      soundTwin.add_any holdsAlone holdsTwin agreesTwin call
    rw [← compiledAlone_congr same.limits, ran] at ranTwin
    cases ranTwin
    rcases told with ⟨error, rfl, added⟩ | ⟨entry, after, rfl, joined, soundAfter, _, _, added⟩
    · rcases toldTwin with ⟨_, refusedToo, addedTwin⟩ | ⟨_, _, made, _⟩
      · cases refusedToo
        obtain ⟨record, recordTwin, ranRest, ranRestTwin, kept⟩ := ih same sound soundTwin holdsBuilt holdsLeft
          holdsLeftTwin agreesLeft agreesLeftTwin
        refine ⟨_, _, addAll_cons added ranRest, addAll_cons addedTwin ranRestTwin, ?_⟩
        rw [behind_cons, behind_cons]
        exact kept
      · cases made
    · rcases toldTwin with ⟨_, refused, _⟩ | ⟨_, afterTwin, made, joinedTwin, soundAfterTwin, _, _, addedTwin⟩
      · cases refused
      · cases made
        obtain ⟨record, recordTwin, ranRest, ranRestTwin, kept⟩ := ih (same.join joined joinedTwin) soundAfter
          soundAfterTwin holdsBuilt holdsLeft holdsLeftTwin agreesLeft agreesLeftTwin
        refine ⟨_, _, addAll_cons added ranRest, addAll_cons addedTwin ranRestTwin, ?_⟩
        rw [behind_cons, behind_cons]
        exact kept

/-- Matchers that differ in what they publish match the same where all bytes lie below the ceiling of
tables. -/
theorem matched_of_sameLimits [Unicode.Database] (same : config.SameLimits other) {cache : TemplateCache}
    (filled : cache.FilledBy fun _ => True) (calls : List (Pattern × Continuation)) :
    ∃ record recordOther, ({ config } : Matcher).addAll cache calls = .ok record ∧
      ({ config := other } : Matcher).addAll cache calls = .ok recordOther ∧
      ∀ value : List UInt8, (∀ byte ∈ value, byte < byteCeiling) → ∃ found foundOther,
        (behind { config } record).matched value = .ok found ∧
        (behind { config := other } recordOther).matched value = .ok foundOther ∧
        ∀ x, x ∈ found ↔ x ∈ foundOther := by
  have holds : cache.Holds anyName := filled.holds (fun _ => trivial) fun _ _ _ _ => trivial
  have alike : ({ config } : Matcher).SameUnion { config := other } := ⟨same, rfl, rfl⟩
  obtain ⟨record, recordOther, ran, ranOther, sound, soundOther, alike⟩ :=
    alike.addAll_eq (sound_blank config) (sound_blank other) holds holds holds (.refl _ _) (.refl _ _) calls
  refine ⟨record, recordOther, ran, ranOther, fun value below => ?_⟩
  obtain ⟨found, matched, _, members⟩ := sound.matched_eq below
  obtain ⟨foundOther, matchedOther, _, membersOther⟩ := soundOther.matched_eq below
  refine ⟨found, foundOther, matched, matchedOther, fun x => ?_⟩
  rw [members, membersOther, alike.arena, alike.start]

theorem matched_of_sameLimits_glob :
    ∃ record recordOther, ({ config := {} } : Matcher).addAll {} [(.shell [0x2A, 0x78], 1)] = .ok record ∧
      ({ config := { determinize := false } } : Matcher).addAll {} [(.shell [0x2A, 0x78], 1)] =
        .ok recordOther ∧
      ∃ found foundOther, (behind { config := {} } record).matched [0x61, 0x78] = .ok found ∧
        (behind { config := { determinize := false } } recordOther).matched [0x61, 0x78] = .ok foundOther ∧
        ∀ x, x ∈ found ↔ x ∈ foundOther := by
  have limits : Config.SameLimits {} { determinize := false } := ⟨rfl, rfl, rfl⟩
  obtain ⟨record, recordOther, ran, ranOther, matches_⟩ :=
    matched_of_sameLimits limits .empty [(.shell [0x2A, 0x78], 1)]
  exact ⟨record, recordOther, ran, ranOther, matches_ [0x61, 0x78] (by simp [byteCeiling])⟩

/-! ## Bytes at or above the ceiling -/

/-- The fragment for any value, in front of a state that reports 1. -/
def anyValue : Arena := ((matchState 1).pushGlob [.any] (some 0)).1

theorem wellFormed_anyValue : anyValue.WellFormed := by decide +kernel

theorem compiledAlone_anyValue [Unicode.Database] (config : Config) :
    compiledAlone config {} (.shell [0x2A]) 1 = .ok (.ok (some 1), ⟨anyValue, {}⟩) := by
  rfl

/-- A first pattern is the whole union. -/
theorem join_blank (config : Config) {fragment : Arena} {entry : StateId} (formed : fragment.WellFormed)
    (inside : entry < fragment.size) :
    ∃ copied found ids published, fragment.Extracted entry copied found ids ∧
      publishable config copied (some 0) = .ok published ∧
      ({ config } : Matcher).join fragment entry =
        .ok { config, arena := copied, start := some 0, patterns := 1, published } := by
  obtain ⟨copied, found, ids, ran, extracted⟩ := extract_some_eq formed inside
  obtain ⟨published, publishes, _⟩ := publishable_eq (extracted.formed formed) extracted.within config
  refine ⟨copied, found, ids, published, extracted, publishes, ?_⟩
  have placed : ({} : Arena).size + entry = entry := Nat.zero_add entry
  simp only [join, empty_above, placed, union_none, ran, publishes, bind, Except.bind]
  rfl

theorem add_anyValue [Unicode.Database] (config : Config) :
    ∃ copied found ids published, anyValue.Extracted 1 copied found ids ∧
      publishable config copied (some 0) = .ok published ∧
      ({ config } : Matcher).addAll {} [(.shell [0x2A], 1)] =
        .ok [(.ok (), { config, arena := copied, start := some 0, patterns := 1, published })] := by
  have inside : 1 < anyValue.size := by decide +kernel
  obtain ⟨copied, found, ids, published, extracted, publishes, joined⟩ :=
    join_blank config wellFormed_anyValue inside
  have added : ({ config } : Matcher).add {} (.shell [0x2A]) 1 =
      (fun after => (.ok (), after, {})) <$> ({ config } : Matcher).join anyValue 1 := by
    exact @add_of_compiled { config } anyValue 1 _ {} (.shell [0x2A]) 1 ⟨anyValue, {}⟩
      (compiledAlone_anyValue config) (empty_above anyValue).symm
  rw [joined] at added
  have goesOn (after : Matcher) : after.addAll {} [] = .ok [] := rfl
  exact ⟨copied, found, ids, published, extracted, publishes, addAll_cons added (goesOn _)⟩

/-- Leads on the terminator to the state that reports, and spins on all other bytes. -/
def spinning : Table where
  ceilings := [valueTerminator, byteCeiling]
  steps := [none, some 0]
  spinout := some 1

theorem get?_anyValue_spinning : anyValue.get? 1 = some { table := spinning } := by
  have inside : 1 < anyValue.size := by decide +kernel
  obtain ⟨⟨table, continuations⟩, stored⟩ := exists_get? inside
  have tables : (anyValue.get? 1).map (·.table) = some spinning := by decide +kernel
  have silent : (anyValue.get? 1).map (·.continuations) = some [] := by decide +kernel
  rw [stored] at tables silent
  cases tables
  cases silent
  exact stored

theorem anyValue_reports : anyValue.Reports (some 1) [0xFF] 1 := by
  have spins : anyValue.Moves 0xFF 1 1 :=
    ⟨_, get?_anyValue_spinning, Or.inr (Or.inl ⟨by decide, rfl⟩)⟩
  have ends : anyValue.Moves valueTerminator 1 0 :=
    ⟨_, get?_anyValue_spinning, Or.inl (by decide)⟩
  have holds : anyValue.Holds 0 1 := ⟨_, rfl, List.mem_singleton_self 1⟩
  exact ⟨1, rfl, [0xFF, valueTerminator], List.prefix_refl _, .read spins (.read ends (.here holds))⟩

theorem anyValue_silent (x : Continuation) : ¬ anyValue.Yields x 1 [] := by
  rw [Arena.yields_iff get?_anyValue_spinning]
  simp [State.Accepts, spinning]

/-- Where all sets of states fit the budget, a deterministic automaton is published. -/
theorem publishable_of_room {arena : Arena} {start : StateId} (formed : arena.WellFormed)
    (inside : start < arena.size) (wanted : config.determinize = true)
    (room : 2 ^ arena.size ≤ config.maxDfaStates) :
    ∃ dfa names, publishable config arena (some start) = .ok (.ofDeterministic dfa (some 0)) ∧
      dfa.Names arena start names := by
  rcases determinize_names formed inside (some config.maxDfaStates) with
    ⟨_, few⟩ | ⟨dfa, names, made, named⟩
  · cases few with
    | small less => exact absurd room (Nat.not_le.mpr less)
  · refine ⟨dfa, names, ?_, named⟩
    simp only [publishable, wanted, ↓reduceIte, made, bind, Except.bind]
    rfl

/-- A deterministic automaton reports what its origin yields before the first byte at or above the
ceiling. -/
theorem matched_of_ceiling_le {dfa nfa : Arena} {start : StateId} {names : List StateSet}
    (named : dfa.Names nfa start names) (formed : nfa.WellFormed) (inside : start < nfa.size)
    {lead : List UInt8} (below : ∀ byte ∈ lead, byte < byteCeiling) {byte : UInt8}
    (high : byteCeiling ≤ byte) (rest : List UInt8) :
    ∃ found, (Automaton.ofDeterministic dfa (some 0)).matched (lead ++ byte :: rest) = .ok found ∧
      ∀ x, x ∈ found ↔ ∃ read, read <+: lead ∧ nfa.Yields x start read := by
  obtain ⟨found, walked, exactly⟩ :=
    walk_of_ceiling_le named.toDetermines formed named.first below high rest []
  refine ⟨found, ?_, fun x => ?_⟩
  · simp only [Automaton.matched, Automaton.matchInto, Automaton.ofDeterministic, walked, bind, Except.bind]
    rfl
  · rw [exactly x]
    simp only [List.not_mem_nil, false_or, yields_iff_closure formed inside]
    refine exists_congr fun read => and_congr_right fun _ => exists_congr fun member => ?_
    exact and_congr_left fun _ => (StateSet.holds_ofList (nfa.closure start)).mem_iff member

/-- The glob for any value reports on a byte at the top as long as the union is published, and does not when
a deterministic automaton is. -/
theorem matched_anyValue_differs :
    ∃ record recordOther, ({ config := {} } : Matcher).addAll {} [(.shell [0x2A], 1)] = .ok record ∧
      ({ config := { determinize := false } } : Matcher).addAll {} [(.shell [0x2A], 1)] = .ok recordOther ∧
      ∃ found foundOther, (behind { config := {} } record).matched [0xFF] = .ok found ∧
        (behind { config := { determinize := false } } recordOther).matched [0xFF] = .ok foundOther ∧
        1 ∉ found ∧ 1 ∈ foundOther := by
  obtain ⟨copied, _, ids, published, extracted, publishes, added⟩ := add_anyValue {}
  obtain ⟨other, _, _, publishedOther, extractedOther, publishesOther, addedOther⟩ :=
    add_anyValue { determinize := false }
  refine ⟨_, _, added, addedOther, ?_⟩
  have formed := extracted.formed wellFormed_anyValue
  have few : copied.size ≤ 2 :=
    extracted.size ▸ length_le_of_nodup extracted.explored.distinct extracted.explored.inside
  have inside : 0 < copied.size := extracted.within 0 rfl
  have room : 2 ^ copied.size ≤ ({} : Config).maxDfaStates := (Nat.pow_le_pow_right Nat.two_pos few).trans (by decide)
  obtain ⟨dfa, names, determinized, named⟩ := publishable_of_room formed inside rfl room
  rw [publishes, Except.ok.injEq] at determinized
  subst determinized
  have top : byteCeiling ≤ 0xFF := by decide
  obtain ⟨found, matched, exactly⟩ :=
    matched_of_ceiling_le named formed inside (List.forall_mem_nil _) top []
  obtain ⟨foundOther, matchedOther, _, exactlyOther⟩ :=
    Automaton.matched_ofUnion (extractedOther.formed wellFormed_anyValue) extractedOther.within [0xFF]
  cases publishesOther
  refine ⟨found, foundOther, matched, matchedOther, fun listed => ?_, ?_⟩
  · obtain ⟨read, leading, yields⟩ := (exactly 1).mp listed
    rw [List.prefix_nil.mp leading, extracted.yields_iff wellFormed_anyValue] at yields
    exact anyValue_silent 1 yields
  · exact (exactlyOther 1).mpr ((extractedOther.reports_iff wellFormed_anyValue [0xFF] 1).mpr anyValue_reports)

end Matcher

end ByteAutomata
