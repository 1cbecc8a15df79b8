import ByteAutomata.Proofs.RootedArenas

/-!
How many states the subset construction makes.

The construction arrives at the closed set of its start and, from a set, at the sets that are active behind a byte.
Each of them gets one state, the empty one only if it is the set of the start, and each state takes one round of the
worklist. A budget has no part in what is made: it ends the construction at the first set too many, and as no set is
ever dropped again, that happens just when the whole construction has too many states, whatever the order of rounds.
-/

namespace ByteAutomata

namespace Arena

variable {nfa dfa : Arena} {start : StateId} {members reached set : StateSet} {byte : UInt8}
  {names : List StateSet}

/-! ## Arriving at sets -/

/-- The set that is active behind the byte, when the members were active before. -/
def aggregate (nfa : Arena) (members : StateSet) (byte : UInt8) : Checked StateSet := do
  let moves ← nfa.moves byte members
  let (reached, _) ← (ClosureCache.ofSize nfa.size).closeAll nfa moves
  return reached

theorem aggregate_eq_ok_iff (formed : nfa.WellFormed) (inside : ∀ id ∈ members, id < nfa.size) :
    nfa.aggregate members byte = .ok reached ↔ nfa.Follows members byte reached := by
  obtain ⟨ids, behind, after, moved, closed, _, follows⟩ :=
    (ClosureCache.validFor_ofSize nfa).closeAll_moves formed byte inside
  have computed : nfa.aggregate members byte = .ok behind := by
    simp only [aggregate, moved, closed, bind, Except.bind]
    rfl
  rw [computed, Except.ok.injEq]
  exact ⟨fun same => same ▸ follows, fun followsToo => follows.unique followsToo⟩

/-- The sets that lie behind the closed set of the start, by the bytes that tables have. A byte behind which nothing
is active leads to none. -/
inductive Arrives (nfa : Arena) (start : StateId) : StateSet → Prop
  | start {closure : List StateId} :
      nfa.epsilonClosure start = .ok closure → Arrives nfa start (StateSet.ofList closure)
  | step {members reached : StateSet} {byte : UInt8} :
      Arrives nfa start members → byte < byteCeiling → nfa.aggregate members byte = .ok reached → reached ≠ [] →
        Arrives nfa start reached

theorem epsilonClosure_eq_ok (formed : nfa.WellFormed) (inside : start < nfa.size) :
    nfa.epsilonClosure start = .ok (nfa.closure start) :=
  (epsilonClosure_eq formed inside).1

/-- The states of a deterministic automaton stand for the sets that the construction arrives at, one for one. A byte
leads from the state of a set to the state of the set behind the byte, and nowhere if nothing is active there. -/
structure StandsFor (dfa nfa : Arena) (start : StateId) (names : List StateSet) : Prop where
  size : dfa.size = names.length
  distinct : names.Nodup
  mem_iff : ∀ set, set ∈ names ↔ nfa.Arrives start set
  first : ∃ closure, nfa.epsilonClosure start = .ok closure ∧ names[0]? = some (StateSet.ofList closure)
  leads : ∀ id members, names[id]? = some members → ∃ state, dfa.get? id = some state ∧
    ∀ byte < byteCeiling, ∃ reached, nfa.aggregate members byte = .ok reached ∧
      ∀ next, state.table.lookup byte = some next ↔ reached ≠ [] ∧ names[next]? = some reached

namespace Names

theorem inside (named : dfa.Names nfa start names) (formed : nfa.WellFormed) (within : start < nfa.size)
    (listed : set ∈ names) : ∀ id ∈ set, id < nfa.size := by
  obtain ⟨place, there⟩ := List.mem_iff_getElem?.mp listed
  rcases named.arisen place set there with rfl | ⟨_, source, _, byte, _, follows⟩
  · rw [named.first, Option.some.injEq] at there
    intro id member
    rw [← there, (StateSet.holds_ofList _).mem_iff] at member
    exact lt_of_mem_closure formed within member
  · exact (follows.proper formed).inside

/-- A set that is named lies behind the start. -/
theorem arrives (named : dfa.Names nfa start names) (formed : nfa.WellFormed) (within : start < nfa.size)
    (listed : set ∈ names) : nfa.Arrives start set := by
  obtain ⟨place, there⟩ := List.mem_iff_getElem?.mp listed
  induction place using Nat.strong_induction_on generalizing set with
  | _ place ih =>
    rcases named.arisen place set there with rfl | ⟨active, source, earlier, byte, below, follows⟩
    · rw [named.first, Option.some.injEq] at there
      exact there ▸ .start (epsilonClosure_eq_ok formed within)
    · obtain ⟨before, sourceThere⟩ := List.mem_iff_getElem?.mp earlier
      rw [List.getElem?_take] at sourceThere
      split at sourceThere
      · rename_i order
        have sourceListed := List.mem_of_getElem? sourceThere
        exact .step (ih before order sourceListed sourceThere) below
          ((aggregate_eq_ok_iff formed (named.inside formed within sourceListed)).mpr follows) active
      · cases sourceThere

/-- What stands behind a byte of a named set is computed, and named unless it is empty. -/
theorem leads (named : dfa.Names nfa start names) (formed : nfa.WellFormed) (within : start < nfa.size)
    {id : StateId} (there : names[id]? = some members) : ∃ state, dfa.get? id = some state ∧
      ∀ byte < byteCeiling, ∃ reached, nfa.aggregate members byte = .ok reached ∧ (reached ≠ [] → reached ∈ names) ∧
        ∀ next, state.table.lookup byte = some next ↔ reached ≠ [] ∧ names[next]? = some reached := by
  obtain ⟨state, stored, fills⟩ := named.filled id members there
  refine ⟨state, stored, fun byte below => ?_⟩
  obtain ⟨reached, follows, leads⟩ := fills.leads byte below
  have computed := (aggregate_eq_ok_iff formed
    (named.inside formed within (List.mem_of_getElem? there))).mpr follows
  refine ⟨reached, computed, ?_⟩
  rcases leads with ⟨nowhere, rfl⟩ | ⟨active, aim, led, placed⟩
  · simp [nowhere]
  · refine ⟨fun _ => List.mem_of_getElem? placed, fun next => ?_⟩
    rw [led, Option.some.injEq, and_iff_right active]
    constructor
    · rintro rfl
      exact placed
    · intro there
      exact (List.getElem?_inj (List.getElem?_eq_some_iff.mp placed).1 named.distinct).mp (placed.trans there.symm)

/-- A set that lies behind the start is named. -/
theorem mem_of_arrives (named : dfa.Names nfa start names) (formed : nfa.WellFormed) (within : start < nfa.size)
    (arrives : nfa.Arrives start set) : set ∈ names := by
  induction arrives with
  | start closed =>
    rw [epsilonClosure_eq_ok formed within, Except.ok.injEq] at closed
    exact closed ▸ List.mem_of_getElem? named.first
  | step _ below computed active ih =>
    obtain ⟨place, there⟩ := List.mem_iff_getElem?.mp ih
    obtain ⟨state, _, leads⟩ := named.leads formed within there
    obtain ⟨reached, computedToo, listed, _⟩ := leads _ below
    rw [computed, Except.ok.injEq] at computedToo
    exact computedToo ▸ listed (computedToo ▸ active)

theorem standsFor (named : dfa.Names nfa start names) (formed : nfa.WellFormed) (within : start < nfa.size) :
    dfa.StandsFor nfa start names where
  size := named.size
  distinct := named.distinct
  mem_iff := fun _ => ⟨named.arrives formed within, named.mem_of_arrives formed within⟩
  first := ⟨_, epsilonClosure_eq_ok formed within, named.first⟩
  leads := by
    intro id members there
    obtain ⟨state, stored, leads⟩ := named.leads formed within there
    refine ⟨state, stored, fun byte below => ?_⟩
    obtain ⟨reached, computed, _, led⟩ := leads byte below
    exact ⟨reached, computed, led⟩

end Names

end Arena

/-! ## Constructions with a budget -/

namespace Subsets

variable {nfa : Arena} {members : StateSet} {subsets after : Subsets} {runs filled : List (UInt8 × Target)}

/-- What is left of a result that a budget may be too small for. -/
def within {α : Type} (most size : Nat) (result : α) : Option α := if size ≤ most then some result else none

theorem within_of_lt {α : Type} {most size : Nat} (large : most < size) (result : α) :
    within most size result = none :=
  if_neg (Nat.not_le.mpr large)

/-- A set is named within the budget unless its name would be one too many. -/
theorem exists_name_none (subsets : Subsets) (reached : StateSet) :
    ∃ after target, subsets.name none reached = some (after, target) ∧ subsets.arena.size ≤ after.arena.size ∧
      ∀ most, subsets.arena.size ≤ most →
        subsets.name (some most) reached = within most after.arena.size (after, target) := by
  unfold Subsets.name
  by_cases empty : reached.isEmpty = true
  · refine ⟨subsets, none, if_pos empty, Nat.le_refl _, fun most room => ?_⟩
    rw [if_pos empty, within, if_pos room]
  · simp only [if_neg empty]
    cases known : subsets.named[reached]? with
    | some id => exact ⟨subsets, some id, rfl, Nat.le_refl _, fun most room => (if_pos room).symm⟩
    | none =>
      have grown : (subsets.add reached).1.arena.size = subsets.arena.size + 1 := Arena.size_push _ _
      refine ⟨(subsets.add reached).1, some (subsets.add reached).2, rfl, grown ▸ Nat.le_succ _, fun most room => ?_⟩
      by_cases full : most ≤ subsets.arena.size
      · simp only [Option.any_some, full, decide_true, ↓reduceIte]
        exact (within_of_lt (by omega) _).symm
      · simp only [Option.any_some, full, decide_false, Bool.false_eq_true, ↓reduceIte]
        exact (if_pos (by omega)).symm

/-- Ranges are worked out within the budget unless they name too many sets. -/
theorem fillRanges_within {floor : UInt8} {rest : List UInt8}
    (ran : fillRanges nfa none members floor runs rest subsets = .ok (some (after, filled))) :
    subsets.arena.size ≤ after.arena.size ∧ ∀ most, subsets.arena.size ≤ most →
      fillRanges nfa (some most) members floor runs rest subsets =
        .ok (within most after.arena.size (after, filled)) := by
  induction rest generalizing floor runs subsets with
  | nil =>
    cases ran
    exact ⟨Nat.le_refl _, fun most room => congrArg Except.ok (if_pos room).symm⟩
  | cons ceiling rest ih =>
    obtain ⟨moves, reached, closures, middle, target, moved, closed, named, ran⟩ := exists_of_fillRanges_cons ran
    obtain ⟨_, _, namedToo, grows, limited⟩ := exists_name_none { subsets with closures } reached
    rw [named, Option.some.injEq, Prod.mk.injEq] at namedToo
    obtain ⟨rfl, rfl⟩ := namedToo
    obtain ⟨further, ih⟩ := ih ran
    refine ⟨grows.trans further, fun most room => ?_⟩
    have step := limited most room
    by_cases fits : middle.arena.size ≤ most
    · rw [within, if_pos fits] at step
      simp only [fillRanges, moved, closed, bind, Except.bind, step]
      exact ih most fits
    · -- The sets named later do not make up for the one that is too many.
      have exceeds := Nat.not_le.mp fits
      rw [within_of_lt exceeds] at step
      simp only [fillRanges, moved, closed, bind, Except.bind, step, within_of_lt (lt_of_lt_of_le exceeds further)]
      rfl

/-- A set is filled within the budget unless that names too many sets. -/
theorem fill_within {id : StateId} (ran : fill nfa none id members subsets = .ok (some after)) :
    subsets.arena.size ≤ after.arena.size ∧ ∀ most, subsets.arena.size ≤ most →
      fill nfa (some most) id members subsets = .ok (within most after.arena.size after) := by
  obtain ⟨states, middle, filled, gotten, ranges, rfl⟩ := exists_of_fill ran
  obtain ⟨grows, limited⟩ := fillRanges_within ranges
  refine ⟨grows.trans (Arena.size_put _ _ _).ge, fun most room => ?_⟩
  simp only [fill, gotten, limited most room, bind, Except.bind, within, Arena.size_put]
  by_cases fits : middle.arena.size ≤ most
  · rw [if_pos fits, if_pos fits]
    rfl
  · rw [if_neg fits, if_neg fits]
    rfl

/-- Rounds run within the budget unless they name too many sets. -/
theorem run_within {rounds : Nat} (ran : run nfa none rounds subsets = .ok (some after)) :
    subsets.arena.size ≤ after.arena.size ∧ ∀ most, subsets.arena.size ≤ most →
      run nfa (some most) rounds subsets = .ok (within most after.arena.size after) := by
  induction rounds generalizing subsets with
  | zero =>
    cases ran
    exact ⟨Nat.le_refl _, fun most room => congrArg Except.ok (if_pos room).symm⟩
  | succ rounds ih =>
    cases pending : subsets.pending with
    | nil =>
      simp only [run, pending] at ran ⊢
      cases ran
      exact ⟨Nat.le_refl _, fun most room => congrArg Except.ok (if_pos room).symm⟩
    | cons first rest =>
      simp only [run, pending] at ran ⊢
      obtain ⟨result, done, ran⟩ := Checked.exists_of_bind_eq_ok ran
      cases result with
      | none => cases ran
      | some middle =>
        obtain ⟨grows, limited⟩ := fill_within done
        obtain ⟨further, ih⟩ := ih ran
        refine ⟨grows.trans further, fun most room => ?_⟩
        rw [limited most room]
        by_cases fits : middle.arena.size ≤ most
        · rw [within, if_pos fits]
          exact ih most fits
        · have exceeds := Nat.not_le.mp fits
          rw [within_of_lt exceeds, within_of_lt (lt_of_lt_of_le exceeds further)]
          rfl

end Subsets

/-! ## The whole construction -/

namespace Arena

variable {nfa : Arena} {start : StateId}

/-- The subset construction makes one state for each set that it arrives at, in one round each, and all of them can be
reached by the byte steps of the first. A budget of at least one state gives the same automaton if it is large enough
for all states, and none otherwise. -/
theorem determinize_exact (formed : nfa.WellFormed) (within : start < nfa.size) :
    ∃ dfa names, nfa.determinize (some start) none = .ok (some (dfa, some 0)) ∧ dfa.StandsFor nfa start names ∧
      dfa.size ≤ 2 ^ nfa.size ∧ dfa.Rooted ∧ dfa.Direct ∧
      (∃ begun after, nfa.firstSubsets start = .ok begun ∧ after.pending = [] ∧ after.arena = dfa ∧
        ∀ rounds, dfa.size ≤ rounds → Subsets.run nfa none rounds begun = .ok (some after)) ∧
      ∀ most, 1 ≤ most → nfa.determinize (some start) (some most) =
        .ok (if dfa.size ≤ most then some (dfa, some 0) else none) := by
  obtain ⟨begun, began, single, tracks⟩ := firstSubsets_eq formed within
  rcases Subsets.run_eq formed none (2 ^ nfa.size) 0 tracks (by simp [single]) (by simp) with
    ⟨_, limited⟩ | ⟨after, names, used, ran, enough, grows, tracksAfter, settled, count⟩
  · cases limited
  have named : after.arena.Names nfa start names := .of_tracks tracksAfter settled grows
  have rounds : after.arena.size = used := by rw [named.size, count, Nat.zero_add]
  have ends := Subsets.run_of_le ran settled enough
  have made : nfa.determinize (some start) none = .ok (some (after.arena, some 0)) := by
    rw [determinize_eq_run, began]
    simp only [bind, Except.bind, ends]
    rfl
  refine ⟨after.arena, names, made, named.standsFor formed within, rounds ▸ enough, named.rooted,
    direct_determinize made, ⟨begun, after, began, settled, rfl, fun more order => ?_⟩, fun most some_ => ?_⟩
  · exact Subsets.run_of_le ran settled (rounds ▸ order)
  · have room : begun.arena.size ≤ most := tracks.size.trans_le some_
    rw [determinize_eq_run, began]
    simp only [bind, Except.bind, (Subsets.run_within ends).2 most room, Subsets.within]
    by_cases fits : after.arena.size ≤ most
    · rw [if_pos fits, if_pos fits]
      rfl
    · rw [if_neg fits, if_neg fits]
      rfl

/-- Three states, one of which stays alive on every byte, have at most eight sets. -/
theorem determinize_exact_afterEachA :
    afterEachA.WellFormed ∧ 0 < afterEachA.size ∧ 1 ≤ 8 ∧
      ∃ dfa names, afterEachA.determinize (some 0) none = .ok (some (dfa, some 0)) ∧
        dfa.StandsFor afterEachA 0 names ∧ dfa.Rooted ∧
        afterEachA.determinize (some 0) (some 8) = .ok (some (dfa, some 0)) := by
  have formed : afterEachA.WellFormed := by decide
  have within : 0 < afterEachA.size := by decide
  obtain ⟨dfa, names, made, stands, small, rooted, _, _, limited⟩ := determinize_exact formed within
  refine ⟨formed, within, by decide, dfa, names, made, stands, rooted, ?_⟩
  have eight : dfa.size ≤ 8 := small
  rw [limited 8 (by decide), if_pos eight]

end Arena

end ByteAutomata
