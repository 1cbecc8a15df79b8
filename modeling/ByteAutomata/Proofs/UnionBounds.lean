import ByteAutomata.Proofs.Extraction
import ByteAutomata.Proofs.UnionRelocation

/-!
What a union adds to an arena.

No more states are added than the arena has pairs of states, and when no pair is open any more each of them joins its
pair. The states added are built from what the two automata reach: whatever leads on from them is reached by one of the
two or added as well, and a state is added that forwards or spins out only where one of them does. So the pairs of one
union never pair an added state again, and two automata without epsilons and spinouts have a union without them.
-/

namespace ByteAutomata

/-! ## Regions of an arena -/

/-- The target is nowhere or a state of the region. -/
def Target.In (region : Set StateId) (target : Target) : Prop := ∀ id, target = some id → id ∈ region

/-- The region and all states that are not yet in the arena. -/
def Arena.beyond (source : Arena) (region : Set StateId) : Set StateId := region ∪ Set.Ici source.size

/-- A state that leads to states of the region or to new ones, and that forwards or spins out only if a state of the
region does. -/
structure State.Stays (source : Arena) (region : Set StateId) (state : State) : Prop where
  leads : ∀ target ∈ state.targets, target.In (source.beyond region)
  epsilons : state.table.epsilons = [] ∨
    ∃ id ∈ region, ∃ old, source.get? id = some old ∧ old.table.epsilons ≠ []
  spinout : state.table.spinout = none ∨
    ∃ id ∈ region, ∃ old, source.get? id = some old ∧ old.table.spinout ≠ none

/-- States of the arena that no target leads away from. -/
structure Arena.ClosedRegion (source : Arena) (region : Set StateId) : Prop where
  inside : ∀ id ∈ region, id < source.size
  leads : ∀ id ∈ region, ∀ state, source.get? id = some state → ∀ target ∈ state.targets, target.In region

namespace Joining

/-- Behind the states of the arena stand such states only, and the open pairs are pairs of the region. -/
structure Stays (source : Arena) (region : Set StateId) (joining : Joining) : Prop where
  size : source.size ≤ joining.arena.size
  kept : ∀ id < source.size, joining.arena.get? id = source.get? id
  named : ∀ (pair : StateId × StateId) (id : StateId), joining.named[pair]? = some id → source.size ≤ id
  pending : ∀ pairing ∈ joining.pending,
    source.size ≤ pairing.joint ∧ pairing.left ∈ region ∧ pairing.right ∈ region
  added : ∀ id state, source.size ≤ id → joining.arena.get? id = some state → state.Stays source region

namespace Stays

variable {source : Arena} {region : Set StateId} {joining after : Joining} {state : State}

theorem name (stays : joining.Stays source region) (a b : StateId) (kind : state.Stays source region) :
    (joining.name a b state).1.Stays source region where
  size := stays.size.trans (Nat.le_of_lt ((Nat.lt_succ_self _).trans_eq (Arena.size_push _ _).symm))
  kept := fun id inside =>
    (Arena.get?_push_of_lt (lt_of_lt_of_le inside stays.size)).trans (stays.kept id inside)
  named := by
    intro pair id found
    change (joining.named.insert (orderedPair a b) joining.arena.size)[pair]? = some id at found
    rw [Std.HashMap.getElem?_insert] at found
    split at found
    · exact Option.some.inj found ▸ stays.size
    · exact stays.named pair id found
  pending := stays.pending
  added := by
    intro id other new found
    change (joining.arena.push state).1.get? id = some other at found
    rw [Arena.get?_push] at found
    split at found
    · exact Option.some.inj found ▸ kind
    · exact stays.added id other new found

theorem stays_idle (source : Arena) (region : Set StateId) : State.Stays source region {} where
  leads := by simp [State.targets, Table.empty, Table.always, Target.In]
  epsilons := Or.inl rfl
  spinout := Or.inl rfl

theorem get?_of_get (stays : joining.Stays source region) (closed : source.ClosedRegion region) {id : StateId}
    (member : id ∈ region) (held : joining.arena.get id = .ok state) : source.get? id = some state :=
  (stays.kept id (closed.inside id member)).symm.trans (Arena.get_eq_ok_iff.mp held)

/-- Two states of the region get a new state. -/
theorem resolvePair (stays : joining.Stays source region) (closed : source.ClosedRegion region) {a b id : StateId}
    (left : a ∈ region) (right : b ∈ region) (resolved : joining.resolvePair a b = .ok (after, id)) :
    after.Stays source region ∧ source.size ≤ id := by
  rcases resolvePair_cases resolved with
    ⟨rfl, known⟩ | ⟨rfl, rfl | ⟨rfl, other, state, which, found, forwards⟩⟩
  · exact ⟨stays, stays.named _ id known⟩
  · have named := stays.name a b (stays_idle source region)
    refine ⟨⟨named.size, named.kept, named.named, ?_, named.added⟩, stays.size⟩
    intro pairing listed
    rcases List.mem_cons.mp listed with rfl | earlier
    · exact ⟨stays.size, left, right⟩
    · exact stays.pending pairing earlier
  · have member : other ∈ region := by rcases which with rfl | rfl <;> assumption
    refine ⟨stays.name a b ⟨?_, Or.inr ?_, Or.inl rfl⟩, stays.size⟩
    · intro target listed next leads
      subst leads
      have either : next = a ∨ next = b := by
        simpa [State.targets, Table.empty, Table.always] using listed
      rcases either with rfl | rfl
      · exact Or.inl left
      · exact Or.inl right
    · exact ⟨other, member, state, stays.get?_of_get closed member found, forwards⟩

/-- Targets in the region get a target there or a new one. -/
theorem resolve (stays : joining.Stays source region) (closed : source.ClosedRegion region) {a b target : Target}
    (left : a.In region) (right : b.In region) (resolved : joining.resolve a b = .ok (after, target)) :
    after.Stays source region ∧ target.In (source.beyond region) := by
  rcases resolve_cases resolved with ⟨rfl, rfl | rfl⟩ | ⟨left', right', id, rfl, rfl, rfl, ran⟩
  · exact ⟨stays, fun id leads => Or.inl (left id leads)⟩
  · exact ⟨stays, fun id leads => Or.inl (right id leads)⟩
  · obtain ⟨kept, new⟩ := stays.resolvePair closed (left left' rfl) (right right' rfl) ran
    exact ⟨kept, fun _ leads => Or.inr (Option.some.inj leads ▸ new)⟩

theorem resolveRanges (stays : joining.Stays source region) (closed : source.ClosedRegion region)
    {runs filled as bs : List (UInt8 × Target)} (left : ∀ run ∈ as, run.2.In region)
    (right : ∀ run ∈ bs, run.2.In region)
    (tabulated : ∀ target ∈ runs.map (·.2), target.In (source.beyond region))
    (resolved : joining.resolveRanges runs as bs = .ok (after, filled)) :
    after.Stays source region ∧ ∀ target ∈ filled.map (·.2), target.In (source.beyond region) := by
  fun_induction Joining.resolveRanges joining runs as bs with
  | case1 joining runs bs =>
    cases resolved
    exact ⟨stays, tabulated⟩
  | case2 joining runs as nonempty =>
    cases resolved
    exact ⟨stays, tabulated⟩
  | case3 joining runs ceilingA a restA ceilingB b restB ihA ihB ihBoth =>
    obtain ⟨⟨middle, target⟩, stepped, resolved⟩ := Checked.exists_of_bind_eq_ok resolved
    obtain ⟨kept, within⟩ := stays.resolve closed (left _ List.mem_cons_self) (right _ List.mem_cons_self) stepped
    have extended (ceiling : UInt8) :
        ∀ other ∈ (Table.extendRuns ceiling target runs).map (·.2), other.In (source.beyond region) := by
      intro other listed
      rcases Table.mem_extendRuns listed with rfl | earlier
      · exact within
      · exact tabulated other earlier
    have leftRest : ∀ run ∈ restA, run.2.In region := fun run listed => left run (List.mem_cons_of_mem _ listed)
    have rightRest : ∀ run ∈ restB, run.2.In region := fun run listed => right run (List.mem_cons_of_mem _ listed)
    dsimp only at resolved
    by_cases less : ceilingA < ceilingB
    · rw [if_pos less] at resolved
      exact ihA middle target kept leftRest right (extended _) resolved
    · rw [if_neg less] at resolved
      by_cases more : ceilingB < ceilingA
      · rw [if_pos more] at resolved
        exact ihB middle target kept left rightRest (extended _) resolved
      · rw [if_neg more] at resolved
        exact ihBoth middle target kept leftRest rightRest (extended _) resolved

/-- A state that is put in its place behind those of the arena. -/
theorem put (stays : joining.Stays source region) {joint : StateId} (new : source.size ≤ joint)
    (kind : state.Stays source region) :
    Stays source region { joining with arena := joining.arena.put joint state } where
  size := stays.size.trans (Arena.size_put _ _ _).ge
  kept := fun id inside =>
    (Arena.get?_put_of_ne _ _ (Nat.ne_of_gt (lt_of_lt_of_le inside new))).trans (stays.kept id inside)
  named := stays.named
  pending := stays.pending
  added := by
    intro id other later found
    by_cases same : joint = id
    · subst same
      rw [Arena.get?_put_self (Arena.size_put joining.arena joint state ▸ Arena.lt_size_of_get? found),
        Option.some.injEq] at found
      exact found ▸ kind
    · rw [Arena.get?_put_of_ne _ _ same] at found
      exact stays.added id other later found

/-- Joining a pair of the region. -/
theorem fill (stays : joining.Stays source region) (closed : source.ClosedRegion region) {pairing : Pairing}
    (new : source.size ≤ pairing.joint) (leftIn : pairing.left ∈ region) (rightIn : pairing.right ∈ region)
    (filled : joining.fill pairing = .ok after) : after.Stays source region := by
  obtain ⟨left, foundLeft, filled⟩ := Checked.exists_of_bind_eq_ok filled
  obtain ⟨right, foundRight, filled⟩ := Checked.exists_of_bind_eq_ok filled
  obtain ⟨⟨middle, spinout⟩, spun, filled⟩ := Checked.exists_of_bind_eq_ok filled
  obtain ⟨⟨last, runs⟩, ranged, filled⟩ := Checked.exists_of_bind_eq_ok filled
  cases filled
  have atLeft := stays.get?_of_get closed leftIn foundLeft
  have atRight := stays.get?_of_get closed rightIn foundRight
  have leads {id : StateId} {state : State} (member : id ∈ region) (found : source.get? id = some state) :
      (∀ run ∈ state.table.runs, run.2.In region) ∧ state.table.spinout.In region := by
    refine ⟨fun run listed => ?_, ?_⟩
    · refine closed.leads id member state found run.2 (List.mem_append_left _ (List.mem_append_left _ ?_))
      exact (List.of_mem_zip listed).2
    · exact closed.leads id member state found _ (List.mem_append_right _ (List.mem_singleton_self _))
  obtain ⟨keptMiddle, spins⟩ :=
    stays.resolve closed (leads leftIn atLeft).2 (leads rightIn atRight).2 spun
  obtain ⟨keptLast, ranges⟩ := keptMiddle.resolveRanges closed (leads leftIn atLeft).1 (leads rightIn atRight).1
    (by simp) ranged
  refine keptLast.put new ⟨?_, Or.inl rfl, ?_⟩
  · intro target listed
    have listed : target ∈ runs.map (·.2) ∨ target = spinout := by
      simpa [State.targets, Table.withRuns, Table.empty, Table.always] using listed
    rcases listed with step | rfl
    · exact ranges target step
    · exact spins
  · by_cases still : left.table.spinout = none ∧ right.table.spinout = none
    · rw [still.1, still.2] at spun
      cases spun
      exact Or.inl rfl
    · rcases not_and_or.mp still with moves | moves
      · exact Or.inr ⟨_, leftIn, left, atLeft, moves⟩
      · exact Or.inr ⟨_, rightIn, right, atRight, moves⟩

theorem run (stays : joining.Stays source region) (closed : source.ClosedRegion region) {rounds : Nat}
    (ran : Joining.run rounds joining = .ok after) : after.Stays source region := by
  induction rounds generalizing joining with
  | zero =>
    cases ran
    exact stays
  | succ rounds ih =>
    cases open_ : joining.pending with
    | nil =>
      simp only [Joining.run, open_] at ran
      cases ran
      exact stays
    | cons pairing rest =>
      simp only [Joining.run, open_] at ran
      obtain ⟨middle, filled, ran⟩ := Checked.exists_of_bind_eq_ok ran
      obtain ⟨new, left, right⟩ := stays.pending pairing (open_ ▸ List.mem_cons_self)
      have taken : Stays source region { joining with pending := rest } :=
        ⟨stays.size, stays.kept, stays.named,
          fun other listed => stays.pending other (open_ ▸ List.mem_cons_of_mem _ listed), stays.added⟩
      exact ih (taken.fill closed new left right filled) ran

end Stays

end Joining

/-! ## Automata without epsilons and spinouts -/

namespace Arena

variable {arena source : Arena} {region : Set StateId} {start : Target}

/-- No state that can be reached from the target has epsilons or a spinout. -/
def SilentFrom (arena : Arena) (start : Target) : Prop :=
  ∀ first, start = some first → ∀ id, Relation.ReflTransGen (arena.Leads none) first id →
    ∀ state, arena.get? id = some state → state.table.epsilons = [] ∧ state.table.spinout = none

/-- The test for one active state finds out just that. -/
theorem isDeterministic_eq (formed : arena.WellFormed) (within : arena.TargetWithin start) :
    ∃ answer, arena.isDeterministic start = .ok answer ∧ (answer = true ↔ arena.SilentFrom start) := by
  cases start with
  | none => exact ⟨true, rfl, by simp [SilentFrom]⟩
  | some first =>
    obtain ⟨found, ids, ran, lists, explored⟩ := explore_eq formed (within first rfl) none
    have each : ∀ id ∈ ids, ∃ answer,
        (do let state ← arena.get id
            return state.table.epsilons.isEmpty && state.table.spinout.isNone : Checked Bool) = .ok answer ∧
        (answer = true ↔ ∀ state, arena.get? id = some state →
          state.table.epsilons = [] ∧ state.table.spinout = none) := by
      intro id listed
      obtain ⟨state, held⟩ := exists_get? (explored.inside id listed)
      refine ⟨_, by rw [get_of_get? held]; rfl, ?_⟩
      simp [held]
    obtain ⟨answer, tested, means⟩ := Checked.allM_eq_ok each
    refine ⟨answer, ?_, means.trans ?_⟩
    · simp only [isDeterministic, reachable, ran, Functor.map, Except.map, bind, Except.bind, lists.order]
      exact tested
    · simp [SilentFrom, explored.mem_iff]

/-- What can be reached from either target. -/
def reachedFrom (source : Arena) (a b : Target) : Set StateId :=
  {id | ∃ first, (a = some first ∨ b = some first) ∧ Relation.ReflTransGen (source.Leads none) first id}

theorem closedRegion_reachedFrom (formed : source.WellFormed) {a b : Target} (left : source.TargetWithin a)
    (right : source.TargetWithin b) : source.ClosedRegion (source.reachedFrom a b) where
  inside := by
    rintro id ⟨first, starts, reaches⟩
    have within : first < source.size := starts.elim (left first) (right first)
    cases reaches.cases_tail with
    | inl same => exact same ▸ within
    | inr last =>
      obtain ⟨_, _, state, found, listed, _⟩ := last
      exact (formed.fits found).lt_of_mem_targets listed
  leads := by
    rintro id ⟨first, starts, reaches⟩ state found target listed next rfl
    exact ⟨first, starts, reaches.tail ⟨state, found, listed, by simp⟩⟩

/-- From a state of the region or a new one, a union leads to such states only. -/
theorem mem_beyond_of_reaches {joining : Joining} (stays : joining.Stays source region)
    (closed : source.ClosedRegion region) {first id : StateId} (begins : first ∈ source.beyond region)
    (reaches : Relation.ReflTransGen (joining.arena.Leads none) first id) : id ∈ source.beyond region := by
  induction reaches with
  | refl => exact begins
  | tail _ last ih =>
    obtain ⟨state, found, listed, _⟩ := last
    rcases ih with old | new
    · rw [stays.kept _ (closed.inside _ old)] at found
      exact Or.inl (closed.leads _ old state found _ listed _ rfl)
    · exact (stays.added _ state new found).leads _ listed _ rfl

/-- A union of two automata without epsilons and spinouts has none. -/
theorem silentFrom_union {joining : Joining} {a b : Target} (stays : joining.Stays source (source.reachedFrom a b))
    (closed : source.ClosedRegion (source.reachedFrom a b)) (begins : start.In (source.beyond (source.reachedFrom a b)))
    (left : source.SilentFrom a) (right : source.SilentFrom b) : joining.arena.SilentFrom start := by
  have silent {id : StateId} (member : id ∈ source.reachedFrom a b) {state : State}
      (found : source.get? id = some state) : state.table.epsilons = [] ∧ state.table.spinout = none := by
    obtain ⟨first, starts | starts, reaches⟩ := member
    · exact left first starts id reaches state found
    · exact right first starts id reaches state found
  intro first starts id reaches state found
  rcases mem_beyond_of_reaches stays closed (begins first starts) reaches with old | new
  · rw [stays.kept _ (closed.inside _ old)] at found
    exact silent old found
  · obtain ⟨_, epsilons, spinout⟩ := stays.added id state new found
    refine ⟨epsilons.resolve_right ?_, spinout.resolve_right ?_⟩
    · rintro ⟨other, member, old, held, some_⟩
      exact some_ (silent member held).1
    · rintro ⟨other, member, old, held, some_⟩
      exact some_ (silent member held).2

/-! ## The whole union -/

/-- A union has no more rounds to run, and adds no more states, than the arena has pairs of states. It then has one
state for each pair that came up, which joins the pair, and has epsilons and spinouts only where one of the two automata
has. -/
theorem union_ends (formed : source.WellFormed) {a b : Target} (left : source.TargetWithin a)
    (right : source.TargetWithin b) :
    ∃ middle start after pairs, Joining.resolve { arena := source } a b = .ok (middle, start) ∧
      (∀ rounds, source.size * (source.size - 1) / 2 ≤ rounds → Joining.run rounds middle = .ok after) ∧
      after.pending = [] ∧ source.union a b = .ok (after.arena, start) ∧ source.Unites pairs after.arena ∧
      pairs.Nodup ∧ pairs.length ≤ source.size * (source.size - 1) / 2 ∧
      (source.SilentFrom a → source.SilentFrom b → after.arena.SilentFrom start) := by
  obtain ⟨middle, start, after, pairs, resolved, ran, settled, distinct, unites, _⟩ :=
    Joining.settles formed left right
  refine ⟨middle, start, after, pairs, resolved, ran, settled, ?_, unites, distinct,
    length_le_of_pairs distinct unites.proper, ?_⟩
  · simp only [union, resolved, ran _ source.pairs_le_pairBound, bind, Except.bind]
    rfl
  · have closed := closedRegion_reachedFrom formed left right
    have blank : Joining.Stays source (source.reachedFrom a b) { arena := source } :=
      ⟨Nat.le_refl _, fun _ _ => rfl, by simp, by simp,
        fun id _ new found => absurd (lt_size_of_get? found) (Nat.not_lt.mpr new)⟩
    obtain ⟨stays, begins⟩ := blank.resolve closed (fun id same => ⟨id, Or.inl same, .refl⟩)
      (fun id same => ⟨id, Or.inr same, .refl⟩) resolved
    exact silentFrom_union (stays.run closed (ran _ source.pairs_le_pairBound)) closed begins

/-- A loop of two states and a final state that leads into it. -/
def crossedLoops : Arena :=
  ⟨#[{ table := Table.single 0x61 (some 1) }, { table := Table.single 0x61 (some 0) },
    { table := Table.single 0x61 (some 0), continuations := [7] }]⟩

theorem union_ends_crossedLoops :
    crossedLoops.WellFormed ∧ crossedLoops.TargetWithin (some 0) ∧ crossedLoops.TargetWithin (some 2) ∧
      ∃ middle start after pairs, Joining.resolve { arena := crossedLoops } (some 0) (some 2) = .ok (middle, start) ∧
        Joining.run 3 middle = .ok after ∧ after.pending = [] ∧
        crossedLoops.union (some 0) (some 2) = .ok (after.arena, start) ∧
        crossedLoops.Unites pairs after.arena ∧ pairs.Nodup ∧ pairs.length ≤ 3 := by
  have formed : crossedLoops.WellFormed := by decide
  have left : crossedLoops.TargetWithin (some 0) := by decide
  have right : crossedLoops.TargetWithin (some 2) := by decide
  obtain ⟨middle, start, after, pairs, resolved, ran, settled, united, unites, distinct, few, _⟩ :=
    union_ends formed left right
  exact ⟨formed, left, right, middle, start, after, pairs, resolved, ran 3 (by decide), settled, united, unites,
    distinct, few⟩

end Arena

end ByteAutomata
