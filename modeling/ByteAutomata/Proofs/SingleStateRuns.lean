import ByteAutomata.Proofs.LeftoverFrontiers
import ByteAutomata.Proofs.UnionBounds

/-!
One active state is enough where nothing forwards and nothing spins.

From a state without epsilons and spinout a byte leads to one state at most, and the closure of that state is the
state itself. So a frontier that starts with one state never has a second one, and what it reports before each byte is
what the run with one active state appends when it enters the state. Both runs end with the same list, in the same
order.
-/

namespace ByteAutomata

/-- Without epsilons and a spinout only a byte step leads on. -/
theorem State.moves_of_silent {state : State} (silent : state.table.epsilons = [])
    (still : state.table.spinout = none) (id : StateId) (byte : UInt8) :
    state.moves id byte = (state.table.lookup byte).toList := by
  simp [moves, silent, still]

namespace Arena

variable {arena : Arena} {id next : StateId} {start : Target} {state : State} {byte : UInt8}

/-! ## Frontiers of one state -/

theorem heldByActive_singleton (found : arena.get? id = some state) (silent : state.table.epsilons = []) :
    arena.heldByActive [id] = state.continuations := by
  simp only [heldByActive, List.flatMap_singleton, closure_of_silent found silent, heldBy_of_get? found]

theorem activeAfter_singleton (found : arena.get? id = some state) (silent : state.table.epsilons = [])
    (still : state.table.spinout = none) (byte : UInt8) :
    arena.activeAfter byte [id] = (state.table.lookup byte).toList := by
  have moves := state.moves_of_silent silent still id byte
  simp only [activeAfter, List.flatMap_singleton, closure_of_silent found silent, movesFrom_of_get? found, moves]
  cases state.table.lookup byte with
  | none => rfl
  | some next => rfl

/-! ## Along a run -/

namespace SilentFrom

theorem of_get? (silent : arena.SilentFrom (some id)) (found : arena.get? id = some state) :
    state.table.epsilons = [] ∧ state.table.spinout = none :=
  silent id rfl id .refl state found

/-- Behind a byte step nothing forwards or spins either. -/
theorem step (silent : arena.SilentFrom (some id)) (formed : arena.WellFormed) (found : arena.get? id = some state)
    (leads : state.table.lookup byte = some next) : arena.SilentFrom (some next) := by
  have target : some next ∈ state.targets := by
    have listed := Table.lookup_mem_steps (formed.fits found).table leads
    simp [State.targets, listed]
  have led : arena.Leads none id next := ⟨state, found, target, by simp⟩
  rintro first same other reaches
  obtain rfl := Option.some.inj same
  exact silent id rfl other (reaches.head led)

/-- A run with one active state that enters a state appends what a frontier of this state reports along the bytes. -/
theorem walkFrom_eq (silent : arena.SilentFrom (some id)) (formed : arena.WellFormed)
    (found : arena.get? id = some state) (bytes : List UInt8) (reported : List Continuation) :
    arena.walkFrom id (addMissing reported state.continuations) bytes =
      .ok (addMissing reported (arena.reportsAlong [id] bytes)) := by
  induction bytes generalizing id state reported with
  | nil =>
    rw [reportsAlong, heldByActive_singleton found (silent.of_get? found).1]
    rfl
  | cons byte rest ih =>
    obtain ⟨epsilons, spinout⟩ := silent.of_get? found
    have fits := formed.fits found
    have looked := Table.step_eq_lookup fits.table byte
    rw [reportsAlong, heldByActive_singleton found epsilons, activeAfter_singleton found epsilons spinout,
      addMissing_append]
    cases leads : state.table.lookup byte with
    | none =>
      rw [Option.toList_none, reportsAlong_nil]
      simp only [walkFrom, get_of_get? found, bind, Except.bind, looked, leads]
      rfl
    | some next =>
      obtain ⟨entered, held⟩ := exists_get? (fits.lookup_lt leads)
      have further := ih (silent.step formed found leads) held (addMissing reported state.continuations)
      simp only [walkFrom, get_of_get? found, bind, Except.bind, looked, leads, get_of_get? held]
      exact further

end SilentFrom

/-- The test for one active state faults on a start outside the arena. -/
theorem targetWithin_of_isDeterministic {answer : Bool} (tested : arena.isDeterministic start = .ok answer) :
    arena.TargetWithin start := by
  rintro id rfl
  by_contra outside
  have missing : arena.get id = .error (.noSuchState id) := by
    have absent : arena.get? id = none := Array.getElem?_eq_none (Nat.not_lt.mp outside)
    rw [get, absent]
  simp [isDeterministic, reachable, explore, exploreFrom, Discovery.add, missing, bind, Except.bind, Functor.map,
    Except.map] at tested

/-- Where the test for one active state says so, the run with one active state and the run by frontier never fault and
end with the same list, whatever bytes they read, whatever was found before and whatever earlier runs have left in the
frontiers and in the cache. -/
theorem walk_eq_sweep (formed : arena.WellFormed) (single : arena.isDeterministic start = .ok true)
    {closures : ClosureCache} (known : closures.ValidFor arena) {frontiers : Frontiers} (leftOver : frontiers.LeftOver)
    (value : List UInt8) (found : List Continuation) :
    ∃ all left learnt, arena.walk start value found = .ok all ∧
      arena.sweep closures start value frontiers found = .ok (all, left, learnt) := by
  have inside := targetWithin_of_isDeterministic single
  obtain ⟨answer, tested, means⟩ := isDeterministic_eq formed inside
  have silent : arena.SilentFrom start := by
    apply means.mp
    exact Except.ok.inj (tested.symm.trans single)
  cases start with
  | none => exact ⟨found, frontiers, closures, rfl, rfl⟩
  | some id =>
    obtain ⟨state, held⟩ := exists_get? (inside id rfl)
    obtain ⟨left, learnt, swept, _⟩ := sweep_some_eq formed (inside id rfl) known leftOver.valid value found
    refine ⟨_, left, learnt, ?_, swept⟩
    have walked := silent.walkFrom_eq formed held (terminated value) found
    simp only [walk, get_of_get? held, bind, Except.bind]
    exact walked

/-- Goes back and forth between two states, of which one reports, and ends in a third one. -/
def backAndForth : Arena :=
  ⟨#[{ table := Table.mapping none [(0x61, some 1)] },
    { table := Table.mapping none [(0x61, some 0), (valueTerminator, some 2)], continuations := [7] },
    { continuations := [9, 7, 5] }]⟩

theorem walk_eq_sweep_backAndForth :
    backAndForth.WellFormed ∧ backAndForth.isDeterministic (some 0) = .ok true ∧
      ∃ left learnt, backAndForth.walk (some 0) [0x61, 0x61, 0x61] [9] = .ok [9, 7, 5] ∧
        backAndForth.sweep (.ofSize 3) (some 0) [0x61, 0x61, 0x61] {} [9] = .ok ([9, 7, 5], left, learnt) := by
  have formed : backAndForth.WellFormed := by decide
  have quiet : ∀ state ∈ backAndForth.states, state.table.epsilons = [] ∧ state.table.spinout = none := by decide +kernel
  have silent : backAndForth.SilentFrom (some 0) :=
    fun _ _ id _ state found => quiet state (mem_states_iff.mpr ⟨id, found⟩)
  obtain ⟨answer, tested, means⟩ := isDeterministic_eq formed (by decide : backAndForth.TargetWithin (some 0))
  have single : backAndForth.isDeterministic (some 0) = .ok true := means.mpr silent ▸ tested
  have walked : backAndForth.walk (some 0) [0x61, 0x61, 0x61] [9] = .ok [9, 7, 5] := by decide +kernel
  obtain ⟨all, left, learnt, ran, swept⟩ := walk_eq_sweep formed single
    (ClosureCache.validFor_ofSize backAndForth) .fresh [0x61, 0x61, 0x61] [9]
  rw [walked, Except.ok.injEq] at ran
  exact ⟨formed, single, left, learnt, walked, ran ▸ swept⟩

end Arena

end ByteAutomata
