import ByteAutomata.Proofs.Checked
import ByteAutomata.Proofs.Relocation
import ByteAutomata.Proofs.UnionRounds

/-!
Unions behind the states of another arena.

Joining goes through the same pairs behind another arena, with every name raised. The names of pairs
are kept by raised pairs there, and the order of two names does not change when both are raised.
-/

namespace ByteAutomata

variable {base : Arena} {a b : StateId}

theorem orderedPair_raise (below a b : StateId) :
    orderedPair (below + a) (below + b) =
      (below + (orderedPair a b).1, below + (orderedPair a b).2) := by
  unfold orderedPair
  by_cases less : a < b
  · rw [if_pos less, if_pos (Nat.add_lt_add_left less below)]
  · rw [if_neg less, if_neg fun order => less (Nat.lt_of_add_lt_add_left order)]

def Pairing.raise (below : Nat) (pairing : Pairing) : Pairing :=
  ⟨below + pairing.joint, below + pairing.left, below + pairing.right⟩

/-- The ranges with every step raised. -/
def raiseRuns (below : Nat) (runs : List (UInt8 × Target)) : List (UInt8 × Target) :=
  runs.map fun run => (run.1, run.2.raise below)

theorem extendRuns_raise (below : Nat) (ceiling : UInt8) (target : Target)
    (runs : List (UInt8 × Target)) :
    Table.extendRuns ceiling (target.raise below) (raiseRuns below runs) =
      raiseRuns below (Table.extendRuns ceiling target runs) := by
  cases runs with
  | nil => rfl
  | cons run rest =>
    by_cases same : run.2 = target
    · simp [Table.extendRuns, raiseRuns, same]
    · simp [Table.extendRuns, raiseRuns, same]

theorem Arena.get_above {arena : Arena} {id : StateId} {state : State} (found : arena.get id = .ok state) :
    (base.above arena).get (base.size + id) = .ok (state.raise base.size) := by
  apply get_of_get?
  rw [get?_above, get_eq_ok_iff.mp found]
  rfl

namespace Joining

/-- The other joining does the same behind the states of `base`. -/
structure RaisesTo (base : Arena) (joining other : Joining) : Prop where
  arena : other.arena = base.above joining.arena
  named : ∀ a b, other.named[(base.size + a, base.size + b)]? =
    joining.named[(a, b)]?.map (base.size + ·)
  pending : other.pending = joining.pending.map (Pairing.raise base.size)

variable {joining other after : Joining}

theorem RaisesTo.name (raises : joining.RaisesTo base other) (a b : StateId) (state : State) :
    (joining.name a b state).1.RaisesTo base
        (other.name (base.size + a) (base.size + b) (state.raise base.size)).1 ∧
      (other.name (base.size + a) (base.size + b) (state.raise base.size)).2 =
        base.size + (joining.name a b state).2 := by
  have pushed : other.arena.push (state.raise base.size) = base.raised (joining.arena.push state) := by
    rw [raises.arena, Arena.push_above]
  have place : (other.arena.push (state.raise base.size)).2 =
      base.size + (joining.arena.push state).2 := by
    rw [pushed]
    rfl
  refine ⟨⟨?_, fun c d => ?_, raises.pending⟩, place⟩
  · change (other.arena.push (state.raise base.size)).1 = _
    rw [pushed]
    rfl
  · change (other.named.insert _ (other.arena.push (state.raise base.size)).2)[_]? =
      (joining.named.insert _ (joining.arena.push state).2)[_]?.map _
    rw [place, orderedPair_raise, Std.HashMap.getElem?_insert, Std.HashMap.getElem?_insert]
    by_cases same : orderedPair a b = (c, d)
    · simp [same]
    · have apart : (base.size + (orderedPair a b).1, base.size + (orderedPair a b).2) ≠
          (base.size + c, base.size + d) := by
        intro equal
        obtain ⟨first, second⟩ := Prod.mk.inj equal
        exact same (Prod.ext (Nat.add_left_cancel first) (Nat.add_left_cancel second))
      simp only [beq_iff_eq, same, apart, ↓reduceIte, raises.named]

theorem isEmpty_epsilons_raise (below : Nat) (state : State) :
    (state.raise below).table.epsilons.isEmpty = state.table.epsilons.isEmpty := by
  simp [State.raise]

theorem RaisesTo.resolvePair (raises : joining.RaisesTo base other) {id : StateId}
    (resolved : joining.resolvePair a b = .ok (after, id)) :
    ∃ further, other.resolvePair (base.size + a) (base.size + b) = .ok (further, base.size + id) ∧
      after.RaisesTo base further := by
  cases known : joining.named[orderedPair a b]? with
  | some joint =>
    simp only [Joining.resolvePair, known] at resolved
    cases resolved
    refine ⟨other, ?_, raises⟩
    simp only [Joining.resolvePair, orderedPair_raise, raises.named, known, Option.map_some]
    rfl
  | none =>
    obtain ⟨left, right, found, second⟩ := exists_of_resolvePair known resolved
    have absent : other.named[orderedPair (base.size + a) (base.size + b)]? = none := by
      rw [orderedPair_raise, raises.named, known, Option.map_none]
    have foundRaised : other.arena.get (base.size + a) = .ok (left.raise base.size) :=
      raises.arena ▸ Arena.get_above found
    have secondRaised (silent : (left.raise base.size).table.epsilons.isEmpty) :
        other.arena.get (base.size + b) = .ok (right.raise base.size) :=
      raises.arena ▸ Arena.get_above (second (isEmpty_epsilons_raise base.size left ▸ silent))
    rw [resolvePair_of_unnamed known found second, Except.ok.injEq] at resolved
    rw [resolvePair_of_unnamed absent foundRaised secondRaised, isEmpty_epsilons_raise,
      isEmpty_epsilons_raise]
    by_cases combined : left.table.epsilons.isEmpty && right.table.epsilons.isEmpty
    · rw [if_pos combined] at resolved ⊢
      obtain ⟨named, same⟩ := raises.name a b {}
      obtain ⟨rfl, rfl⟩ := Prod.mk.inj resolved
      refine ⟨_, congrArg Except.ok (Prod.ext rfl same), named.arena, named.named, ?_⟩
      rw [List.map_cons, ← raises.pending]
      exact congrArg (fun joint => (⟨joint, _, _⟩ : Pairing) :: other.pending) same
    · rw [if_neg combined] at resolved ⊢
      obtain ⟨named, same⟩ :=
        raises.name a b { table := { Table.empty with epsilons := [some a, some b] } }
      obtain ⟨rfl, rfl⟩ := Prod.mk.inj resolved
      exact ⟨_, congrArg Except.ok (Prod.ext rfl same), named⟩

theorem RaisesTo.resolve (raises : joining.RaisesTo base other) {a b target : Target}
    (resolved : joining.resolve a b = .ok (after, target)) :
    ∃ further, other.resolve (a.raise base.size) (b.raise base.size) =
        .ok (further, target.raise base.size) ∧ after.RaisesTo base further := by
  cases a with
  | none =>
    cases b with
    | none =>
      cases resolved
      exact ⟨other, rfl, raises⟩
    | some b =>
      cases resolved
      exact ⟨other, rfl, raises⟩
  | some a =>
    cases b with
    | none =>
      cases resolved
      exact ⟨other, rfl, raises⟩
    | some b =>
      simp only [Joining.resolve, Target.raise_some, Nat.add_left_cancel_iff] at resolved ⊢
      by_cases same : a = b
      · rw [if_pos same] at resolved ⊢
        cases resolved
        exact ⟨other, rfl, raises⟩
      · rw [if_neg same] at resolved ⊢
        cases ran : joining.resolvePair a b with
        | error fault =>
          rw [ran] at resolved
          cases resolved
        | ok pair =>
          rw [ran] at resolved
          cases resolved
          obtain ⟨further, ranRaised, raised⟩ := raises.resolvePair ran
          exact ⟨further, by rw [ranRaised]; rfl, raised⟩

theorem RaisesTo.resolveRanges (raises : joining.RaisesTo base other)
    {runs filled as bs : List (UInt8 × Target)}
    (resolved : joining.resolveRanges runs as bs = .ok (after, filled)) :
    ∃ further, other.resolveRanges (raiseRuns base.size runs) (raiseRuns base.size as)
        (raiseRuns base.size bs) = .ok (further, raiseRuns base.size filled) ∧
      after.RaisesTo base further := by
  fun_induction Joining.resolveRanges joining runs as bs generalizing other with
  | case1 joining runs bs =>
    cases resolved
    exact ⟨other, by simp [raiseRuns, Joining.resolveRanges], raises⟩
  | case2 joining runs as nonempty =>
    cases resolved
    refine ⟨other, ?_, raises⟩
    cases as with
    | nil => simp [raiseRuns, Joining.resolveRanges]
    | cons run rest => simp [raiseRuns, Joining.resolveRanges]
  | case3 joining runs ceilingA a restA ceilingB b restB ihA ihB ihBoth =>
    obtain ⟨⟨middle, target⟩, stepped, resolved⟩ := Checked.exists_of_bind_eq_ok resolved
    obtain ⟨further, steppedRaised, raised⟩ := raises.resolve stepped
    simp only [raiseRuns, List.map_cons, Joining.resolveRanges, steppedRaised, bind, Except.bind]
    dsimp only at resolved
    by_cases less : ceilingA < ceilingB
    · rw [if_pos less] at resolved ⊢
      have later := ihA middle target raised resolved
      rwa [← extendRuns_raise] at later
    · rw [if_neg less] at resolved ⊢
      by_cases more : ceilingB < ceilingA
      · rw [if_pos more] at resolved ⊢
        have later := ihB middle target raised resolved
        rwa [← extendRuns_raise] at later
      · rw [if_neg more] at resolved ⊢
        have later := ihBoth middle target raised resolved
        rwa [← extendRuns_raise] at later

theorem RaisesTo.fill (raises : joining.RaisesTo base other) {pairing : Pairing}
    (filled : joining.fill pairing = .ok after) :
    ∃ further, other.fill (pairing.raise base.size) = .ok further ∧ after.RaisesTo base further := by
  obtain ⟨left, foundLeft, filled⟩ := Checked.exists_of_bind_eq_ok filled
  obtain ⟨right, foundRight, filled⟩ := Checked.exists_of_bind_eq_ok filled
  obtain ⟨⟨middle, spinout⟩, spun, filled⟩ := Checked.exists_of_bind_eq_ok filled
  obtain ⟨⟨last, runs⟩, ranged, filled⟩ := Checked.exists_of_bind_eq_ok filled
  obtain ⟨middleRaised, spunRaised, raisedMiddle⟩ := raises.resolve spun
  obtain ⟨lastRaised, rangedRaised, raisedLast⟩ := raisedMiddle.resolveRanges ranged
  have leftRaised : other.arena.get (pairing.raise base.size).left = .ok (left.raise base.size) :=
    raises.arena ▸ Arena.get_above foundLeft
  have rightRaised : other.arena.get (pairing.raise base.size).right = .ok (right.raise base.size) :=
    raises.arena ▸ Arena.get_above foundRight
  have runsRaised (state : State) :
      (state.raise base.size).table.runs = raiseRuns base.size state.table.runs :=
    Table.runs_raise state.table
  have rangedHere : middleRaised.resolveRanges [] (left.raise base.size).table.runs
      (right.raise base.size).table.runs = .ok (lastRaised, raiseRuns base.size runs) := by
    rw [runsRaised, runsRaised]
    exact rangedRaised
  cases filled
  refine ⟨{ lastRaised with arena := base.above (last.arena.put pairing.joint _) }, ?_, rfl,
    raisedLast.named, raisedLast.pending⟩
  have spunHere : other.resolve (left.raise base.size).table.spinout
      (right.raise base.size).table.spinout = .ok (middleRaised, spinout.raise base.size) := spunRaised
  simp only [Joining.fill, leftRaised, rightRaised, spunHere, rangedHere, bind, Except.bind]
  rw [raisedLast.arena, ← Arena.put_above]
  have table : ({ Table.empty with spinout := spinout.raise base.size } : Table).withRuns
        (raiseRuns base.size runs).reverse =
      (({ Table.empty with spinout } : Table).withRuns runs.reverse).raise base.size := by
    rw [← Table.withRuns_raise, List.map_reverse]
    rfl
  rw [table]
  rfl

theorem RaisesTo.run (raises : joining.RaisesTo base other) {rounds : Nat}
    (ran : Joining.run rounds joining = .ok after) :
    ∃ further, Joining.run rounds other = .ok further ∧ after.RaisesTo base further := by
  induction rounds generalizing joining other with
  | zero =>
    cases ran
    exact ⟨other, rfl, raises⟩
  | succ rounds ih =>
    cases open_ : joining.pending with
    | nil =>
      have openRaised : other.pending = [] := by rw [raises.pending, open_, List.map_nil]
      simp only [Joining.run, open_] at ran
      cases ran
      exact ⟨other, by simp only [Joining.run, openRaised], raises⟩
    | cons pairing rest =>
      have openRaised : other.pending = pairing.raise base.size :: rest.map (Pairing.raise base.size) := by
        rw [raises.pending, open_, List.map_cons]
      simp only [Joining.run, open_] at ran
      obtain ⟨middle, filled, ran⟩ := Checked.exists_of_bind_eq_ok ran
      have taken : { joining with pending := rest }.RaisesTo base
          { other with pending := rest.map (Pairing.raise base.size) } :=
        ⟨raises.arena, raises.named, rfl⟩
      obtain ⟨further, filledRaised, raised⟩ := taken.fill filled
      obtain ⟨last, ranRaised, raisedLast⟩ := ih raised ran
      exact ⟨last, by simp only [Joining.run, openRaised, filledRaised, bind, Except.bind, ranRaised],
        raisedLast⟩

end Joining

/-- A union of two automata behind another arena is the union of the two, raised. -/
theorem Arena.union_above {arena joined : Arena} (formed : arena.WellFormed) {a b start : Target}
    (left : arena.TargetWithin a) (right : arena.TargetWithin b)
    (united : arena.union a b = .ok (joined, start)) (base : Arena) :
    (base.above arena).union (a.raise base.size) (b.raise base.size) =
      .ok (base.above joined, start.raise base.size) := by
  obtain ⟨middle, first, after, _, resolved, ran, _⟩ := Joining.settles formed left right
  have here : arena.union a b = .ok (after.arena, first) := by
    simp only [union, resolved, ran _ arena.pairs_le_pairBound, bind, Except.bind]
    rfl
  rw [united, Except.ok.injEq] at here
  obtain ⟨rfl, rfl⟩ := Prod.mk.inj here
  have blank : Joining.RaisesTo base { arena } { arena := base.above arena } :=
    ⟨rfl, by simp, rfl⟩
  obtain ⟨further, resolvedRaised, raised⟩ := blank.resolve resolved
  have more : arena.pairBound ≤ (base.above arena).pairBound := by
    unfold pairBound
    rw [size_above]
    exact max_le_max (Nat.mul_le_mul (Nat.le_add_left _ _) (Nat.le_add_left _ _)) (Nat.le_refl _)
  obtain ⟨last, ranRaised, raisedLast⟩ := raised.run (ran _ (arena.pairs_le_pairBound.trans more))
  simp only [union, resolvedRaised, ranRaised, bind, Except.bind]
  rw [raisedLast.arena]
  rfl

end ByteAutomata
