import ByteAutomata.Proofs.DeterministicRun
import ByteAutomata.Proofs.DiscoveryOrder

/-!
Arenas in which every state can be reached.

Copying out what can be reached leaves states that are reached from the first one, unless packing a table drops
the step of an empty range. The subset construction leaves such states as well, for it names a set only when an
earlier one leads to it.
-/

namespace ByteAutomata

namespace Arena

/-- Every state can be reached from the first one. -/
def Rooted (arena : Arena) : Prop :=
  ∀ id < arena.size, Relation.ReflTransGen (arena.Leads none) 0 id

variable {arena copied dfa : Arena} {start : StateId} {found : Discovery} {ids : List StateId}

theorem leads_of_leadsTo {size : Nat} {id next : StateId} {state : State} (found : arena.get? id = some state)
    (fits : state.Fits size) (leads : state.LeadsTo next) : arena.Leads none id next :=
  ⟨state, found, leads.mem_targets fits, by simp⟩

/-! ## Copies of what can be reached -/

theorem Extracted.packed (extracted : arena.Extracted start copied found ids) (packed : arena.Packed) :
    copied.Packed := by
  intro place copy stored
  have bound : place < ids.length := extracted.size ▸ lt_size_of_get? stored
  obtain ⟨state, other, there, stored', _, renamed⟩ :=
    extracted.copies place _ (List.getElem?_eq_getElem bound)
  rw [stored, Option.some.injEq] at stored'
  subst stored'
  exact (packed _ state there).rename renamed

theorem Extracted.rooted (extracted : arena.Extracted start copied found ids) (formed : arena.WellFormed)
    (solid : ∀ id ∈ ids, ∀ state, arena.get? id = some state → state.table.Solid) : copied.Rooted := by
  have explored := (extracted.explores_copied formed solid).explored_start (extracted.formed formed)
    (extracted.within 0 rfl)
  exact fun id inside => (explored.mem_iff id).mp (List.mem_range.mpr inside)

/-! ## Sets that are active together -/

theorem Follows.unique {nfa : Arena} {members first second : StateSet} {byte : UInt8}
    (left : nfa.Follows members byte first) (right : nfa.Follows members byte second) : first = second := by
  refine List.Perm.eq_of_pairwise (fun _ _ _ _ before behind => absurd before (Nat.lt_asymm behind))
    left.ascends right.ascends ?_
  refine (List.perm_ext_iff_of_nodup (left.ascends.imp Nat.ne_of_lt) (right.ascends.imp Nat.ne_of_lt)).mpr
    fun id => ?_
  rw [left.mem_iff, right.mem_iff]

theorem Names.rooted {nfa : Arena} {names : List StateSet} (named : dfa.Names nfa start names) :
    dfa.Rooted := by
  intro place
  induction place using Nat.strong_induction_on with
  | _ place ih =>
    intro inside
    rw [named.size] at inside
    have at_ := List.getElem?_eq_getElem inside
    rcases named.arisen place _ at_ with rfl | ⟨active, source, listed, byte, below, follows⟩
    · exact .refl
    · obtain ⟨earlier, there⟩ := List.mem_iff_getElem?.mp listed
      rw [List.getElem?_take] at there
      split at there
      · rename_i before
        obtain ⟨state, stored, fills⟩ := named.filled earlier source there
        obtain ⟨reached, followsToo, ⟨_, empty⟩ | ⟨_, aim, led, placed⟩⟩ := fills.leads byte below
        · exact absurd ((follows.unique followsToo).trans empty) active
        · rw [← follows.unique followsToo, ← at_] at placed
          have bound : aim < names.length :=
            (List.getElem?_eq_some_iff.mp (placed.trans at_)).1
          obtain rfl := (List.getElem?_inj bound named.distinct).mp placed
          refine (ih earlier before ?_).tail (leads_of_leadsTo stored (named.formed.fits stored)
            (Or.inl ⟨byte, led⟩))
          exact lt_size_of_get? stored
      · cases there

/-- States move by byte steps alone. -/
def Direct (arena : Arena) : Prop :=
  ∀ id state, arena.get? id = some state → state.table.epsilons = [] ∧ state.table.spinout = none

theorem direct_empty : ({} : Arena).Direct := fun id state found => by simp [get?] at found

theorem Direct.pushEmpty (direct : arena.Direct) : arena.pushEmpty.1.Direct := by
  intro id state found
  change (arena.push {}).1.get? id = some state at found
  rw [get?_push] at found
  split at found
  · cases found
    exact ⟨rfl, rfl⟩
  · exact direct id state found

theorem Direct.put (direct : arena.Direct) (id : StateId) {state : State} (silent : state.table.epsilons = [])
    (still : state.table.spinout = none) : (arena.put id state).Direct := by
  intro other held found
  by_cases same : id = other
  · subst same
    rw [get?_put_self (size_put arena id state ▸ lt_size_of_get? found), Option.some.injEq] at found
    exact found ▸ ⟨silent, still⟩
  · rw [get?_put_of_ne _ _ same] at found
    exact direct other held found

end Arena

/-! ## Tables of deterministic automata -/

namespace Subsets

variable {nfa : Arena} {budget : Option Nat} {members : StateSet} {subsets after : Subsets} {kept : Arena → Prop}
  {runs filled : List (UInt8 × Target)} {id : StateId}

/-- What empty states do not break is kept when a set is named. -/
theorem kept_of_name (pushes : ∀ arena, kept arena → kept arena.pushEmpty.1) {reached : StateSet}
    {target : Target} (named : subsets.name budget reached = some (after, target)) (holds : kept subsets.arena) :
    kept after.arena := by
  unfold Subsets.name at named
  split at named
  · cases named
    exact holds
  · split at named
    · cases named
      exact holds
    · split at named
      · cases named
      · cases named
        exact pushes _ holds

/-- One range after another names a set and makes a run. -/
theorem exists_of_fillRanges_cons {floor ceiling : UInt8} {rest : List UInt8}
    (ran : fillRanges nfa budget members floor runs (ceiling :: rest) subsets = .ok (some (after, filled))) :
    ∃ moves reached closures middle target, nfa.moves floor members = .ok moves ∧
      subsets.closures.closeAll nfa moves = .ok (reached, closures) ∧
      { subsets with closures }.name budget reached = some (middle, target) ∧
      fillRanges nfa budget members ceiling (Table.extendRuns ceiling target runs) rest middle =
        .ok (some (after, filled)) := by
  obtain ⟨moves, moved, ran⟩ := Checked.exists_of_bind_eq_ok ran
  obtain ⟨⟨reached, closures⟩, closed, ran⟩ := Checked.exists_of_bind_eq_ok ran
  dsimp only at ran
  cases named : Subsets.name budget { subsets with closures } reached with
  | none =>
    rw [named] at ran
    cases ran
  | some result =>
    rw [named] at ran
    exact ⟨moves, reached, closures, result.1, result.2, moved, closed, named, ran⟩

theorem kept_of_fillRanges (pushes : ∀ arena, kept arena → kept arena.pushEmpty.1) (holds : kept subsets.arena)
    {floor : UInt8} {rest : List UInt8}
    (ran : fillRanges nfa budget members floor runs rest subsets = .ok (some (after, filled))) :
    kept after.arena := by
  induction rest generalizing floor runs subsets with
  | nil =>
    cases ran
    exact holds
  | cons ceiling rest ih =>
    obtain ⟨_, _, closures, middle, _, _, _, named, ran⟩ := exists_of_fillRanges_cons ran
    exact ih (kept_of_name pushes named holds) ran

theorem packedRuns_of_fillRanges {floor : UInt8} (built : Table.PackedRuns runs) {rest : List UInt8}
    (positive : 0 ∉ rest)
    (ran : fillRanges nfa budget members floor runs rest subsets = .ok (some (after, filled))) :
    Table.PackedRuns filled := by
  induction rest generalizing floor runs subsets with
  | nil =>
    cases ran
    exact built
  | cons ceiling rest ih =>
    rw [List.mem_cons, not_or] at positive
    obtain ⟨_, _, _, _, target, _, _, _, ran⟩ := exists_of_fillRanges_cons ran
    exact ih (built.extend (Ne.symm positive.1) target) positive.2 ran

theorem zero_not_mem_ceilings {states : List State} (packed : ∀ state ∈ states, state.table.Packed) :
    0 ∉ ceilings states := by
  rw [mem_ceilings]
  rintro (⟨state, listed, cuts⟩ | terminator | last)
  · exact (packed state listed).positive cuts
  · cases terminator
  · cases last

/-- The set is filled with the runs that its ranges make. -/
theorem exists_of_fill (ran : fill nfa budget id members subsets = .ok (some after)) :
    ∃ states middle filled, (members.mapM fun member => nfa.get member) = .ok states ∧
      fillRanges nfa budget members 0 [] (ceilings states) subsets = .ok (some (middle, filled)) ∧
      after = { middle with
        arena := middle.arena.put id
          { table := Table.empty.withRuns filled.reverse
            continuations := states.foldl (addMissing · ·.continuations) [] } } := by
  obtain ⟨states, gotten, ran⟩ := Checked.exists_of_bind_eq_ok ran
  obtain ⟨result, ranges, ran⟩ := Checked.exists_of_bind_eq_ok ran
  cases result with
  | none => cases ran
  | some result =>
    cases ran
    exact ⟨states, result.1, result.2, gotten, ranges, rfl⟩

theorem direct_of_fill (ran : fill nfa budget id members subsets = .ok (some after))
    (direct : subsets.arena.Direct) : after.arena.Direct := by
  obtain ⟨states, middle, filled, _, ranges, rfl⟩ := exists_of_fill ran
  exact (kept_of_fillRanges (fun _ => Arena.Direct.pushEmpty) direct ranges).put id rfl rfl

theorem packed_of_fill (packed : nfa.Packed) (ran : fill nfa budget id members subsets = .ok (some after))
    (kept : subsets.arena.Packed) : after.arena.Packed := by
  obtain ⟨states, middle, filled, gotten, ranges, rfl⟩ := exists_of_fill ran
  have positive : 0 ∉ ceilings states := zero_not_mem_ceilings fun state listed => by
    obtain ⟨member, _, found⟩ := Checked.exists_item_of_mapM gotten listed
    exact packed member state (Arena.get_eq_ok_iff.mp found)
  exact (kept_of_fillRanges (fun _ => Arena.Packed.pushEmpty) kept ranges).put id
    ((packedRuns_of_fillRanges Table.packedRuns_nil positive ranges).withRuns _)

/-- What a round keeps is kept. -/
theorem kept_of_run
    (fills : ∀ {subsets after id members}, fill nfa budget id members subsets = .ok (some after) →
      kept subsets.arena → kept after.arena)
    {rounds : Nat} (ran : run nfa budget rounds subsets = .ok (some after)) (holds : kept subsets.arena) :
    kept after.arena := by
  induction rounds generalizing subsets with
  | zero =>
    cases ran
    exact holds
  | succ rounds ih =>
    cases pending : subsets.pending with
    | nil =>
      simp only [Subsets.run, pending] at ran
      cases ran
      exact holds
    | cons first rest =>
      simp only [Subsets.run, pending] at ran
      obtain ⟨result, done, ran⟩ := Checked.exists_of_bind_eq_ok ran
      cases result with
      | none => cases ran
      | some middle => exact ih ran (fills done holds)

end Subsets

namespace Arena

variable {nfa : Arena} {dfaStart : Target} {budget : Option Nat} {kept : Arena → Prop}

/-- What empty states and rounds keep holds of the deterministic automaton. -/
theorem kept_of_determinize (blank : kept {}) (pushes : ∀ arena, kept arena → kept arena.pushEmpty.1)
    (fills : ∀ {subsets after id members}, Subsets.fill nfa budget id members subsets = .ok (some after) →
      kept subsets.arena → kept after.arena)
    {start : Target} (made : nfa.determinize start budget = .ok (some (dfa, dfaStart))) : kept dfa := by
  cases start with
  | none =>
    cases made
    exact blank
  | some id =>
    obtain ⟨⟨closure, closures⟩, _, made⟩ := Checked.exists_of_bind_eq_ok made
    obtain ⟨subsets, ran, made⟩ := Checked.exists_of_bind_eq_ok made
    cases subsets with
    | none => cases made
    | some after =>
      cases made
      exact Subsets.kept_of_run fills ran (pushes _ blank)

theorem direct_determinize {start : Target} (made : nfa.determinize start budget = .ok (some (dfa, dfaStart))) :
    dfa.Direct :=
  kept_of_determinize direct_empty (fun _ => Direct.pushEmpty) Subsets.direct_of_fill made

/-- A deterministic automaton made from packed tables has packed tables and moves by byte steps alone. -/
theorem Packed.determinize (packed : nfa.Packed) {start : Target}
    (made : nfa.determinize start budget = .ok (some (dfa, dfaStart))) : dfa.Packed ∧ dfa.Direct :=
  ⟨kept_of_determinize packed_empty (fun _ => Packed.pushEmpty) (Subsets.packed_of_fill packed) made,
    direct_determinize made⟩

end Arena

end ByteAutomata
