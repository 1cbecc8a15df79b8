import ByteAutomata.Proofs.Checked
import ByteAutomata.Proofs.EpsilonClosure
import ByteAutomata.Proofs.Naming
import ByteAutomata.SubsetConstruction

/-!
Sets of states that are active together.

A set is an ascending list, so two lists of the same states are one set and an arena has no more sets
of states than subsets. Behind a byte stand the closures of all moves of the members.
-/

namespace ByteAutomata

/-! ## Sets of states -/

/-- The list is the set of exactly these states. -/
structure StateSet.Holds (set : StateSet) (member : StateId → Prop) : Prop where
  ascends : set.Pairwise (· < ·)
  mem_iff : ∀ id, id ∈ set ↔ member id

theorem StateSet.holds_ofList (ids : List StateId) : (StateSet.ofList ids).Holds (· ∈ ids) where
  ascends := (sorted_ascends ids).1
  mem_iff := (sorted_ascends ids).2

theorem StateSet.Holds.congr {set : StateSet} {member other : StateId → Prop}
    (holds : set.Holds member) (same : ∀ id, member id ↔ other id) : set.Holds other where
  ascends := holds.ascends
  mem_iff := fun id => (holds.mem_iff id).trans (same id)

/-- The set lists states below a bound in ascending order. -/
structure StateSet.Proper (size : Nat) (set : StateSet) : Prop where
  ascends : set.Pairwise (· < ·)
  inside : ∀ id ∈ set, id < size

/-- There are no more sets of states than subsets. -/
theorem length_le_of_proper {size : Nat} {sets : List StateSet} (distinct : sets.Nodup)
    (proper : ∀ set ∈ sets, set.Proper size) : sets.length ≤ 2 ^ size := by
  have injective : Set.InjOn (List.toFinset : StateSet → Finset StateId) {set | set ∈ sets} := by
    intro left leftListed right rightListed same
    refine List.Perm.eq_of_pairwise (fun a b _ _ ab ba => absurd ab (Nat.lt_asymm ba))
      (proper left leftListed).ascends (proper right rightListed).ascends ?_
    exact List.perm_of_nodup_nodup_toFinset_eq (proper left leftListed).ascends.nodup
      (proper right rightListed).ascends.nodup same
  have within : (sets.map List.toFinset).toFinset ⊆ (Finset.range size).powerset := by
    intro subset listed
    obtain ⟨set, member, rfl⟩ := List.mem_map.mp (List.mem_toFinset.mp listed)
    rw [Finset.mem_powerset]
    intro id held
    exact Finset.mem_range.mpr ((proper set member).inside id (List.mem_toFinset.mp held))
  calc sets.length = (sets.map List.toFinset).length := by rw [List.length_map]
    _ = (sets.map List.toFinset).toFinset.card := by
      refine (List.toFinset_card_of_nodup ?_).symm
      exact List.Nodup.map_on (fun left l right r same => injective l r same) distinct
    _ ≤ (Finset.range size).powerset.card := Finset.card_le_card within
    _ = 2 ^ size := by rw [Finset.card_powerset, Finset.card_range]

/-! ## One byte -/

/-- The set is what is active after the byte, when the members were active before. -/
def Arena.Follows (arena : Arena) (members : StateSet) (byte : UInt8) (reached : StateSet) : Prop :=
  reached.Holds fun id => ∃ member ∈ members, ∃ next, arena.Moves byte member next ∧
    id ∈ arena.closure next

/-- The states that are active behind a byte are states of the arena. -/
theorem Arena.Follows.proper {arena : Arena} (formed : arena.WellFormed) {members reached : StateSet} {byte : UInt8}
    (follows : arena.Follows members byte reached) : reached.Proper arena.size := by
  refine ⟨follows.ascends, fun id listed => ?_⟩
  obtain ⟨member, _, next, moves, within⟩ := (follows.mem_iff id).mp listed
  exact lt_of_mem_closure formed (formed.lt_of_moves moves) within

theorem Arena.moves_eq {arena : Arena} (formed : arena.WellFormed) (byte : UInt8)
    {members : StateSet} (inside : ∀ id ∈ members, id < arena.size) :
    ∃ ids, arena.moves byte members = .ok ids ∧
      ∀ next, next ∈ ids ↔ ∃ member ∈ members, arena.Moves byte member next := by
  have each : ∀ member ∈ members, ∃ nexts : List StateId,
      (do
        let table := (← arena.get member).table
        let step ← table.step byte
        let spinout := if byte = valueTerminator then none else table.spinout
        let self := if table.epsilons.contains (some member) then some member else none
        return step.toList ++ spinout.toList ++ self.toList : Checked (List StateId)) = .ok nexts ∧
      ∀ next, next ∈ nexts ↔ arena.Moves byte member next := by
    intro member listed
    obtain ⟨state, found⟩ := exists_get? (inside member listed)
    simp only [get_of_get? found, bind, Except.bind,
      Table.step_eq_lookup (formed.fits found).table, pure, Except.pure]
    refine ⟨_, rfl, fun next => ?_⟩
    have here : arena.Moves byte member next ↔ state.MovesTo member byte next := by
      constructor
      · rintro ⟨other, stored, move⟩
        rw [found, Option.some.injEq] at stored
        exact stored ▸ move
      · exact fun move => ⟨state, found, move⟩
    rw [here]
    by_cases last : byte = valueTerminator <;>
      by_cases self : some member ∈ state.table.epsilons <;>
        simp [State.MovesTo, last, self, eq_comm]
  obtain ⟨lists, computed, related⟩ := Checked.mapM_eq_ok _ each
  refine ⟨lists.flatten, ?_, fun next => ?_⟩
  · simp only [Arena.moves]
    rw [computed]
    rfl
  · rw [List.mem_flatten]
    constructor
    · rintro ⟨nexts, listed, member⟩
      obtain ⟨origin, active, same⟩ := Checked.exists_item_of_mem related listed
      exact ⟨origin, active, (same next).mp member⟩
    · rintro ⟨origin, active, moves⟩
      obtain ⟨nexts, listed, same⟩ := Checked.exists_result_of_mem related active
      exact ⟨nexts, listed, (same next).mpr moves⟩

namespace ClosureCache.ValidFor

variable {cache : ClosureCache} {arena : Arena}

theorem closures (valid : cache.ValidFor arena) (formed : arena.WellFormed) {ids : List StateId}
    (inside : ∀ id ∈ ids, id < arena.size) :
    ∃ after, cache.closures arena ids = .ok (ids.flatMap arena.closure, after) ∧
      after.ValidFor arena := by
  induction ids generalizing cache with
  | nil => exact ⟨cache, rfl, valid⟩
  | cons id rest ih =>
    obtain ⟨middle, got, validMiddle⟩ := valid.get formed (inside id List.mem_cons_self)
    obtain ⟨after, computed, validAfter⟩ :=
      ih validMiddle fun other member => inside other (List.mem_cons_of_mem _ member)
    refine ⟨after, ?_, validAfter⟩
    simp only [ClosureCache.closures, got, bind, Except.bind, computed, List.flatMap_cons]
    rfl

/-- The set behind a byte can be computed. -/
theorem closeAll_moves (valid : cache.ValidFor arena) (formed : arena.WellFormed) (byte : UInt8)
    {members : StateSet} (inside : ∀ id ∈ members, id < arena.size) :
    ∃ ids reached after, arena.moves byte members = .ok ids ∧
      cache.closeAll arena ids = .ok (reached, after) ∧ after.ValidFor arena ∧
      arena.Follows members byte reached := by
  obtain ⟨ids, moved, exactly⟩ := Arena.moves_eq formed byte inside
  have within : ∀ id ∈ ids, id < arena.size := by
    intro id listed
    obtain ⟨member, _, moves⟩ := (exactly id).mp listed
    exact formed.lt_of_moves moves
  obtain ⟨after, computed, validAfter⟩ := valid.closures formed within
  refine ⟨ids, _, after, moved, ?_, validAfter,
    (StateSet.holds_ofList (ids.flatMap arena.closure)).congr fun id => ?_⟩
  · simp only [closeAll, computed, bind, Except.bind]
    rfl
  · simp only [List.mem_flatMap, exactly]
    grind

end ClosureCache.ValidFor

end ByteAutomata
