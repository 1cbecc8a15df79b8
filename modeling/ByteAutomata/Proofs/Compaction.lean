import ByteAutomata.Proofs.MirroredArenas
import ByteAutomata.Proofs.RootedArenas

/-!
Compaction.

Copying out what can be reached from a start is not observable: there is one state for each that can be reached, and
on every value both ways of running give the same list from the start and from its copy. Copying out once more
changes nothing. For this the copy must not have lost a step, which only a table with an empty range can.
-/

namespace ByteAutomata

/-- A table whose neighbouring ranges are apart stays the same where all targets keep their names. -/
theorem State.rename_of_kept (state : State) {name : Target → Target}
    (kept : ∀ target ∈ state.targets, name target = target) (apart : state.table.steps.IsChain (· ≠ ·)) :
    state.table.rename name = .ok state.table := by
  have unchanged {targets : List Target} (among : targets ⊆ state.targets) : targets.map name = targets :=
    (List.map_congr_left fun target listed => kept target (among listed)).trans (List.map_id targets)
  have steps := unchanged (List.subset_append_of_subset_left _ (List.subset_append_left state.table.steps _))
  have epsilons := unchanged
    (List.subset_append_of_subset_left _ (List.subset_append_right _ state.table.epsilons))
  have spinout := kept state.table.spinout (by simp [State.targets])
  rw [Table.rename_of_apart (steps.symm ▸ apart), Table.mapTargets, steps, epsilons, spinout]

namespace Arena

variable {arena copied : Arena} {start : StateId} {found : Discovery} {ids : List StateId}

namespace Extracted

theorem mirrors (extracted : arena.Extracted start copied found ids) (formed : arena.WellFormed) :
    copied.Mirrors arena (placeOf found) ids :=
  ⟨extracted.injOn_placeOf, extracted.copies_placeOf formed⟩

theorem bijOn_placeOf (extracted : arena.Extracted start copied found ids) :
    Set.BijOn (placeOf found) {id | id ∈ ids} (Set.Iio copied.size) := by
  have named (place : Nat) : place ∈ ids.map (placeOf found) ↔ place < copied.size := by
    rw [extracted.map_placeOf, List.mem_range]
  refine ⟨fun id listed => ?_, extracted.injOn_placeOf, fun place inside => ?_⟩
  · exact (named _).mp (List.mem_map_of_mem listed)
  · exact List.mem_map.mp ((named place).mpr inside)

/-- A table of a copy is a table that is packed or was left as it is, so its neighbouring ranges are apart. -/
theorem apart (extracted : arena.Extracted start copied found ids) {place : StateId} {state : State}
    (stored : copied.get? place = some state) : state.table.steps.IsChain (· ≠ ·) := by
  have at_ := List.getElem?_eq_getElem (extracted.size ▸ lt_size_of_get? stored)
  obtain ⟨_, copy, _, storedToo, _, named⟩ := extracted.copies place _ at_
  obtain rfl := Option.some.inj (stored.symm.trans storedToo)
  exact Table.apart_rename named

/-- Where states are discovered in the order in which they stand, copying them out copies the arena. -/
theorem eq_of_explores_range {again : Arena} (formed : arena.WellFormed)
    (extracted : arena.Extracted 0 again found (List.range arena.size))
    (apart : ∀ id state, arena.get? id = some state → state.table.steps.IsChain (· ≠ ·)) : again = arena := by
  have size : again.size = arena.size := by rw [extracted.size, List.length_range]
  have same (id : StateId) : again.get? id = arena.get? id := by
    by_cases inside : id < arena.size
    · obtain ⟨state, copy, stored, copied, copies, renamed⟩ := extracted.copies id id (List.getElem?_range inside)
      have kept : ∀ target ∈ state.targets, placeName found target = target := by
        intro target led
        cases target with
        | none => rfl
        | some next => exact extracted.placeName_eq (List.getElem?_range ((formed.fits stored).lt_of_mem_targets led))
      rw [state.rename_of_kept kept (apart id state stored), Except.ok.injEq] at renamed
      rw [copied, stored, Option.some.injEq, State.mk.injEq]
      exact ⟨renamed.symm, copies.continuations⟩
    · have outside : ¬ id < again.size := size.symm ▸ inside
      rw [get?, get?, Array.getElem?_eq_none (Nat.not_lt.mp outside), Array.getElem?_eq_none (Nat.not_lt.mp inside)]
  cases again
  cases arena
  exact congrArg Arena.mk (Array.ext_getElem? same)

/-- Copying out once more changes nothing. -/
theorem extract_copied (extracted : arena.Extracted start copied found ids) (formed : arena.WellFormed)
    (solid : ∀ id ∈ ids, ∀ state, arena.get? id = some state → state.table.Solid) :
    copied.extract (some 0) = .ok (copied, some 0) := by
  have formedCopy := extracted.formed formed
  obtain ⟨again, foundAgain, order, ran, extractedAgain⟩ := extract_some_eq formedCopy (extracted.within 0 rfl)
  obtain rfl := extractedAgain.explores.unique (extracted.explores_copied formed solid)
  rw [ran, extractedAgain.eq_of_explores_range formedCopy fun id state stored => extracted.apart stored]

end Extracted

/-- Copying out what can be reached never faults and leaves, under new names, exactly the states that can be reached,
with the start as the first. On every value each way of running gives the same list from the start and from its copy.
If the tables of these states are solid, every state of the copy can be reached from its first one and copying out
once more gives the same arena. -/
theorem extract_compacts (formed : arena.WellFormed) (inside : start < arena.size) :
    ∃ copied, arena.extract (some start) = .ok (copied, some 0) ∧ copied.WellFormed ∧
      (∃ rename, rename start = 0 ∧
        Set.BijOn rename {id | Relation.ReflTransGen (arena.Leads none) start id} (Set.Iio copied.size) ∧
        ∀ id, Relation.ReflTransGen (arena.Leads none) start id →
          ∃ state copy, arena.get? id = some state ∧ copied.get? (rename id) = some copy ∧
            state.RenamesTo rename copy) ∧
      ((∀ id, Relation.ReflTransGen (arena.Leads none) start id →
          ∀ state, arena.get? id = some state → state.table.Solid) →
        copied.Rooted ∧ copied.extract (some 0) = .ok (copied, some 0)) ∧
      ∀ (value : List UInt8) (found : List Continuation),
        (∀ closures closuresCopy frontiers frontiersCopy, closures.ValidFor arena → closuresCopy.ValidFor copied →
          frontiers.Valid → frontiersCopy.Valid → ∃ all left learnt leftCopy learntCopy,
            arena.sweep closures (some start) value frontiers found = .ok (all, left, learnt) ∧
            copied.sweep closuresCopy (some 0) value frontiersCopy found = .ok (all, leftCopy, learntCopy)) ∧
        ∃ all, arena.walk (some start) value found = .ok all ∧ copied.walk (some 0) value found = .ok all := by
  obtain ⟨copied, discovered, ids, ran, extracted⟩ := extract_some_eq formed inside
  have formedCopy := extracted.formed formed
  have reached (id : StateId) := extracted.explored.mem_iff id
  have mirrors := extracted.mirrors formed
  have first := List.mem_of_getElem? extracted.explored.first
  refine ⟨copied, ran, formedCopy, ⟨Extracted.placeOf discovered, extracted.placeOf_start, ?_, fun id reaches => ?_⟩,
    fun solid => ?_, fun value found => ⟨?_, ?_⟩⟩
  · simpa only [reached] using extracted.bijOn_placeOf
  · obtain ⟨state, copy, stored, storedCopy, renames, _⟩ := mirrors.copies id ((reached id).mpr reaches)
    exact ⟨state, copy, stored, storedCopy, renames⟩
  · have solidFound := fun id listed => solid id ((reached id).mp listed)
    exact ⟨extracted.rooted formed solidFound, extracted.extract_copied formed solidFound⟩
  · intro closures closuresCopy frontiers frontiersCopy known knownCopy valid validCopy
    rw [← extracted.placeOf_start]
    exact mirrors.sweep_eq formed formedCopy first known knownCopy valid validCopy value found
  · rw [← extracted.placeOf_start]
    exact mirrors.walk_eq formed formedCopy first value found

/-- A state with a table that is packed by copying, an unreachable one, and one that forwards to itself. -/
def adjoining : Arena :=
  ⟨#[{ table := { ceilings := [0, 0x61, 0x62, byteCeiling], steps := [none, some 2, some 2, none] } }, {},
    { table := { Table.single 0x63 (some 0) with epsilons := [some 2, some 0] }, continuations := [4, 9] }]⟩

theorem extract_compacts_adjoining :
    ∃ copied, adjoining.extract (some 2) = .ok (copied, some 0) ∧ copied.Rooted ∧
      copied.extract (some 0) = .ok (copied, some 0) ∧
      ∃ all left learnt leftCopy learntCopy,
        adjoining.sweep (.ofSize adjoining.size) (some 2) [0x63, 0x61] {} [9] = .ok (all, left, learnt) ∧
        copied.sweep (.ofSize copied.size) (some 0) [0x63, 0x61] {} [9] = .ok (all, leftCopy, learntCopy) := by
  obtain ⟨copied, ran, _, _, again, runs⟩ :=
    extract_compacts (by decide : adjoining.WellFormed) (by decide : 2 < adjoining.size)
  have solid : ∀ state ∈ adjoining.states, state.table.Solid := by decide
  obtain ⟨rooted, same⟩ := again fun id _ state stored => solid state (mem_states_iff.mpr ⟨id, stored⟩)
  exact ⟨copied, ran, rooted, same, (runs [0x63, 0x61] [9]).1 _ _ {} {} (ClosureCache.validFor_ofSize _)
    (ClosureCache.validFor_ofSize _) Frontiers.valid_empty Frontiers.valid_empty⟩

/-! ## A step of an empty range -/

/-- The step of the first range is never taken, and it is lost when the other two ranges are joined. -/
def neverTaken : Table where
  ceilings := [0, 1, byteCeiling]
  steps := [some 1, none, none]

def neverLeft : Arena := ⟨#[{ table := neverTaken }, {}]⟩

theorem targets_neverTaken : State.targets { table := neverTaken } = [some 1, none, none, none] := rfl

theorem targets_blank : State.targets {} = [none, none] := rfl

theorem rename_neverTaken {name : Target → Target} (nowhere : name none = none) (kept : name (some 1) = some 1) :
    neverTaken.rename name = .ok Table.empty := by
  have same : neverTaken.mapTargets name = neverTaken := by
    simp only [neverTaken, Table.mapTargets, List.map_cons, List.map_nil, nowhere, kept]
  rw [Table.rename_eq_coalesce, same]
  decide +kernel

theorem rename_empty {name : Target → Target} (nowhere : name none = none) :
    Table.empty.rename name = .ok Table.empty := by
  simp [Table.rename, Table.empty, Table.always, nowhere, pure, Except.pure]

/-- Copied out, a state with such a table leads nowhere, so the state that it led to is no longer reached and is
gone after the second time. -/
theorem extract_neverLeft :
    neverLeft.WellFormed ∧ ∃ copied again, neverLeft.extract (some 0) = .ok (copied, some 0) ∧ ¬ copied.Rooted ∧
      copied.extract (some 0) = .ok (again, some 0) ∧ again ≠ copied := by
  refine ⟨by decide, ⟨#[{}, {}]⟩, ⟨#[{}]⟩, ?_, fun rooted => ?_, ?_, by decide⟩
  · simp [extract, explore, exploreFrom, Discovery.add, Discovery.visit, neverLeft, targets_neverTaken, targets_blank,
      get, get?, size, bind, Except.bind, pure, Except.pure, rename_neverTaken, rename_empty,
      Std.HashMap.getElem_insert]
  · rcases Relation.ReflTransGen.cases_tail (rooted 1 (by decide)) with same | ⟨id, _, state, stored, led, _⟩
    · cases same
    · rcases id with _ | _ | id <;> simp [get?] at stored <;> simp [← stored, targets_blank] at led
  · simp [extract, explore, exploreFrom, Discovery.add, Discovery.visit, targets_blank, get, get?, size, bind,
      Except.bind, pure, Except.pure, rename_empty]

end Arena

end ByteAutomata
