import ByteAutomata.Proofs.Checked
import ByteAutomata.Proofs.Exploring
import ByteAutomata.Proofs.OpenArenas

/-!
Copying out the reachable part of an arena.

The copy of a state is its position in the order of discovery. All targets of a reachable state are
reachable, so the copy loses none of them, and it reports on every value what the original does.
-/

namespace ByteAutomata.Arena

variable {arena : Arena} {start id next : StateId} {ids : List StateId}

/-- Without a state to avoid, all targets of a state that was found are found. -/
theorem Explored.mem_of_target (explored : arena.Explored start none ids) (listed : id ∈ ids)
    {state : State} (found : arena.get? id = some state) (target : some next ∈ state.targets) :
    next ∈ ids :=
  (explored.mem_iff next).mpr
    (((explored.mem_iff id).mp listed).tail ⟨state, found, target, by simp⟩)

/-- Where a target stands in the order of discovery. -/
def placeName (found : Discovery) (target : Target) : Target := target.bind (found.position[·]?)

/-- An arena that holds, in the order of discovery, copies of the states reachable from another's state. -/
structure Extracted (arena : Arena) (start : StateId) (copied : Arena) (found : Discovery)
    (ids : List StateId) : Prop where
  lists : found.Lists ids
  explores : arena.Explores none 0 [start] ids
  explored : arena.Explored start none ids
  size : copied.size = ids.length
  copies : ∀ place id, ids[place]? = some id → ∃ state copy, arena.get? id = some state ∧
    copied.get? place = some copy ∧ state.Copies (placeName found) copy ∧
      state.table.rename (placeName found) = .ok copy.table

/-- Extracting never faults. -/
theorem extract_some_eq (formed : arena.WellFormed) (inside : start < arena.size) :
    ∃ copied found ids, arena.extract (some start) = .ok (copied, some 0) ∧
      arena.Extracted start copied found ids := by
  obtain ⟨found, ids, ran, lists, explores⟩ := explore_explores formed inside none
  have explored := explores.explored_start formed inside
  have each : ∀ id ∈ found.order.toList, ∃ copy : State,
      (do
        let state ← arena.get id
        return { state with table := ← state.table.rename (placeName found) } : Checked State) =
          .ok copy ∧
      ∃ state, arena.get? id = some state ∧ state.Copies (placeName found) copy ∧
        state.table.rename (placeName found) = .ok copy.table := by
    intro id listed
    rw [lists.order] at listed
    obtain ⟨state, stored⟩ := exists_get? (explored.inside id listed)
    obtain ⟨table, renamed, copies⟩ :=
      (formed.fits stored).copies (placeName found) rfl state.continuations rfl
    refine ⟨_, ?_, state, stored, copies, renamed⟩
    simp only [get_of_get? stored, renamed, bind, Except.bind]
    rfl
  obtain ⟨copies, computed, related⟩ := Checked.mapM_eq_ok _ each
  have whole := Checked.mapM_toArray computed
  rw [lists.order] at related
  have first : placeName found (some start) = some 0 := (lists.place_iff 0).mpr explored.first
  refine ⟨⟨copies.toArray⟩, found, ids, ?_, lists, explores, explored, ?_, fun place id at_ => ?_⟩
  · have unfolded : arena.extract (some start) =
        (do
          let states ← found.order.mapM fun id => do
            let state ← arena.get id
            return { state with table := ← state.table.rename (placeName found) }
          return (⟨states⟩, placeName found (some start))) := by
      simp only [extract, ran]
      rfl
    rw [unfolded, whole, first]
    rfl
  · simp [Arena.size, related.length_eq]
  · obtain ⟨copy, stored, state, found, copies⟩ := Checked.getElem?_of_related related at_
    exact ⟨state, copy, found, by simpa [Arena.get?] using stored, copies⟩

namespace Extracted

variable {copied : Arena} {found : Discovery}

theorem placeName_eq (extracted : arena.Extracted start copied found ids) {place : Nat}
    (at_ : ids[place]? = some id) : placeName found (some id) = some place :=
  (extracted.lists.place_iff place).mpr at_

theorem exists_place (extracted : arena.Extracted start copied found ids) (listed : id ∈ ids) :
    ∃ place, ids[place]? = some id ∧ placeName found (some id) = some place := by
  obtain ⟨place, at_⟩ := List.mem_iff_getElem?.mp listed
  exact ⟨place, at_, extracted.placeName_eq at_⟩

theorem formed (extracted : arena.Extracted start copied found ids) (formed : arena.WellFormed) :
    copied.WellFormed := by
  rw [wellFormed_iff]
  intro place copy stored
  have bound : place < ids.length := extracted.size ▸ lt_size_of_get? stored
  have at_ := List.getElem?_eq_getElem bound
  obtain ⟨state, other, there, stored', copies, _⟩ := extracted.copies place _ at_
  rw [stored, Option.some.injEq] at stored'
  subst stored'
  refine copies.fits rfl (formed.fits there) fun next target => ?_
  have listed := extracted.explored.mem_of_target (List.mem_of_getElem? at_) there target
  obtain ⟨aim, at_, named⟩ := extracted.exists_place listed
  exact ⟨aim, extracted.size.symm ▸ (List.getElem?_eq_some_iff.mp at_).1, named⟩

theorem within (extracted : arena.Extracted start copied found ids) : copied.TargetWithin (some 0) := by
  intro id same
  rw [← Option.some.inj same, extracted.size]
  exact (List.getElem?_eq_some_iff.mp extracted.explored.first).1

/-- The name of a copy. -/
def placeOf (found : Discovery) (id : StateId) : StateId := (placeName found (some id)).getD 0

theorem placeOf_eq (extracted : arena.Extracted start copied found ids) {place : Nat}
    (at_ : ids[place]? = some id) : placeOf found id = place := by
  rw [placeOf, extracted.placeName_eq at_, Option.getD_some]

theorem placeName_eq_placeOf (extracted : arena.Extracted start copied found ids) (listed : id ∈ ids) :
    placeName found (some id) = some (placeOf found id) := by
  obtain ⟨place, at_, named⟩ := extracted.exists_place listed
  rw [named, extracted.placeOf_eq at_]

theorem placeOf_start (extracted : arena.Extracted start copied found ids) : placeOf found start = 0 :=
  extracted.placeOf_eq extracted.explored.first

theorem injOn_placeOf (extracted : arena.Extracted start copied found ids) :
    Set.InjOn (placeOf found) {id | id ∈ ids} := by
  intro id listed other listedToo same
  obtain ⟨place, at_, _⟩ := extracted.exists_place listed
  obtain ⟨further, there, _⟩ := extracted.exists_place listedToo
  rw [extracted.placeOf_eq at_, extracted.placeOf_eq there] at same
  subst same
  exact Option.some.inj (at_.symm.trans there)

/-- What was found is copied with its targets renamed, and they were found as well. -/
theorem copies_placeOf (extracted : arena.Extracted start copied found ids) (formed : arena.WellFormed) :
    ∀ id ∈ ids, ∃ state copy, arena.get? id = some state ∧ copied.get? (placeOf found id) = some copy ∧
      state.RenamesTo (placeOf found) copy ∧ ∀ next, state.LeadsTo next → next ∈ ids := by
  intro id listed
  obtain ⟨place, at_, _⟩ := extracted.exists_place listed
  obtain ⟨state, copy, stored, storedCopy, copies, _⟩ := extracted.copies place id at_
  have fits := formed.fits stored
  have leads (next : StateId) (leads : state.LeadsTo next) : next ∈ ids :=
    extracted.explored.mem_of_target listed stored (leads.mem_targets fits)
  exact ⟨state, copy, stored, (extracted.placeOf_eq at_).symm ▸ storedCopy,
    copies.renamesTo rfl fits fun next led => extracted.placeName_eq_placeOf (leads next led), leads⟩

/-- The copy yields what the original does. -/
theorem yields_iff (extracted : arena.Extracted start copied found ids) (formed : arena.WellFormed)
    (read : List UInt8) (x : Continuation) : copied.Yields x 0 read ↔ arena.Yields x start read := by
  rw [← extracted.placeOf_start]
  refine (yields_iff_of_renamed (placeOf found) (· ∈ ids) (fun _ => False) (fun id listed => ?_)
    (fun _ outside => outside.elim) (List.mem_of_getElem? extracted.explored.first) read).symm
  obtain ⟨state, copy, stored, storedCopy, renames, leads⟩ := extracted.copies_placeOf formed id listed
  exact ⟨state, copy, stored, storedCopy, renames, fun next led =>
    ⟨Or.inl (leads next led), fun same => extracted.injOn_placeOf (leads next led) listed same⟩⟩

/-- The copy reports what the original does. -/
theorem reports_iff (extracted : arena.Extracted start copied found ids) (formed : arena.WellFormed)
    (value : List UInt8) (x : Continuation) :
    copied.Reports (some 0) value x ↔ arena.Reports (some start) value x := by
  rw [reports_some_iff, reports_some_iff]
  exact exists_congr fun read => and_congr_right fun _ => extracted.yields_iff formed read x

end Extracted

end ByteAutomata.Arena
