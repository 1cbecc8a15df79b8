import ByteAutomata.Run
import ByteAutomata.Proofs.RunLists
import ByteAutomata.Proofs.SparseSets

/-!
A run by frontier reports what the automaton yields.

Each part of a run adds states to the next frontier and continuations to those found. `Grows` lists
them in the order in which they are met, repetitions included, and says what a part leaves alone; parts
that follow one another add what each of them adds. One byte of a run is then one move of the members
of the closures, and a whole run is an induction on the bytes that remain.
-/

namespace ByteAutomata

namespace Sweep

/-- Frontiers have room for the arena, closures are right, and `seen` lists what was found. -/
structure Ready (arena : Arena) (sweep : Sweep) : Prop where
  current : sweep.frontiers.current.Valid
  next : sweep.frontiers.next.Valid
  currentRoom : arena.size ≤ sweep.frontiers.current.capacity
  nextRoom : arena.size ≤ sweep.frontiers.next.capacity
  currentInside : ∀ id ∈ sweep.frontiers.current.toList, id < arena.size
  nextInside : ∀ id ∈ sweep.frontiers.next.toList, id < arena.size
  closures : sweep.closures.ValidFor arena
  seen : ∀ x, sweep.seen.contains x = true ↔ x ∈ sweep.found.toList

/-- From one point of a run to a later one before the frontiers change over: the continuations in
`reported` are found unless they were before, and the states in `entered` are active next. -/
structure Grows (arena : Arena) (before after : Sweep) (reported : List Continuation)
    (entered : List StateId) : Prop where
  ready : after.Ready arena
  current : after.frontiers.current = before.frontiers.current
  next : after.frontiers.next.toList = addMissing before.frontiers.next.toList entered
  found : after.found.toList = addMissing before.found.toList reported

namespace Grows

variable {arena : Arena} {before middle after : Sweep} {reported reported' : List Continuation}
  {entered entered' : List StateId}

theorem refl (ready : before.Ready arena) : Grows arena before before [] [] where
  ready := ready
  current := rfl
  next := rfl
  found := rfl

theorem trans (first : Grows arena before middle reported entered)
    (second : Grows arena middle after reported' entered') :
    Grows arena before after (reported ++ reported') (entered ++ entered') where
  ready := second.ready
  current := second.current.trans first.current
  next := by rw [second.next, first.next, addMissing_append]
  found := by rw [second.found, first.found, addMissing_append]

/-- A loop over steps that each grow a run grows it by what all of them add. -/
theorem foldlM {α : Type} {items : List α} {step : Sweep → α → Checked Sweep}
    {reports : α → List Continuation} {enters : α → List StateId} (ready : before.Ready arena)
    (steps : ∀ sweep, sweep.Ready arena → ∀ item ∈ items,
      ∃ after, step sweep item = .ok after ∧
        Grows arena sweep after (reports item) (enters item)) :
    ∃ after, items.foldlM step before = .ok after ∧
      Grows arena before after (items.flatMap reports) (items.flatMap enters) := by
  induction items generalizing before with
  | nil => exact ⟨before, rfl, refl ready⟩
  | cons item items ih =>
    obtain ⟨middle, stepped, first⟩ := steps before ready item List.mem_cons_self
    obtain ⟨after, folded, second⟩ := ih first.ready (fun sweep ready other member =>
      steps sweep ready other (List.mem_cons_of_mem _ member))
    refine ⟨after, ?_, first.trans second⟩
    rw [List.foldlM_cons, stepped]
    exact folded

end Grows

variable {arena : Arena} {sweep : Sweep}

/-! ## Parts of a byte -/

theorem report_grows (ready : sweep.Ready arena) (x : Continuation) :
    Grows arena sweep (sweep.report x) [x] [] := by
  by_cases known : sweep.seen.contains x = true
  · rw [report, if_pos known]
    exact ⟨ready, rfl, rfl, by rw [addMissing_singleton, if_pos ((ready.seen x).mp known)]⟩
  · rw [report, if_neg known]
    have absent : x ∉ sweep.found.toList := fun listed => known ((ready.seen x).mpr listed)
    refine ⟨{ ready with seen := ?_ }, rfl, rfl, ?_⟩
    · intro y
      rw [Std.HashSet.contains_insert, Bool.or_eq_true, ready.seen, Array.toList_push,
        List.mem_append, List.mem_singleton, beq_iff_eq]
      grind
    · rw [addMissing_singleton, if_neg absent, Array.toList_push]

theorem reportAll_grows (ready : sweep.Ready arena) (continuations : List Continuation) :
    Grows arena sweep (continuations.foldl report sweep) continuations [] := by
  induction continuations generalizing sweep with
  | nil => exact Grows.refl ready
  | cons x rest ih =>
    have first := report_grows ready x
    exact first.trans (ih first.ready)

theorem enter_grows (ready : sweep.Ready arena) (target : Target)
    (inside : ∀ id, target = some id → id < arena.size) :
    ∃ after, sweep.enter target = .ok after ∧ Grows arena sweep after [] target.toList := by
  cases target with
  | none => exact ⟨sweep, rfl, Grows.refl ready⟩
  | some id =>
    have room : id < sweep.frontiers.next.capacity := lt_of_lt_of_le (inside id rfl) ready.nextRoom
    obtain ⟨next, inserted, valid, capacity, members⟩ := ready.next.insert_eq room
    have listed : next.toList = addMissing sweep.frontiers.next.toList [id] := by
      rw [members, addMissing_singleton]
    refine ⟨{ sweep with frontiers := { sweep.frontiers with next } }, ?_, ?_⟩
    · simp only [enter, inserted, bind, Except.bind, pure, Except.pure]
    · refine ⟨{ ready with next := valid, nextRoom := ?_, nextInside := ?_ }, rfl, listed, rfl⟩
      · exact capacity.symm ▸ ready.nextRoom
      · intro other member
        rw [listed, mem_addMissing, List.mem_singleton] at member
        rcases member with old | same
        · exact ready.nextInside other old
        · exact same ▸ inside id rfl

theorem closure_grows (ready : sweep.Ready arena) (formed : arena.WellFormed) {id : StateId}
    (inside : id < arena.size) :
    ∃ after, sweep.closure arena id = .ok (arena.closure id, after) ∧
      Grows arena sweep after [] [] := by
  obtain ⟨closures, computed, valid⟩ := ready.closures.get formed inside
  refine ⟨{ sweep with closures }, ?_, ⟨{ ready with closures := valid }, rfl, rfl, rfl⟩⟩
  simp only [closure, computed, bind, Except.bind, pure, Except.pure]

/-- Expanding a state reports what it holds and enters what it moves to. -/
theorem expand_grows (ready : sweep.Ready arena) (formed : arena.WellFormed) (byte : UInt8)
    {member : StateId} (inside : member < arena.size) :
    ∃ after, expand arena byte sweep member = .ok after ∧
      Grows arena sweep after (arena.heldBy member) (arena.movesFrom byte member) := by
  obtain ⟨state, found⟩ := Arena.exists_get? inside
  have fits := formed.fits found
  rw [Arena.heldBy_of_get? found, Arena.movesFrom_of_get? found]
  have reported := reportAll_grows ready state.continuations
  obtain ⟨stepped, step, stepGrows⟩ := enter_grows reported.ready (state.table.lookup byte)
    (fun id led => fits.lookup_lt led)
  obtain ⟨spun, spin, spinGrows⟩ := enter_grows stepGrows.ready
    (if byte = valueTerminator then none else state.table.spinout) (by
      intro id spins
      split at spins
      · cases spins
      · exact fits.spinout id spins)
  have grown := (reported.trans stepGrows).trans spinGrows
  by_cases stays : state.table.epsilons.contains (some member) = true
  · obtain ⟨after, stay, stayGrows⟩ := enter_grows spinGrows.ready (some member)
      (Arena.targetWithin_some inside)
    refine ⟨after, ?_, ?_⟩
    · simp only [expand, Arena.get_of_get? found, Table.step_eq_lookup fits.table, bind,
        Except.bind, step, spin, if_pos stays, stay]
    · rw [State.moves, if_pos stays]
      simpa using grown.trans stayGrows
  · refine ⟨spun, ?_, ?_⟩
    · simp only [expand, Arena.get_of_get? found, Table.step_eq_lookup fits.table, bind,
        Except.bind, step, spin, if_neg stays]
      rfl
    · rw [State.moves, if_neg stays]
      simpa using grown

/-- Visiting the closures of all active states, with a step for each member. -/
theorem visit_grows {step : Sweep → StateId → Checked Sweep}
    {reports : StateId → List Continuation} {enters : StateId → List StateId}
    (formed : arena.WellFormed)
    (steps : ∀ sweep, sweep.Ready arena → ∀ member < arena.size,
      ∃ after, step sweep member = .ok after ∧
        Grows arena sweep after (reports member) (enters member))
    (ready : sweep.Ready arena) :
    ∃ after, sweep.frontiers.current.toList.foldlM (fun sweep id => do
        let (members, sweep) ← Sweep.closure sweep arena id
        members.foldlM step sweep) sweep = .ok after ∧
      Grows arena sweep after
        ((sweep.frontiers.current.toList.flatMap arena.closure).flatMap reports)
        ((sweep.frontiers.current.toList.flatMap arena.closure).flatMap enters) := by
  rw [List.flatMap_assoc, List.flatMap_assoc]
  refine Grows.foldlM ready ?_
  intro sweep' ready' id active
  have inside := ready.currentInside id active
  obtain ⟨middle, closed, first⟩ := closure_grows ready' formed inside
  obtain ⟨after, folded, second⟩ := Grows.foldlM first.ready (fun sweep ready member listed =>
    steps sweep ready member (Arena.lt_of_mem_closure formed inside listed))
  refine ⟨after, ?_, first.trans second⟩
  simp only [closed, bind, Except.bind]
  exact folded

/-! ## Bytes -/

/-- Between two bytes nothing is active next. -/
structure Rests (arena : Arena) (sweep : Sweep) : Prop extends sweep.Ready arena where
  idle : sweep.frontiers.next.toList = []

/-- One byte reports what the closures of the active states hold, and activates what they move to. -/
theorem readByte_eq (rests : sweep.Rests arena) (formed : arena.WellFormed) (byte : UInt8) :
    ∃ after, sweep.readByte arena byte = .ok after ∧ after.Rests arena ∧
      after.frontiers.current.toList = arena.activeAfter byte sweep.frontiers.current.toList ∧
      after.found.toList =
        addMissing sweep.found.toList (arena.heldByActive sweep.frontiers.current.toList) := by
  have steps : ∀ sweep : Sweep, sweep.Ready arena → ∀ member < arena.size,
      ∃ after, expand arena byte sweep member = .ok after ∧
        Grows arena sweep after (arena.heldBy member) (arena.movesFrom byte member) :=
    fun _ ready _ inside => expand_grows ready formed byte inside
  obtain ⟨expanded, folded, grows⟩ := visit_grows formed steps rests.toReady
  have ready := grows.ready
  refine ⟨{ expanded with frontiers := expanded.frontiers.advance }, ?_, ⟨⟨?_, ?_, ?_, ?_, ?_, ?_,
    ready.closures, ready.seen⟩, ?_⟩, ?_, grows.found⟩
  · simp only [readByte, bind, Except.bind] at folded ⊢
    rw [folded]
    rfl
  · exact ready.next
  · exact ready.current.clear
  · exact ready.nextRoom
  · exact ready.currentRoom
  · exact ready.nextInside
  · simp [Frontiers.advance]
  · simp [Frontiers.advance]
  · have entered := grows.next
    rw [rests.idle] at entered
    exact entered

/-- At the end the closures of the active states report what they hold. -/
theorem reportActive_eq (ready : sweep.Ready arena) (formed : arena.WellFormed) :
    ∃ after, reportActive arena sweep = .ok after ∧ after.Ready arena ∧
      after.found.toList =
        addMissing sweep.found.toList (arena.heldByActive sweep.frontiers.current.toList) := by
  have steps : ∀ sweep : Sweep, sweep.Ready arena → ∀ member < arena.size,
      ∃ after, (do return (← arena.get member).continuations.foldl report sweep) = .ok after ∧
        Grows arena sweep after (arena.heldBy member) [] := by
    intro sweep ready member inside
    obtain ⟨state, found⟩ := Arena.exists_get? inside
    refine ⟨state.continuations.foldl report sweep, ?_, ?_⟩
    · simp only [Arena.get_of_get? found, bind, Except.bind, pure, Except.pure]
    · rw [Arena.heldBy_of_get? found]
      exact reportAll_grows ready state.continuations
  obtain ⟨after, folded, grows⟩ := visit_grows formed steps ready
  exact ⟨after, folded, grows.ready, grows.found⟩

/-- Reading on and reporting at the end finds what a run reports along the bytes that remain. -/
theorem readAll_eq (rests : sweep.Rests arena) (formed : arena.WellFormed) (rest : List UInt8) :
    ∃ middle after, readAll arena rest sweep = .ok middle ∧
      reportActive arena middle = .ok after ∧ after.Ready arena ∧
      after.found.toList =
        addMissing sweep.found.toList (arena.reportsAlong sweep.frontiers.current.toList rest) := by
  induction rest generalizing sweep with
  | nil =>
    obtain ⟨after, reported, ready, found⟩ := reportActive_eq rests.toReady formed
    exact ⟨sweep, after, rfl, reported, ready, found⟩
  | cons byte rest ih =>
    by_cases done : sweep.frontiers.current.isEmpty = true
    · obtain ⟨after, reported, ready, found⟩ := reportActive_eq rests.toReady formed
      have nothing : sweep.frontiers.current.toList = [] :=
        (SparseSet.isEmpty_iff rests.current).mp done
      refine ⟨sweep, after, by simp only [readAll, if_pos done], reported, ready, ?_⟩
      rw [found, nothing, Arena.reportsAlong_nil, Arena.heldByActive_nil]
    · obtain ⟨next, read, restsNext, active, early⟩ := readByte_eq rests formed byte
      obtain ⟨middle, after, readRest, reported, ready, late⟩ := ih restsNext
      refine ⟨middle, after, ?_, reported, ready, ?_⟩
      · simp only [readAll, if_neg done, read, bind, Except.bind]
        exact readRest
      · rw [late, early, active, Arena.reportsAlong, addMissing_append]

end Sweep

namespace Arena

variable {arena : Arena} {closures : ClosureCache} {frontiers : Frontiers}

/-- A run by frontier on a well-formed arena never faults. It adds what is missing of all that it reports,
in this order, whatever the frontiers held before and whichever closures were known. -/
theorem sweep_some_eq (formed : arena.WellFormed) {id : StateId} (inside : id < arena.size)
    (known : closures.ValidFor arena) (valid : frontiers.Valid) (value : List UInt8)
    (found : List Continuation) :
    ∃ left learnt, arena.sweep closures (some id) value frontiers found =
        .ok (addMissing found (arena.reportsAlong [id] (terminated value)), left, learnt) ∧
      left.Valid ∧ learnt.ValidFor arena := by
  have grown := valid.current.ensureCapacity arena.size
  have grownNext := valid.next.ensureCapacity arena.size
  let cleared := (frontiers.ensureCapacity arena.size).clear
  have room : id < cleared.current.capacity := lt_of_lt_of_le inside grown.2
  obtain ⟨current, inserted, currentValid, capacity, members⟩ := grown.1.clear.insert_eq room
  rw [SparseSet.toList_clear] at members
  have active : current.toList = [id] := by simpa using members
  let begun : Sweep :=
    { frontiers := { cleared with current }
      closures
      seen := Std.HashSet.ofList found
      found := found.toArray }
  have rests : begun.Rests arena := by
    refine ⟨⟨currentValid, grownNext.1.clear, capacity.symm ▸ grown.2, grownNext.2, ?_, ?_, known,
      ?_⟩, SparseSet.toList_clear _⟩
    · intro other member
      rw [active, List.mem_singleton] at member
      exact member ▸ inside
    · intro other member
      rw [show begun.frontiers.next.toList = [] from SparseSet.toList_clear _] at member
      cases member
    · intro x
      simp [begun, Std.HashSet.contains_ofList]
  obtain ⟨middle, after, read, reported, ready, appended⟩ :=
    Sweep.readAll_eq rests formed (terminated value)
  refine ⟨after.frontiers, after.closures, ?_, ⟨ready.current, ready.next⟩, ready.closures⟩
  have begins : (frontiers.ensureCapacity arena.size).clear.current.insert id =
      .ok (current, decide (id ∉ cleared.current.toList)) := inserted
  simp only [begun, cleared, active] at read appended
  simp only [sweep, begins, bind, Except.bind, read, reported, pure, Except.pure, appended]

/-- What a run appends is what the automaton reports on the value and was not in the list, once each. -/
theorem sweep_eq (formed : arena.WellFormed) {start : Target} (inside : arena.TargetWithin start)
    (known : closures.ValidFor arena) (valid : frontiers.Valid) (value : List UInt8)
    (found : List Continuation) :
    ∃ more left learnt, arena.sweep closures start value frontiers found =
        .ok (found ++ more, left, learnt) ∧ left.Valid ∧ learnt.ValidFor arena ∧ more.Nodup ∧
      ∀ x, x ∈ more ↔ x ∉ found ∧ arena.Reports start value x := by
  cases start with
  | none => exact ⟨[], frontiers, closures, by simp [sweep], valid, known, by simp, by simp⟩
  | some id =>
    have within : ∀ other ∈ [id], other < arena.size := by simpa using inside id rfl
    obtain ⟨left, learnt, ran, leftValid, learntValid⟩ :=
      sweep_some_eq formed (inside id rfl) known valid value found
    obtain ⟨more, appended, distinct, exactly⟩ :=
      exists_append_addMissing found (arena.reportsAlong [id] (terminated value))
    refine ⟨more, left, learnt, appended ▸ ran, leftValid, learntValid, distinct, fun x => ?_⟩
    rw [exactly, mem_reportsAlong formed _ within, reports_some_iff]
    simp only [List.mem_singleton, exists_eq_left]

end Arena

end ByteAutomata
