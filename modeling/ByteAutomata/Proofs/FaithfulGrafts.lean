import ByteAutomata.Proofs.Templates

/-!
Grafts are faithful copies.

What is captured between an entry and an exit is numbered twice, first within its template and then in the
arena of the graft. Both times neighbouring ranges of a table can fall together, and loops can lead back to the
exit from steps, spinouts and epsilons. In the end each captured state has one new state, and a single map of
names, under which the exit is the state that it was bound to, turns each table into its copy.
-/

namespace ByteAutomata

/-- The copy of a table moves where the table does, up to a map of names. -/
structure Table.Renames (rename : StateId → StateId) (table copy : Table) : Prop where
  step : ∀ byte, copy.step byte = Option.map rename <$> table.step byte
  epsilons : copy.epsilons = table.epsilons.map (Option.map rename)
  spinout : copy.spinout = table.spinout.map rename

theorem State.RenamesTo.renames {rename : StateId → StateId} {state copy : State}
    (renames : state.RenamesTo rename copy) (formed : state.table.WellFormed) (copyFormed : copy.table.WellFormed) :
    state.table.Renames rename copy.table where
  step := by
    intro byte
    rw [Table.step_eq_lookup copyFormed, Table.step_eq_lookup formed, renames.lookup]
    rfl
  epsilons := renames.epsilons
  spinout := renames.spinout

/-! ## Capturing reads tables only -/

/-- The state with nothing to report. -/
def State.muted (state : State) : State := { state with continuations := [] }

namespace Arena

def muted (arena : Arena) : Arena := ⟨arena.states.map State.muted⟩

variable {arena source : Arena} {entry exit next id : StateId} {state : State}

theorem get?_muted (arena : Arena) (id : StateId) : arena.muted.get? id = (arena.get? id).map State.muted :=
  Array.getElem?_map

theorem get?_muted_of_get? (stored : arena.get? id = some state) : arena.muted.get? id = some state.muted := by
  rw [get?_muted, stored, Option.map_some]

theorem exists_of_get?_muted {quiet : State} (stored : arena.muted.get? id = some quiet) :
    ∃ state, arena.get? id = some state ∧ quiet = state.muted := by
  rw [get?_muted] at stored
  obtain ⟨state, found, same⟩ := Option.map_eq_some_iff.mp stored
  exact ⟨state, found, same.symm⟩

@[simp] theorem size_muted (arena : Arena) : arena.muted.size = arena.size :=
  Array.size_map

theorem get_muted (arena : Arena) (id : StateId) : arena.muted.get id = State.muted <$> arena.get id := by
  rw [get, get, get?_muted]
  cases arena.get? id <;> rfl

theorem not_holds_muted (arena : Arena) (id : StateId) (x : Continuation) : ¬ arena.muted.Holds id x := by
  rintro ⟨quiet, stored, held⟩
  obtain ⟨state, _, rfl⟩ := exists_of_get?_muted stored
  cases held

theorem WellFormed.muted (formed : arena.WellFormed) : arena.muted.WellFormed := by
  rw [wellFormed_iff]
  intro id quiet stored
  obtain ⟨state, found, rfl⟩ := exists_of_get?_muted stored
  have fits := formed.fits found
  exact size_muted arena ▸ ⟨fits.table, fits.steps, fits.spinout, fits.epsilons⟩

theorem exploreFrom_muted (arena : Arena) (avoid : Target) (rounds place : Nat) (found : Discovery) :
    arena.muted.exploreFrom avoid rounds place found = arena.exploreFrom avoid rounds place found := by
  induction rounds generalizing place found with
  | zero => rfl
  | succ rounds ih =>
    simp only [exploreFrom, get_muted, bind_map_left, ih]
    rfl

theorem capture_muted (arena : Arena) (entry exit : Target) :
    Template.capture arena.muted entry exit = Template.capture arena entry exit := by
  have table (id : StateId) (name : Target → Target) :
      (do (← arena.muted.get id).table.rename name : Checked Table) =
        (do (← arena.get id).table.rename name) := by
    rw [get_muted]
    cases arena.get id <;> rfl
  simp only [Template.capture, explore, exploreFrom_muted, size_muted, table]

theorem enclosed_muted_iff : arena.muted.Enclosed entry exit id ↔ arena.Enclosed entry exit id := by
  constructor
  · intro enclosed
    induction enclosed with
    | entry apart => exact .entry apart
    | target _ stored target other ih =>
      obtain ⟨state, found, rfl⟩ := exists_of_get?_muted stored
      exact .target ih found target other
  · intro enclosed
    induction enclosed with
    | entry apart => exact .entry apart
    | target _ stored target other ih => exact .target ih (get?_muted_of_get? stored) target other

/-! ## Grafting -/

/-- A graft of what lies between an entry and an exit, with the exit bound to `next`. -/
structure GraftedAs (source : Arena) (entry exit : StateId) (arena : Arena) (next : StateId) (built : Arena)
    (rename : StateId → StateId) : Prop where
  formed : built.WellFormed
  size : arena.size ≤ built.size
  kept : ∀ id < arena.size, built.get? id = arena.get? id
  exit_eq : rename exit = next
  bijOn : Set.BijOn rename {id | source.Enclosed entry exit id} (Set.Ico arena.size built.size)
  copies : ∀ id, source.Enclosed entry exit id → ∃ state copy, source.get? id = some state ∧
    built.get? (rename id) = some copy ∧ state.table.Renames rename copy.table

namespace CapturedBy

variable {found : Discovery} {ids : List StateId} {template : Template}

/-- The name in the arena of a graft for what is captured, and for the exit. -/
def newName (template : Template) (found : Discovery) (exit base next : StateId) (id : StateId) : StateId :=
  (boundName template found exit base next (some id)).getD 0

theorem boundName_eq_newName (taken : source.CapturedBy entry exit found ids template) {base : StateId}
    (inside : next < base) (known : id ∈ ids ∨ id = exit) :
    boundName template found exit base next (some id) = some (newName template found exit base next id) := by
  obtain ⟨aim, _, named⟩ := taken.exists_boundName inside known
  rw [newName, named, Option.getD_some]

theorem newName_eq (taken : source.CapturedBy entry exit found ids template) (base next : StateId) {place : Nat}
    (listed : ids[place]? = some id) : newName template found exit base next id = base + place := by
  rw [newName, taken.boundName_eq base next listed, Option.getD_some]

theorem bijOn_newName (taken : source.CapturedBy entry exit found ids template) {base : StateId}
    (inside : next < base) :
    Set.BijOn (newName template found exit base next) {id | id ∈ ids} (Set.Ico base (base + ids.length)) := by
  refine ⟨fun id member => ?_, fun id member other further same => ?_, fun id member => ?_⟩
  · obtain ⟨place, listed⟩ := List.mem_iff_getElem?.mp member
    rw [taken.newName_eq base next listed]
    exact ⟨Nat.le_add_right _ _, Nat.add_lt_add_left (List.getElem?_eq_some_iff.mp listed).1 base⟩
  · refine (taken.eq_of_boundName_eq inside member (Or.inl further) ?_).symm
    rw [taken.boundName_eq_newName inside (Or.inl member), taken.boundName_eq_newName inside (Or.inl further), same]
  · obtain ⟨place, rfl⟩ := Nat.exists_eq_add_of_le member.1
    have listed := List.getElem?_eq_getElem (Nat.lt_of_add_lt_add_left member.2)
    exact ⟨_, List.mem_of_getElem? listed, taken.newName_eq base next listed⟩

/-- A graft of captured states is a faithful copy of them. -/
theorem graftedAs (taken : source.CapturedBy entry exit found ids template) (sourceFormed : source.WellFormed)
    (formed : arena.WellFormed) (inside : next < arena.size) :
    ∃ built rename, template.graft arena (some next) = .ok (built, some (rename entry)) ∧
      source.GraftedAs entry exit arena next built rename := by
  obtain ⟨tables, start, grafted, named, grows, _, copies⟩ := taken.graft_grows sourceFormed formed inside
  have size : (arena.pushTables tables).size = arena.size + ids.length := by
    rw [size_pushTables, copies.length_eq]
  let rename := newName template found exit arena.size next
  have first : start = rename entry := by
    rw [taken.boundName_eq_newName inside taken.captured.reached, Option.some.injEq] at named
    exact named.symm
  refine ⟨_, rename, first ▸ grafted, grows.extends_.formed, grows.extends_.size, grows.extends_.kept, ?_, ?_, ?_⟩
  · simp only [rename, newName, taken.boundName_exit, Option.getD_some]
  · rw [size]
    simpa only [taken.captured.mem_iff] using taken.bijOn_newName inside
  · intro id enclosed
    have member := taken.captured.mem_iff.mpr enclosed
    obtain ⟨place, listed⟩ := List.mem_iff_getElem?.mp member
    obtain ⟨state, copy, stored, copied, same⟩ := get?_pushTables_of_copies arena copies listed
    have fits := sourceFormed.fits stored
    have renames : state.RenamesTo rename copy := same.renamesTo rfl fits fun next leads =>
      taken.boundName_eq_newName inside
        (taken.captured.closed id member state stored next (leads.mem_targets fits))
    refine ⟨state, copy, stored, ?_, renames.renames fits.table same.table⟩
    rw [show rename id = arena.size + place from taken.newName_eq arena.size next listed]
    exact copied

end CapturedBy

/-- What is grafted of an arena that reports nothing is grafted of every arena with the same tables. -/
theorem GraftedAs.of_muted {built : Arena} {rename : StateId → StateId}
    (grafted : source.muted.GraftedAs entry exit arena next built rename) :
    source.GraftedAs entry exit arena next built rename where
  formed := grafted.formed
  size := grafted.size
  kept := grafted.kept
  exit_eq := grafted.exit_eq
  bijOn := by simpa only [enclosed_muted_iff] using grafted.bijOn
  copies := by
    intro id enclosed
    obtain ⟨state, copy, stored, copied, renames⟩ := grafted.copies id (enclosed_muted_iff.mpr enclosed)
    obtain ⟨original, found, rfl⟩ := exists_of_get?_muted stored
    exact ⟨original, copy, found, copied, renames⟩

/-- Whatever a graft adds, it adds at the end. -/
theorem graft_adds {template : Template} {built : Arena} {target start : Target}
    (grafted : template.graft arena target = .ok (built, start)) :
    arena.size ≤ built.size ∧ ∀ id < arena.size, built.get? id = arena.get? id := by
  obtain ⟨tables, _, made⟩ := Checked.exists_of_bind_eq_ok grafted
  cases made
  exact ⟨size_pushTables arena tables ▸ Nat.le_add_right _ _, fun id inside => get?_pushTables_of_lt tables inside⟩

/-- Capturing what an entry and an exit enclose and grafting it never faults. Each graft is a faithful copy with
the exit bound to a state of its arena and begins at the copy of the entry. What is grafted onto a later arena,
from this template or from another one, are other states. -/
theorem graft_capture_eq (formed : source.WellFormed) (inside : entry < source.size) (exit : StateId) :
    ∃ template, Template.capture source (some entry) (some exit) = .ok template ∧
      ∀ (arena : Arena) (next : StateId), arena.WellFormed → next < arena.size →
        ∃ built rename, template.graft arena (some next) = .ok (built, some (rename entry)) ∧
          source.GraftedAs entry exit arena next built rename ∧
          ∀ (other : Template) (later grown : Arena) (aim start : Target), built.size ≤ later.size →
            other.graft later aim = .ok (grown, start) →
            (∀ id < built.size, grown.get? id = later.get? id) ∧
              Disjoint (Set.Ico arena.size built.size) (Set.Ico later.size grown.size) := by
  have insideMuted : entry < source.muted.size := size_muted source ▸ inside
  obtain ⟨template, found, ids, captured, taken⟩ :=
    capture_eq formed.muted insideMuted exit source.not_holds_muted
  refine ⟨template, capture_muted source _ _ ▸ captured, fun arena next arenaFormed nextInside => ?_⟩
  obtain ⟨built, rename, grafted, faithful⟩ := taken.graftedAs formed.muted arenaFormed nextInside
  refine ⟨built, rename, grafted, faithful.of_muted, fun other later grown aim start larger further => ?_⟩
  refine ⟨fun id old => (graft_adds further).2 id (lt_of_lt_of_le old larger), ?_⟩
  exact Set.disjoint_left.mpr fun id first second => absurd (lt_of_lt_of_le first.2 larger) (Nat.not_lt.mpr second.1)

/-- Two states that lead to one another and, by a step, a spinout and an epsilon, to the exit in front of them. The
state behind them is not reached. -/
def backToExit : Arena :=
  ⟨#[{ table := { Table.single 0x78 (some 3) with epsilons := [some 0] } },
    { table := { Table.single 0x61 (some 0) with epsilons := [some 2, some 0], spinout := some 1 } },
    { table := { Table.single 0x62 (some 1) with epsilons := [some 1], spinout := some 0 }, continuations := [5] },
    {}]⟩

theorem graft_capture_eq_backToExit :
    ∃ template, Template.capture backToExit (some 1) (some 0) = .ok template ∧
      ∃ built rename grown start, template.graft afterEachA (some 2) = .ok (built, some (rename 1)) ∧
        backToExit.GraftedAs 1 0 afterEachA 2 built rename ∧ template.graft built (some 2) = .ok (grown, start) ∧
        Disjoint (Set.Ico afterEachA.size built.size) (Set.Ico built.size grown.size) := by
  obtain ⟨template, captured, grafts⟩ :=
    graft_capture_eq (by decide : backToExit.WellFormed) (by decide : 1 < backToExit.size) 0
  obtain ⟨built, rename, grafted, faithful, later⟩ := grafts afterEachA 2 (by decide) (by decide)
  have kept : 2 < built.size := lt_of_lt_of_le (by decide : 2 < afterEachA.size) faithful.size
  obtain ⟨grown, renameToo, graftedToo, _⟩ := grafts built 2 faithful.formed kept
  exact ⟨template, captured, built, rename, grown, _, grafted, faithful, graftedToo,
    (later template built grown _ _ (Nat.le_refl _) graftedToo).2⟩

end Arena

end ByteAutomata
