import ByteAutomata.Table
import Mathlib

/-!
Where the ranges of a table lead.

The ranges of a table are its runs: ceilings and steps in ascending order. `targetAt` reads a list of
runs as a function of bytes. On a well-formed table looking up a byte and unpacking the table both
agree with it, so later proofs speak of `lookup` alone and never of ceilings.
-/

namespace ByteAutomata.Table

/-- The step of the first run whose ceiling lies above `byte`. -/
def targetAt (runs : List (UInt8 × Target)) (byte : UInt8) : Target :=
  ((runs.find? fun run => byte < run.1).map (·.2)).join

@[simp] theorem targetAt_nil (byte : UInt8) : targetAt [] byte = none := rfl

theorem targetAt_cons (ceiling : UInt8) (target : Target) (runs : List (UInt8 × Target))
    (byte : UInt8) :
    targetAt ((ceiling, target) :: runs) byte =
      if byte < ceiling then target else targetAt runs byte := by
  by_cases below : byte < ceiling <;> simp [targetAt, below]

/-- Bytes above all ceilings of a leading part are looked up behind it. -/
theorem targetAt_append (runs more : List (UInt8 × Target)) (byte : UInt8)
    (above : ∀ run ∈ runs, ¬ byte < run.1) :
    targetAt (runs ++ more) byte = targetAt more byte := by
  have none : runs.find? (fun run => byte < run.1) = none := by
    simpa only [List.find?_eq_none, decide_eq_true_eq] using above
  simp only [targetAt, List.find?_append, none, Option.none_or]

/-- Bytes below some ceiling of a leading part are looked up in it. -/
theorem targetAt_append_of_below (runs more : List (UInt8 × Target)) (byte : UInt8)
    (below : ∃ run ∈ runs, byte < run.1) :
    targetAt (runs ++ more) byte = targetAt runs byte := by
  have isSome : (runs.find? fun run => byte < run.1).isSome := by
    simpa only [List.find?_isSome, decide_eq_true_eq] using below
  obtain ⟨run, found⟩ := Option.isSome_iff_exists.mp isSome
  simp only [targetAt, List.find?_append, found, Option.some_or]

theorem targetAt_mem {runs : List (UInt8 × Target)} {byte : UInt8} {id : StateId}
    (led : targetAt runs byte = some id) : some id ∈ runs.map (·.2) := by
  induction runs with
  | nil => simp at led
  | cons run runs ih =>
    obtain ⟨ceiling, target⟩ := run
    rw [targetAt_cons] at led
    by_cases below : byte < ceiling
    · rw [if_pos below] at led
      simp [led]
    · rw [if_neg below] at led
      exact List.mem_cons_of_mem _ (ih led)

theorem targetAt_map (runs : List (UInt8 × Target)) (byte : UInt8) (name : Target → Target)
    (nowhere : name none = none) :
    targetAt (runs.map fun run => (run.1, name run.2)) byte = name (targetAt runs byte) := by
  induction runs with
  | nil => exact nowhere.symm
  | cons run runs ih =>
    obtain ⟨ceiling, target⟩ := run
    rw [List.map_cons, targetAt_cons, targetAt_cons, ih]
    by_cases below : byte < ceiling <;> simp [below]

/-- Below some ceiling a run is found, so the map need not keep nowhere in place. -/
theorem targetAt_map_of_below {runs : List (UInt8 × Target)} {byte : UInt8} (name : Target → Target)
    (below : ∃ run ∈ runs, byte < run.1) :
    targetAt (runs.map fun run => (run.1, name run.2)) byte = name (targetAt runs byte) := by
  have isSome : (runs.find? fun run => byte < run.1).isSome := by
    simpa only [List.find?_isSome, decide_eq_true_eq] using below
  obtain ⟨run, found⟩ := Option.isSome_iff_exists.mp isSome
  have renamed : (runs.map fun run => (run.1, name run.2)).find? (fun run => byte < run.1) =
      some (run.1, name run.2) := by
    rw [List.find?_map]
    exact congrArg (Option.map _) found
  simp only [targetAt, found, renamed, Option.map_some, Option.join_some]

/-! ## Well-formed tables -/

/-- Ceilings ascend up to `byteCeiling`. -/
def Ascends (ceilings : List UInt8) : Prop :=
  ceilings.Pairwise (· < ·) ∧ ceilings.getLast? = some byteCeiling

theorem all_adjacent_iff (ceilings : List UInt8) :
    (ceilings.zip ceilings.tail).all (fun pair => decide (pair.1 < pair.2)) = true ↔
      ceilings.Pairwise (· < ·) := by
  induction ceilings with
  | nil => simp
  | cons first rest ih =>
    cases rest with
    | nil => simp
    | cons second rest =>
      simp only [List.tail_cons, List.zip_cons_cons, List.all_cons, Bool.and_eq_true,
        decide_eq_true_eq] at ih ⊢
      rw [ih, List.pairwise_cons (a := first)]
      constructor
      · intro ⟨less, ascending⟩
        refine ⟨?_, ascending⟩
        intro other member
        rcases List.mem_cons.mp member with same | later
        · exact same ▸ less
        · exact UInt8.lt_trans less (List.rel_of_pairwise_cons ascending later)
      · intro ⟨less, ascending⟩
        exact ⟨less second List.mem_cons_self, ascending⟩

theorem wellFormed_iff (table : Table) :
    table.WellFormed ↔ table.ceilings.length = table.steps.length ∧ Ascends table.ceilings := by
  unfold WellFormed isWellFormed Ascends
  simp only [Bool.and_eq_true, all_adjacent_iff, beq_iff_eq, Bool.not_eq_true',
    List.isEmpty_eq_false_iff]
  constructor
  · intro ⟨⟨⟨_, even⟩, ascending⟩, last⟩
    exact ⟨even, ascending, last⟩
  · intro ⟨even, ascending, last⟩
    refine ⟨⟨⟨?_, even⟩, ascending⟩, last⟩
    intro empty
    simp [empty] at last

theorem wellFormed_withRuns (table : Table) (runs : List (UInt8 × Target)) :
    (table.withRuns runs).WellFormed ↔ Ascends (runs.map (·.1)) := by
  simp [wellFormed_iff, withRuns]

theorem runs_withRuns (table : Table) (runs : List (UInt8 × Target)) :
    (table.withRuns runs).runs = runs := by
  simp [withRuns, Table.runs, List.zip_map', List.map_id'']

theorem steps_eq_runs {table : Table} (formed : table.WellFormed) :
    table.runs.map (·.2) = table.steps := by
  have even := ((wellFormed_iff table).mp formed).1
  exact List.map_snd_zip (by omega)

theorem ceilings_eq_runs {table : Table} (formed : table.WellFormed) :
    table.runs.map (·.1) = table.ceilings := by
  have even := ((wellFormed_iff table).mp formed).1
  exact List.map_fst_zip (by omega)

theorem Ascends.le_byteCeiling {ceilings : List UInt8} (ascends : Ascends ceilings) :
    ∀ ceiling ∈ ceilings, ceiling ≤ byteCeiling := by
  intro ceiling member
  obtain ⟨ascending, last⟩ := ascends
  obtain ⟨front, rfl⟩ := List.getLast?_eq_some_iff.mp last
  rcases List.mem_append.mp member with earlier | same
  · exact UInt8.le_of_lt ((List.pairwise_append.mp ascending).2.2 _ earlier _ (by simp))
  · simp only [List.mem_singleton] at same
    exact same ▸ UInt8.le_refl _

theorem Ascends.tail {ceiling : UInt8} {ceilings : List UInt8} (ascends : Ascends (ceiling :: ceilings))
    (below : ceiling < byteCeiling) : Ascends ceilings := by
  refine ⟨ascends.1.of_cons, ?_⟩
  cases ceilings with
  | nil =>
    have last : ceiling = byteCeiling := by simpa using ascends.2
    exact absurd (last ▸ below) (UInt8.lt_irrefl _)
  | cons next rest => simpa using ascends.2

theorem Ascends.eq_nil {ceilings : List UInt8} (ascends : Ascends (byteCeiling :: ceilings)) : ceilings = [] := by
  apply List.eq_nil_iff_forall_not_mem.mpr
  intro other member
  have above := List.rel_of_pairwise_cons ascends.1 member
  exact UInt8.not_lt.mpr (ascends.le_byteCeiling other (List.mem_cons_of_mem _ member)) above

/-- The first ceiling above a byte belongs to a run, wherever both lists are equally long. -/
theorem firstAbove_eq (byte : UInt8) (ceilings : List UInt8) (steps : List Target)
    (even : ceilings.length = steps.length) :
    firstAbove byte ceilings steps =
      .ok (((ceilings.zip steps).find? fun run => byte < run.1).map (·.2)) := by
  induction ceilings generalizing steps with
  | nil => rfl
  | cons ceiling ceilings ih =>
    cases steps with
    | nil => simp at even
    | cons target steps =>
      by_cases below : byte < ceiling
      · simp [firstAbove, below]
      · simp only [firstAbove, if_neg below, List.tail_cons, List.zip_cons_cons,
          List.find?_cons, decide_eq_false below]
        exact ih steps (by simpa using even)

theorem step_eq_targetAt {table : Table} (formed : table.WellFormed) (byte : UInt8) :
    table.step byte = .ok (targetAt table.runs byte) := by
  obtain ⟨even, ascends⟩ := (wellFormed_iff table).mp formed
  simp only [step, firstAbove_eq byte _ _ even, bind, Except.bind]
  cases found : (table.ceilings.zip table.steps).find? (fun run => byte < run.1) with
  | some run => simp [targetAt, Table.runs, found]; rfl
  | none =>
    have above : ¬ byte < byteCeiling := by
      have member := List.mem_of_getLast? ascends.2
      rw [← ceilings_eq_runs formed] at member
      obtain ⟨run, inside, same⟩ := List.mem_map.mp member
      have passed := List.find?_eq_none.mp found run inside
      simpa only [same, decide_eq_true_eq] using passed
    simp [targetAt, Table.runs, found, above]
    rfl

theorem lookup_eq_targetAt {table : Table} (formed : table.WellFormed) (byte : UInt8) :
    table.lookup byte = targetAt table.runs byte :=
  lookup_of_step (step_eq_targetAt formed byte)

/-- Looking up a byte in a well-formed table never faults. -/
theorem step_eq_lookup {table : Table} (formed : table.WellFormed) (byte : UInt8) :
    table.step byte = .ok (table.lookup byte) := by
  rw [lookup_eq_targetAt formed, step_eq_targetAt formed]

theorem lookup_mem_steps {table : Table} (formed : table.WellFormed) {byte : UInt8} {id : StateId}
    (led : table.lookup byte = some id) : some id ∈ table.steps := by
  rw [lookup_eq_targetAt formed] at led
  exact steps_eq_runs formed ▸ targetAt_mem led

/-- A byte that tables do not tell apart leads nowhere. -/
theorem lookup_of_ceiling_le {table : Table} (formed : table.WellFormed) {byte : UInt8}
    (above : byteCeiling ≤ byte) : table.lookup byte = none := by
  have ascends := ((wellFormed_iff table).mp formed).2
  have empty := targetAt_append table.runs [] byte (by
    intro run member less
    have listed : run.1 ∈ table.ceilings := by
      rw [← ceilings_eq_runs formed]
      exact List.mem_map_of_mem member
    have bound := ascends.le_byteCeiling run.1 listed
    simp only [UInt8.lt_iff_toNat_lt, UInt8.le_iff_toNat_le] at *
    omega)
  rw [lookup_eq_targetAt formed]
  simpa using empty

/-- Two bytes lead to the same target where no ceiling separates them. -/
theorem lookup_eq_of_between {table : Table} (formed : table.WellFormed) {low high : UInt8}
    (order : low ≤ high) (between : ∀ ceiling ∈ table.ceilings, low < ceiling → high < ceiling) :
    table.lookup high = table.lookup low := by
  rw [lookup_eq_targetAt formed, lookup_eq_targetAt formed]
  rw [← ceilings_eq_runs formed] at between
  generalize table.runs = runs at between
  induction runs with
  | nil => rfl
  | cons run runs ih =>
    obtain ⟨ceiling, target⟩ := run
    have rest := ih (fun other member =>
      between other (by simpa using Or.inr (by simpa using member)))
    rw [targetAt_cons, targetAt_cons, rest]
    have first := between ceiling (by simp)
    by_cases below : low < ceiling
    · simp [below, first below]
    · have above : ¬ high < ceiling := by
        simp only [UInt8.lt_iff_toNat_lt, UInt8.le_iff_toNat_le] at *
        omega
      simp [below, above]

/-- A state none of whose steps leads anywhere has no step on any byte. -/
theorem lookup_of_hasNoByteSteps {table : Table} (formed : table.WellFormed)
    (stuck : table.hasNoByteSteps = true) (byte : UInt8) : table.lookup byte = none := by
  cases led : table.lookup byte with
  | none => rfl
  | some id =>
    have nowhere := List.all_eq_true.mp stuck _ (lookup_mem_steps formed led)
    simp at nowhere

/-! ## Growing a table range by range -/

/-- The new run lies on top of the old ones, or takes the place of the topmost. -/
theorem exists_extendRuns_eq (ceiling : UInt8) (target : Target) (runs : List (UInt8 × Target)) :
    ∃ kept, kept <:+ runs ∧ extendRuns ceiling target runs = (ceiling, target) :: kept := by
  cases runs with
  | nil => exact ⟨[], List.suffix_refl _, rfl⟩
  | cons first rest =>
    by_cases merges : first.2 = target
    · exact ⟨rest, List.suffix_cons _ _, by simp only [extendRuns, merges, ↓reduceIte]⟩
    · exact ⟨first :: rest, List.suffix_refl _, by simp only [extendRuns, merges, ↓reduceIte]⟩

theorem mem_extendRuns {runs : List (UInt8 × Target)} {ceiling : UInt8} {target other : Target}
    (member : other ∈ (extendRuns ceiling target runs).map (·.2)) :
    other = target ∨ other ∈ runs.map (·.2) := by
  obtain ⟨kept, suffix, extended⟩ := exists_extendRuns_eq ceiling target runs
  rw [extended, List.map_cons, List.mem_cons] at member
  exact member.imp_right fun earlier => List.map_subset _ suffix.subset earlier

/-- The runs listed so far, the topmost first, reach up to `floor` and lead each byte below it where
`leads` wants it. -/
structure Tabulates (runs : List (UInt8 × Target)) (floor : UInt8)
    (leads : UInt8 → Target → Prop) : Prop where
  descends : (runs.map (·.1)).Pairwise (· > ·)
  top : ∀ run ∈ runs.head?, run.1 = floor
  bottom : runs = [] → floor = 0
  leads : ∀ byte < floor, leads byte (targetAt runs.reverse byte)

namespace Tabulates

variable {runs : List (UInt8 × Target)} {floor ceiling : UInt8} {target : Target}
  {leads : UInt8 → Target → Prop}

theorem nil (leads : UInt8 → Target → Prop) : Tabulates [] 0 leads where
  descends := List.Pairwise.nil
  top := by simp
  bottom := fun _ => rfl
  leads := fun byte below => absurd below (by simp [UInt8.lt_iff_toNat_lt])

theorem mono {more : UInt8 → Target → Prop} (tabulates : Tabulates runs floor leads)
    (weaker : ∀ byte target, leads byte target → more byte target) :
    Tabulates runs floor more where
  descends := tabulates.descends
  top := tabulates.top
  bottom := tabulates.bottom
  leads := fun byte below => weaker _ _ (tabulates.leads byte below)

theorem le_floor (tabulates : Tabulates runs floor leads) :
    ∀ run ∈ runs, run.1 ≤ floor := by
  intro run member
  cases runs with
  | nil => cases member
  | cons first rest =>
    have same : first.1 = floor := tabulates.top first rfl
    rcases List.mem_cons.mp member with here | later
    · rw [here, same]
      exact UInt8.le_refl _
    · have less := List.rel_of_pairwise_cons tabulates.descends (List.mem_map_of_mem later)
      exact same ▸ UInt8.le_of_lt less

/-- Bytes below the old top are led as before, and those from there up to the new ceiling as the new run
says, whether it was merged or not. -/
theorem targetAt_extendRuns (tabulates : Tabulates runs floor leads) {byte : UInt8} (below : byte < ceiling) :
    targetAt (extendRuns ceiling target runs).reverse byte =
      if byte < floor then targetAt runs.reverse byte else target := by
  cases runs with
  | nil =>
    rw [tabulates.bottom rfl, if_neg (by simp [UInt8.lt_iff_toNat_lt]), extendRuns, List.reverse_singleton,
      targetAt_cons, if_pos below]
  | cons first rest =>
    obtain ⟨top, last⟩ := first
    obtain rfl : top = floor := tabulates.top _ rfl
    by_cases merges : last = target
    · subst merges
      simp only [extendRuns, ↓reduceIte, List.reverse_cons]
      by_cases within : ∃ run ∈ rest.reverse, byte < run.1
      · obtain ⟨run, listed, less⟩ := within
        have lower := tabulates.le_floor run (List.mem_cons_of_mem _ (List.mem_reverse.mp listed))
        rw [targetAt_append_of_below _ _ _ ⟨run, listed, less⟩, targetAt_append_of_below _ _ _ ⟨run, listed, less⟩,
          if_pos (UInt8.lt_of_lt_of_le less lower)]
      · have passed : ∀ run ∈ rest.reverse, ¬ byte < run.1 := by simpa using within
        rw [targetAt_append _ _ _ passed, targetAt_append _ _ _ passed, targetAt_cons, targetAt_cons, if_pos below,
          targetAt_nil]
        split <;> rfl
    · simp only [extendRuns, merges, ↓reduceIte]
      rw [List.reverse_cons (a := (ceiling, target))]
      by_cases early : byte < top
      · rw [if_pos early, targetAt_append_of_below _ _ _ ⟨(top, last), by simp, early⟩]
      · have passed : ∀ run ∈ ((top, last) :: rest).reverse, ¬ byte < run.1 := fun run listed less =>
          early (UInt8.lt_of_lt_of_le less (tabulates.le_floor run (List.mem_reverse.mp listed)))
        rw [if_neg early, targetAt_append _ _ _ passed, targetAt_cons, if_pos below]

/-- A new range leads the bytes from the old top up to its ceiling. -/
theorem extend (tabulates : Tabulates runs floor leads) (above : floor < ceiling ∨ runs = [])
    (led : ∀ byte, floor ≤ byte → byte < ceiling → leads byte target) :
    Tabulates (extendRuns ceiling target runs) ceiling leads := by
  obtain ⟨kept, suffix, extended⟩ := exists_extendRuns_eq ceiling target runs
  have lower : ∀ run ∈ kept, run.1 < ceiling := by
    intro run listed
    rcases above with higher | rfl
    · exact UInt8.lt_of_le_of_lt (tabulates.le_floor run (suffix.subset listed)) higher
    · cases suffix.subset listed
  refine ⟨?_, by simp [extended], by simp [extended], fun byte below => ?_⟩
  · rw [extended, List.map_cons, List.pairwise_cons]
    refine ⟨fun other member => ?_, tabulates.descends.sublist (suffix.sublist.map _)⟩
    obtain ⟨run, listed, rfl⟩ := List.mem_map.mp member
    exact lower run listed
  · rw [tabulates.targetAt_extendRuns below]
    by_cases early : byte < floor
    · rw [if_pos early]
      exact tabulates.leads byte early
    · rw [if_neg early]
      exact led byte (UInt8.not_lt.mp early) below

/-- Runs that reach up to the byte ceiling make a well-formed table. -/
theorem ascends (tabulates : Tabulates runs byteCeiling leads) :
    Ascends (runs.reverse.map (·.1)) := by
  constructor
  · rw [List.map_reverse, List.pairwise_reverse]
    exact tabulates.descends
  · cases runs with
    | nil => exact absurd (tabulates.bottom rfl) (by decide)
    | cons first rest =>
      have top : first.1 = byteCeiling := tabulates.top first rfl
      simp [top]

theorem wellFormed_withRuns (tabulates : Tabulates runs byteCeiling leads) (table : Table) :
    (table.withRuns runs.reverse).WellFormed :=
  (Table.wellFormed_withRuns _ _).mpr tabulates.ascends

theorem leads_lookup (tabulates : Tabulates runs byteCeiling leads) (table : Table) {byte : UInt8}
    (below : byte < byteCeiling) : leads byte ((table.withRuns runs.reverse).lookup byte) := by
  rw [lookup_eq_targetAt (tabulates.wellFormed_withRuns table), runs_withRuns]
  exact tabulates.leads byte below

theorem mem_steps_withRuns (tabulates : Tabulates runs byteCeiling leads) (table : Table) {step : Target} :
    step ∈ (table.withRuns runs.reverse).steps ↔ step ∈ runs.map (·.2) := by
  rw [← steps_eq_runs (tabulates.wellFormed_withRuns table), runs_withRuns, List.map_reverse, List.mem_reverse]

end Tabulates

end ByteAutomata.Table
