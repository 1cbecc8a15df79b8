import ByteAutomata.Proofs.DiscoveryOrder

/-!
Canonical tables.

A table is canonical if it is well-formed and neighbouring ranges lead to different targets. Where it leads the bytes
then settles its ranges, except for a first range with ceiling 0, which holds no byte and which a well-formed table may
list. Every way to make or change byte steps gives a canonical table that leads the bytes where it is meant to.
-/

namespace ByteAutomata.Table

/-- Well-formed, and no two neighbouring ranges lead to the same target. -/
structure Canonical (table : Table) : Prop where
  formed : table.WellFormed
  apart : table.steps.IsChain (· ≠ ·)

/-- A canonical table that leads each byte below the ceiling where the function does. -/
structure Represents (table : Table) (leads : UInt8 → Target) : Prop extends table.Canonical where
  step : ∀ byte < byteCeiling, table.step byte = .ok (leads byte)

/-- Ceiling and step of each range that holds a byte. -/
def filledRuns (table : Table) : List (UInt8 × Target) :=
  table.runs.filter (·.1 ≠ 0)

variable {table left right : Table} {leads : UInt8 → Target} {byte : UInt8}

/-! ## Unpacking and packing -/

theorem exists_unpack (formed : table.WellFormed) :
    ∃ cells, table.unpack = .ok cells ∧ cells.length = tableWidth ∧
      ∀ byte < byteCeiling, ∃ target, table.step byte = .ok target ∧ cells[byte.toNat]? = some target := by
  have cells : table.unpack = .ok table.cells := by rw [unpack_eq formed, cells_eq formed]
  refine ⟨table.cells, cells, length_cells formed, ?_⟩
  intro byte below
  exact ⟨table.lookup byte, step_eq_lookup formed byte, getElem?_cells formed below⟩

theorem canonical_withCells (table : Table) {cells : List Target} (full : cells.length = tableWidth) :
    (table.withCells cells).Canonical where
  formed := wellFormed_withCells table cells full.le
  apart := (packed_withCells table (full.trans_le tableWidth_le)).apart

/-- Packed cells are unpacked again. -/
theorem unpack_withCells (table : Table) {cells : List Target} (full : cells.length = tableWidth) :
    (table.withCells cells).unpack = .ok cells := by
  rw [unpack_eq (wellFormed_withCells table cells full.le), Except.ok.injEq]
  apply List.ext_getElem?
  intro place
  by_cases inside : place < tableWidth
  · have number := toNat_ofNat_of_lt_width inside
    have below : UInt8.ofNat place < byteCeiling := (lt_byteCeiling_iff _).mpr (number.symm ▸ inside)
    have listed := List.getElem?_eq_getElem (full.symm ▸ inside : place < cells.length)
    rw [List.getElem?_map, List.getElem?_range inside, Option.map_some, lookup_withCells table full below, number,
      listed, Option.join_some]
  · rw [List.getElem?_eq_none (by simpa using inside), List.getElem?_eq_none (by omega)]

/-! ## One table for each function -/

/-- Runs above a floor whose ceilings ascend up to the byte ceiling and whose neighbours lead to different targets. -/
structure CanonicalRuns (runs : List (UInt8 × Target)) (floor : UInt8) : Prop where
  ascends : Ascends (runs.map (·.1))
  apart : (runs.map (·.2)).IsChain (· ≠ ·)
  above : ∀ run ∈ runs, floor < run.1

namespace CanonicalRuns

variable {runs more : List (UInt8 × Target)} {floor ceiling ceiling' : UInt8} {target : Target}

theorem le_byteCeiling (canonical : CanonicalRuns ((ceiling, target) :: runs) floor) : ceiling ≤ byteCeiling :=
  canonical.ascends.le_byteCeiling ceiling List.mem_cons_self

theorem tail (canonical : CanonicalRuns ((ceiling, target) :: runs) floor) (below : ceiling < byteCeiling) :
    CanonicalRuns runs ceiling where
  ascends := canonical.ascends.tail below
  apart := canonical.apart.tail
  above _ member := List.rel_of_pairwise_cons canonical.ascends.1 (List.mem_map_of_mem member)

theorem eq_nil (canonical : CanonicalRuns ((byteCeiling, target) :: runs) floor) : runs = [] :=
  List.map_eq_nil_iff.mp canonical.ascends.eq_nil

/-- The first run ends where another target begins, so a list that leads the byte there to the same target as its own
first run has no longer first run. -/
theorem not_lt (canonical : CanonicalRuns ((ceiling, target) :: runs) floor) (bound : ceiling' ≤ byteCeiling)
    (same : targetAt ((ceiling, target) :: runs) ceiling = targetAt ((ceiling', target) :: more) ceiling) :
    ¬ ceiling < ceiling' := by
  intro shorter
  rw [targetAt_cons, if_neg (UInt8.lt_irrefl _), targetAt_cons, if_pos shorter] at same
  have further := canonical.tail (UInt8.lt_of_lt_of_le shorter bound)
  cases runs with
  | nil => cases further.ascends.2
  | cons next rest =>
    rw [targetAt_cons, if_pos (further.above next List.mem_cons_self)] at same
    exact (List.isChain_cons_cons.mp canonical.apart).1 same.symm

/-- Where they lead the bytes above the floor settles the runs. The induction is on one of two lists; the floor rises to
the ceiling that their first runs share. -/
theorem eq_of_targetAt_eq (canonical : CanonicalRuns runs floor) (canonical' : CanonicalRuns more floor)
    (same : ∀ byte, floor ≤ byte → byte < byteCeiling → targetAt runs byte = targetAt more byte) : runs = more := by
  induction runs generalizing more floor with
  | nil => cases canonical.ascends.2
  | cons run rest ih =>
    cases more with
    | nil => cases canonical'.ascends.2
    | cons other others =>
      obtain ⟨ceiling, target⟩ := run
      obtain ⟨ceiling', target'⟩ := other
      have low : floor < ceiling := canonical.above _ List.mem_cons_self
      have low' : floor < ceiling' := canonical'.above _ List.mem_cons_self
      have bound := canonical.le_byteCeiling
      have bound' := canonical'.le_byteCeiling
      have targets : target = target' := by
        have start := same floor (UInt8.le_refl _) (UInt8.lt_of_lt_of_le low bound)
        rwa [targetAt_cons, if_pos low, targetAt_cons, if_pos low'] at start
      subst targets
      have ceilings : ceiling = ceiling' := by
        apply UInt8.le_antisymm
        · apply UInt8.not_lt.mp
          intro longer
          have agree := same ceiling' (UInt8.le_of_lt low') (UInt8.lt_of_lt_of_le longer bound)
          exact canonical'.not_lt bound agree.symm longer
        · apply UInt8.not_lt.mp
          intro shorter
          have agree := same ceiling (UInt8.le_of_lt low) (UInt8.lt_of_lt_of_le shorter bound')
          exact canonical.not_lt bound' agree shorter
      subst ceilings
      rcases UInt8.lt_or_eq_of_le bound with inside | top
      · rw [ih (canonical.tail inside) (canonical'.tail inside)]
        intro byte passed below
        have agree := same byte (UInt8.le_trans (UInt8.le_of_lt low) passed) below
        rwa [targetAt_cons, if_neg (UInt8.not_lt.mpr passed), targetAt_cons, if_neg (UInt8.not_lt.mpr passed)]
          at agree
      · subst top
        rw [canonical.eq_nil, canonical'.eq_nil]

end CanonicalRuns

theorem Canonical.represents (canonical : table.Canonical) : table.Represents table.lookup where
  toCanonical := canonical
  step byte _ := step_eq_lookup canonical.formed byte

/-- Ceilings ascend, so only the first range can be one that holds no byte. -/
theorem runs_cases (formed : table.WellFormed) :
    table.runs = table.filledRuns ∨ ∃ target, table.runs = (0, target) :: table.filledRuns := by
  have ascending := ((wellFormed_iff table).mp formed).2.1
  rw [← ceilings_eq_runs formed] at ascending
  unfold filledRuns
  generalize table.runs = runs at ascending ⊢
  cases runs with
  | nil => exact Or.inl rfl
  | cons run rest =>
    obtain ⟨ceiling, target⟩ := run
    have filled : rest.filter (·.1 ≠ 0) = rest := by
      apply List.filter_eq_self.mpr
      intro other member
      have above : ceiling < other.1 := List.rel_of_pairwise_cons ascending (List.mem_map_of_mem member)
      have positive : other.1 ≠ 0 := fun zero => UInt8.not_lt.mpr UInt8.zero_le (zero ▸ above)
      exact decide_eq_true positive
    by_cases empty : ceiling = 0
    · rw [List.filter_cons_of_neg (by simpa using empty), filled, empty]
      exact Or.inr ⟨target, rfl⟩
    · rw [List.filter_cons_of_pos (by simpa using empty), filled]
      exact Or.inl rfl

theorem targetAt_filledRuns (formed : table.WellFormed) (byte : UInt8) :
    targetAt table.filledRuns byte = table.lookup byte := by
  rw [lookup_eq_targetAt formed]
  rcases runs_cases formed with same | ⟨target, same⟩
  · rw [← same]
  · rw [same, targetAt_cons, if_neg (UInt8.not_lt.mpr UInt8.zero_le)]

theorem Canonical.canonicalRuns (canonical : table.Canonical) : CanonicalRuns table.filledRuns 0 := by
  have ascends := ((wellFormed_iff table).mp canonical.formed).2
  have apart := canonical.apart
  rw [← ceilings_eq_runs canonical.formed] at ascends
  rw [← steps_eq_runs canonical.formed] at apart
  have positive : ∀ run ∈ table.filledRuns, 0 < run.1 := by
    intro run member
    have filled : run.1 ≠ 0 := by simpa using (List.mem_filter.mp member).2
    exact UInt8.pos_iff_ne_zero.mpr filled
  rcases runs_cases canonical.formed with same | ⟨target, same⟩
  · rw [same] at ascends apart
    exact ⟨ascends, apart, positive⟩
  · rw [same] at ascends apart
    exact ⟨ascends.tail (show (0 : UInt8) < byteCeiling by decide), apart.tail, positive⟩

/-- Where a canonical table leads the bytes settles all ranges that hold one. -/
theorem Canonical.filledRuns_eq (canonical : left.Canonical) (canonical' : right.Canonical)
    (same : ∀ byte < byteCeiling, left.step byte = right.step byte) : left.filledRuns = right.filledRuns := by
  apply canonical.canonicalRuns.eq_of_targetAt_eq canonical'.canonicalRuns
  intro byte _ below
  have agree := same byte below
  rw [step_eq_lookup canonical.formed, step_eq_lookup canonical'.formed, Except.ok.injEq] at agree
  rw [targetAt_filledRuns canonical.formed, targetAt_filledRuns canonical'.formed, agree]

theorem runs_eq_filledRuns (filled : 0 ∉ table.ceilings) : table.runs = table.filledRuns := by
  symm
  apply List.filter_eq_self.mpr
  intro run member
  apply decide_eq_true
  intro zero
  exact filled (zero ▸ (List.of_mem_zip member).1)

theorem Canonical.ranges_eq (canonical : left.Canonical) (canonical' : right.Canonical)
    (same : ∀ byte < byteCeiling, left.step byte = right.step byte) (filled : 0 ∉ left.ceilings)
    (filled' : 0 ∉ right.ceilings) : left.ceilings = right.ceilings ∧ left.steps = right.steps := by
  have runs : left.runs = right.runs := by
    rw [runs_eq_filledRuns filled, runs_eq_filledRuns filled', canonical.filledRuns_eq canonical' same]
  rw [← ceilings_eq_runs canonical.formed, ← ceilings_eq_runs canonical'.formed, ← steps_eq_runs canonical.formed,
    ← steps_eq_runs canonical'.formed, runs]
  exact ⟨rfl, rfl⟩

/-! ## Making and changing tables -/

theorem represents_always (target : Target) : (always target).Represents fun _ => target where
  formed := wellFormed_always target
  apart := List.isChain_singleton target
  step byte below := by rw [step_always, if_pos below]

theorem represents_setDefault (table : Table) (target : Target) :
    (table.setDefault target).Represents fun _ => target where
  formed := wellFormed_setDefault table target
  apart := List.isChain_singleton target
  step byte below := by
    rw [step_eq_lookup (wellFormed_setDefault table target), lookup_setDefault, if_pos below]

/-- Listing ascending bytes below the ceiling is no fault. -/
theorem withMappings_eq (fallback : Target) {entries : List (UInt8 × Target)}
    (ascending : (entries.map (·.1)).Pairwise (· < ·)) (below : ∀ entry ∈ entries, entry.1 < byteCeiling) :
    withMappings fallback (entries.map (·.1)) (entries.map (·.2)) = .ok (mapping fallback entries) := by
  have even : (entries.map (·.1)).length = (entries.map (·.2)).length := by simp
  have ordered : ((entries.map (·.1)).zip (entries.map (·.1)).tail).any (fun pair => pair.2 ≤ pair.1) = false := by
    have all := (all_adjacent_iff _).mpr ascending
    rw [List.any_eq_false]
    intro pair member
    have less := List.all_eq_true.mp all pair member
    simpa using less
  have inside : (entries.map (·.1)).find? (byteCeiling ≤ ·) = none := by
    rw [List.find?_eq_none]
    intro byte member
    obtain ⟨entry, listed, rfl⟩ := List.mem_map.mp member
    simpa using below entry listed
  have zipped : (entries.map (·.1)).zip (entries.map (·.2)) = entries := by
    simp [List.zip_map']
  simp only [withMappings, even, ordered, inside, zipped, ne_eq, not_true_eq_false, Bool.false_eq_true, ↓reduceIte]
  rfl

theorem represents_mapping (fallback : Target) {entries : List (UInt8 × Target)}
    (ascending : (entries.map (·.1)).Pairwise (· < ·)) :
    (mapping fallback entries).Represents fun byte => (entries.lookup byte).getD fallback where
  formed := wellFormed_mapping fallback entries
  apart := (packed_mapping fallback entries).apart
  step byte below := by
    rw [step_eq_lookup (wellFormed_mapping fallback entries), Except.ok.injEq]
    cases found : entries.lookup byte with
    | none =>
      apply lookup_mapping_of_not_mem fallback _ below
      intro listed
      obtain ⟨entry, member, rfl⟩ := List.mem_map.mp listed
      simpa using List.lookup_eq_none_iff.mp found entry member
    | some target =>
      obtain ⟨before, after, rfl, _⟩ := List.lookup_eq_some_iff.mp found
      exact lookup_mapping_of_mem fallback (ascending.imp UInt8.ne_of_lt) (by simp) below

theorem Represents.lookup (represents : table.Represents leads) (below : byte < byteCeiling) :
    table.lookup byte = leads byte :=
  lookup_of_step (represents.step byte below)

theorem setStep_eq (formed : table.WellFormed) (below : byte < byteCeiling) (target : Target) :
    table.setStep byte target = .ok (table.override byte target) := by
  simp only [setStep, if_neg (UInt8.not_le.mpr below), unpack_eq formed, override, cells_eq formed]
  rfl

theorem Represents.override (represents : table.Represents leads) (below : byte < byteCeiling) (target : Target) :
    (table.override byte target).Represents (Function.update leads byte target) where
  formed := wellFormed_override represents.formed byte target
  apart := (packed_override table byte target).apart
  step other inside := by
    rw [step_eq_lookup (wellFormed_override represents.formed byte target),
      lookup_override represents.formed below, represents.lookup inside, Function.update_apply]

/-- A byte below the ceiling lies in some range, so the map need not keep nowhere in place. -/
theorem lookup_mapTargets (formed : table.WellFormed) (name : Target → Target) (below : byte < byteCeiling) :
    (table.mapTargets name).lookup byte = name (table.lookup byte) := by
  have last := List.mem_of_getLast? ((wellFormed_iff table).mp formed).2.2
  rw [← ceilings_eq_runs formed] at last
  obtain ⟨run, listed, top⟩ := List.mem_map.mp last
  rw [lookup_eq_targetAt formed, lookup_eq_targetAt (wellFormed_mapTargets formed name),
    ← targetAt_map_of_below name ⟨run, listed, top.symm ▸ below⟩]
  simp only [mapTargets, runs, List.zip_map_right]
  rfl

/-- Packing what was unpacked leads every byte where it went before. -/
theorem lookup_withCells_of_unpack (formed : table.WellFormed) {cells : List Target}
    (unpacked : table.unpack = .ok cells) (below : byte < byteCeiling) :
    (table.withCells cells).lookup byte = table.lookup byte := by
  have same : table.cells = cells := by simp only [Table.cells, unpacked]
  rw [lookup_withCells table (length_unpack unpacked) below, ← same, getElem?_cells formed below, Option.join_some]

theorem Represents.rename (represents : table.Represents leads) (name : Target → Target) :
    ∃ renamed, table.rename name = .ok renamed ∧ renamed.Represents fun byte => name (leads byte) := by
  have plain := wellFormed_mapTargets represents.formed name
  obtain ⟨renamed, named, formed, _⟩ := rename_eq represents.formed name
  refine ⟨renamed, named, ⟨formed, apart_rename named⟩, ?_⟩
  intro byte below
  rw [step_eq_lookup formed, Except.ok.injEq, ← represents.lookup below,
    ← lookup_mapTargets represents.formed name below]
  rcases rename_cases named with ⟨cells, unpacked, rfl⟩ | ⟨rfl, _⟩
  · exact lookup_withCells_of_unpack plain unpacked below
  · rfl

/-- Unpacking lists the steps of all bytes, and packed cells are unpacked again. Where a canonical table leads the bytes
settles its ranges, apart from a first one that holds no byte. New, default and listed tables, and canonical tables that
are changed at one byte, reset or renamed, are canonical and lead the bytes where they are meant to. -/
theorem canonical_represents :
    (∀ table : Table, table.WellFormed → ∃ cells, table.unpack = .ok cells ∧ cells.length = tableWidth ∧
      ∀ byte < byteCeiling, ∃ target, table.step byte = .ok target ∧ cells[byte.toNat]? = some target) ∧
    (∀ (table : Table) (cells : List Target), cells.length = tableWidth →
      (table.withCells cells).Canonical ∧ (table.withCells cells).unpack = .ok cells) ∧
    (∀ left right : Table, left.Canonical → right.Canonical →
      (∀ byte < byteCeiling, left.step byte = right.step byte) → left.filledRuns = right.filledRuns ∧
        (0 ∉ left.ceilings → 0 ∉ right.ceilings → left.ceilings = right.ceilings ∧ left.steps = right.steps)) ∧
    empty.Represents (fun _ => none) ∧
    (∀ target, (always target).Represents fun _ => target) ∧
    (∀ (fallback : Target) (entries : List (UInt8 × Target)), (entries.map (·.1)).Pairwise (· < ·) →
      (∀ entry ∈ entries, entry.1 < byteCeiling) →
      ∃ table, withMappings fallback (entries.map (·.1)) (entries.map (·.2)) = .ok table ∧
        table.Represents fun byte => (entries.lookup byte).getD fallback) ∧
    ∀ (table : Table) (leads : UInt8 → Target), table.Represents leads →
      (∀ byte < byteCeiling, ∀ target, ∃ changed, table.setStep byte target = .ok changed ∧
        changed.Represents (Function.update leads byte target)) ∧
      (∀ target, (table.setDefault target).Represents fun _ => target) ∧
      ∀ name : Target → Target, ∃ renamed, table.rename name = .ok renamed ∧
        renamed.Represents fun byte => name (leads byte) := by
  refine ⟨?_, ?_, ?_, represents_always none, represents_always, ?_, ?_⟩
  · intro table formed
    exact exists_unpack formed
  · intro table cells full
    exact ⟨canonical_withCells table full, unpack_withCells table full⟩
  · intro left right canonical canonical' same
    exact ⟨canonical.filledRuns_eq canonical' same, canonical.ranges_eq canonical' same⟩
  · intro fallback entries ascending below
    exact ⟨_, withMappings_eq fallback ascending below, represents_mapping fallback ascending⟩
  · intro table leads represents
    refine ⟨?_, represents_setDefault table, represents.rename⟩
    intro byte below target
    exact ⟨_, setStep_eq represents.formed below target, represents.override below target⟩

/-- The first range holds no byte, so its step is never taken. -/
def idleStart : Table where
  ceilings := [0, 0x61, byteCeiling]
  steps := [some 1, some 2, none]

theorem canonical_idleStart : idleStart.Canonical where
  formed := by decide
  apart := by decide

theorem canonical_represents_idleStart :
    ∃ cells table changed renamed, idleStart.unpack = .ok cells ∧ cells.length = tableWidth ∧
      (empty.withCells cells).unpack = .ok cells ∧ (empty.withCells cells).filledRuns = idleStart.filledRuns ∧
      withMappings (some 9) [0, valueTerminator] [some 1, some 9] = .ok table ∧
      table.step valueTerminator = .ok (some 9) ∧ table.step 0x61 = .ok (some 9) ∧
      idleStart.setStep 0 none = .ok changed ∧ changed.step 0 = .ok none ∧
      idleStart.rename (fun _ => some 2) = .ok renamed ∧ renamed.filledRuns = (always (some 2)).filledRuns := by
  obtain ⟨unpacking, packing, settled, _, constant, listing, changing⟩ := canonical_represents
  obtain ⟨cells, unpacked, full, steps⟩ := unpacking idleStart canonical_idleStart.formed
  obtain ⟨packed, again⟩ := packing empty cells full
  obtain ⟨_, cellsAgain, _, stepsAgain⟩ := unpacking _ packed.formed
  obtain ⟨table, listed, represents⟩ :=
    listing (some 9) [(0, some 1), (valueTerminator, some 9)] (by decide) (by decide)
  obtain ⟨overriding, _, naming⟩ := changing idleStart _ canonical_idleStart.represents
  obtain ⟨changed, made, leads⟩ := overriding 0 (by decide) none
  obtain ⟨renamed, named, leadsToTwo⟩ := naming fun _ => some 2
  refine ⟨cells, table, changed, renamed, unpacked, full, again, ?_, listed, represents.step _ (by decide),
    represents.step _ (by decide), made, leads.step 0 (by decide), named, ?_⟩
  · apply (settled _ _ packed canonical_idleStart _).1
    intro byte below
    obtain ⟨target, stepped, cell⟩ := steps byte below
    obtain ⟨targetAgain, steppedAgain, cellAgain⟩ := stepsAgain byte below
    cases again.symm.trans cellsAgain
    rw [stepped, steppedAgain, Option.some.inj (cell.symm.trans cellAgain)]
  · apply (settled _ _ leadsToTwo.toCanonical (constant (some 2)).toCanonical _).1
    intro byte below
    rw [leadsToTwo.step byte below, (constant (some 2)).step byte below]

/-- The table without its first range. -/
def idleStartLeftOut : Table where
  ceilings := [0x61, byteCeiling]
  steps := [some 2, none]

/-- Both tables are canonical and lead every byte to the same target, and yet they list different ranges. -/
theorem canonical_ranges_differ :
    idleStart.Canonical ∧ idleStartLeftOut.Canonical ∧
      (∀ byte < byteCeiling, idleStart.step byte = idleStartLeftOut.step byte) ∧
      ¬ (idleStart.ceilings = idleStartLeftOut.ceilings ∧ idleStart.steps = idleStartLeftOut.steps) := by
  have canonical : idleStartLeftOut.Canonical := ⟨by decide, by decide⟩
  refine ⟨canonical_idleStart, canonical, ?_, by decide⟩
  intro byte _
  rw [step_eq_targetAt canonical_idleStart.formed, step_eq_targetAt canonical.formed]
  change Except.ok (targetAt ((0, some 1) :: idleStartLeftOut.runs) byte) = _
  rw [targetAt_cons, if_neg (UInt8.not_lt.mpr UInt8.zero_le)]

end ByteAutomata.Table
