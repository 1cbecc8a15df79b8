import ByteAutomata.Proofs.TableRuns

/-!
Tables as one target per byte.

Unpacking a well-formed table lists what `lookup` gives for each byte, and packing such a list yields a
well-formed table that looks up the listed targets. Every way to change a table goes through these
two, so each of them is described here by the lookups it leaves.
-/

namespace ByteAutomata.Table

theorem lt_byteCeiling_iff (byte : UInt8) : byte < byteCeiling ↔ byte.toNat < tableWidth :=
  UInt8.lt_iff_toNat_lt

theorem toNat_ofNat_of_lt_width {place : Nat} (inside : place < tableWidth) :
    (UInt8.ofNat place).toNat = place :=
  UInt8.toNat_ofNat_of_lt (Nat.lt_trans inside (by decide))

/-! ## Unpacking -/

theorem targetAt_cons_ofNat (ceiling : UInt8) (target : Target) (runs : List (UInt8 × Target)) {place : Nat}
    (inside : place < tableWidth) :
    targetAt ((ceiling, target) :: runs) (UInt8.ofNat place) =
      if place < ceiling.toNat then target else targetAt runs (UInt8.ofNat place) := by
  rw [targetAt_cons]
  simp only [UInt8.lt_iff_toNat_lt, toNat_ofNat_of_lt_width inside]

/-- Consecutive places, cut in two. -/
theorem range'_split {floor ceiling top : Nat} (low : floor ≤ ceiling) (high : ceiling ≤ top) :
    List.range' floor (top - floor) =
      List.range' floor (ceiling - floor) ++ List.range' ceiling (top - ceiling) := by
  have joined := @List.range'_append_1 floor (ceiling - floor) (top - ceiling)
  rw [Nat.add_sub_cancel' low] at joined
  rw [joined]
  congr 1
  omega

theorem cellsFrom_eq (floor : Nat) (ceilings : List UInt8) (steps : List Target)
    (even : ceilings.length = steps.length) (bounded : ∀ ceiling ∈ ceilings, ceiling ≤ byteCeiling)
    (inside : floor ≤ tableWidth) :
    cellsFrom floor ceilings steps = .ok ((List.range' floor (tableWidth - floor)).map
      fun place => targetAt (ceilings.zip steps) (UInt8.ofNat place)) := by
  induction ceilings generalizing floor steps with
  | nil =>
    simp only [cellsFrom, List.zip_nil_left, targetAt_nil, List.map_const', List.length_range']
  | cons ceiling ceilings ih =>
    cases steps with
    | nil => simp at even
    | cons target steps =>
      have even' : ceilings.length = steps.length := by simpa using even
      have bounded' : ∀ other ∈ ceilings, other ≤ byteCeiling := fun other member =>
        bounded other (List.mem_cons_of_mem _ member)
      have top : min ceiling.toNat tableWidth = ceiling.toNat := by
        have bound := bounded ceiling List.mem_cons_self
        rw [UInt8.le_iff_toNat_le] at bound
        exact Nat.min_eq_left bound
      have topInside : ceiling.toNat ≤ tableWidth := by omega
      simp only [cellsFrom, top, List.zip_cons_cons]
      by_cases grows : floor < ceiling.toNat
      · rw [if_pos grows, ih ceiling.toNat steps even' bounded' topInside,
          range'_split (Nat.le_of_lt grows) topInside, List.map_append]
        simp only [Functor.map, Except.map, Except.ok.injEq]
        congr 1
        · rw [eq_comm, List.eq_replicate_iff]
          refine ⟨by simp, ?_⟩
          intro cell member
          obtain ⟨place, listed, rfl⟩ := List.mem_map.mp member
          rw [List.mem_range'_1] at listed
          rw [targetAt_cons_ofNat _ _ _ (by omega), if_pos (by omega)]
        · apply List.map_congr_left
          intro place listed
          rw [List.mem_range'_1] at listed
          rw [targetAt_cons_ofNat _ _ _ (by omega), if_neg (by omega)]
      · rw [if_neg grows, List.tail_cons, ih floor steps even' bounded' inside]
        congr 1
        apply List.map_congr_left
        intro place listed
        rw [List.mem_range'_1] at listed
        rw [targetAt_cons_ofNat _ _ _ (by omega), if_neg (by omega)]

/-- Unpacking a well-formed table lists its lookups. -/
theorem unpack_eq {table : Table} (formed : table.WellFormed) :
    table.unpack =
      .ok ((List.range tableWidth).map fun place => table.lookup (UInt8.ofNat place)) := by
  obtain ⟨even, ascends⟩ := (wellFormed_iff table).mp formed
  rw [unpack, cellsFrom_eq 0 _ _ even ascends.le_byteCeiling (Nat.zero_le _), List.range_eq_range']
  simp only [Nat.sub_zero, lookup_eq_targetAt formed]
  rfl

theorem cells_eq {table : Table} (formed : table.WellFormed) :
    table.cells = (List.range tableWidth).map fun place => table.lookup (UInt8.ofNat place) := by
  simp only [cells, unpack_eq formed]

theorem length_cells {table : Table} (formed : table.WellFormed) :
    table.cells.length = tableWidth := by
  simp [cells_eq formed]

theorem getElem?_cells {table : Table} (formed : table.WellFormed) {byte : UInt8}
    (below : byte < byteCeiling) : table.cells[byte.toNat]? = some (table.lookup byte) := by
  rw [lt_byteCeiling_iff] at below
  simp [cells_eq formed, below]

theorem mem_cells {table : Table} (formed : table.WellFormed) {id : StateId}
    (member : some id ∈ table.cells) : some id ∈ table.steps := by
  rw [cells_eq formed] at member
  obtain ⟨place, _, led⟩ := List.mem_map.mp member
  exact lookup_mem_steps formed led

/-! ## Packing -/

theorem targetAt_runsFrom (floor : Nat) (last : Target) (cells : List Target) (byte : UInt8)
    (full : floor + cells.length = tableWidth) (below : byte < byteCeiling) :
    targetAt (runsFrom floor last cells) byte =
      if byte.toNat < floor then last else (cells[byte.toNat - floor]?).join := by
  have inside := (lt_byteCeiling_iff byte).mp below
  induction cells generalizing floor last with
  | nil =>
    have whole : floor = tableWidth := by simpa using full
    rw [runsFrom, targetAt_cons, if_pos below, if_pos (whole ▸ inside)]
  | cons target rest ih =>
    have full' : floor + 1 + rest.length = tableWidth := by
      simp only [List.length_cons] at full
      omega
    have shifted (later : ¬ byte.toNat < floor + 1) :
        (target :: rest)[byte.toNat - floor]? = rest[byte.toNat - (floor + 1)]? := by
      rw [show byte.toNat - floor = byte.toNat - (floor + 1) + 1 by omega, List.getElem?_cons_succ]
    by_cases same : target = last
    · rw [runsFrom, if_pos same, ih (floor + 1) last full']
      by_cases before : byte.toNat < floor
      · rw [if_pos before, if_pos (by omega)]
      · by_cases here : byte.toNat < floor + 1
        · rw [if_pos here, if_neg before, show byte.toNat - floor = 0 by omega]
          simp [same]
        · rw [if_neg here, if_neg before, shifted here]
    · have low := toNat_ofNat_of_lt_width (show floor < tableWidth by omega)
      rw [runsFrom, if_neg same, targetAt_cons, ih (floor + 1) target full']
      by_cases before : byte.toNat < floor
      · rw [if_pos before, if_pos (UInt8.lt_iff_toNat_lt.mpr (low.symm ▸ before))]
      · rw [if_neg before, if_neg (fun less => before (low ▸ UInt8.lt_iff_toNat_lt.mp less))]
        by_cases here : byte.toNat < floor + 1
        · rw [if_pos here, show byte.toNat - floor = 0 by omega]
          simp
        · rw [if_neg here, shifted here]

theorem ascends_runsFrom (floor : Nat) (last : Target) (cells : List Target)
    (full : floor + cells.length ≤ tableWidth) :
    Ascends ((runsFrom floor last cells).map (·.1)) ∧
      ∀ run ∈ runsFrom floor last cells, floor ≤ run.1.toNat := by
  induction cells generalizing floor last with
  | nil =>
    have bound : floor ≤ tableWidth := by omega
    refine ⟨⟨by simp [runsFrom], rfl⟩, ?_⟩
    intro run member
    rw [runsFrom, List.mem_singleton] at member
    exact member ▸ bound
  | cons target rest ih =>
    have full' : floor + 1 + rest.length ≤ tableWidth := by
      simp only [List.length_cons] at full
      omega
    by_cases same : target = last
    · rw [runsFrom, if_pos same]
      obtain ⟨ascends, bound⟩ := ih (floor + 1) last full'
      exact ⟨ascends, fun run member => Nat.le_of_succ_le (bound run member)⟩
    · rw [runsFrom, if_neg same]
      obtain ⟨⟨ascending, top⟩, bound⟩ := ih (floor + 1) target full'
      have low := toNat_ofNat_of_lt_width (show floor < tableWidth by omega)
      refine ⟨⟨?_, ?_⟩, ?_⟩
      · rw [List.map_cons, List.pairwise_cons]
        refine ⟨?_, ascending⟩
        intro ceiling member
        obtain ⟨run, listed, rfl⟩ := List.mem_map.mp member
        rw [UInt8.lt_iff_toNat_lt, low]
        exact bound run listed
      · rw [List.map_cons, List.getLast?_cons, top]
        rfl
      · intro run member
        rcases List.mem_cons.mp member with first | later
        · exact first ▸ low.ge
        · exact Nat.le_of_succ_le (bound run later)

theorem mem_runsFrom (floor : Nat) (last : Target) (cells : List Target) :
    ∀ run ∈ runsFrom floor last cells, run.2 = last ∨ run.2 ∈ cells := by
  induction cells generalizing floor last with
  | nil => simp [runsFrom]
  | cons target rest ih =>
    intro run member
    by_cases same : target = last
    · rw [runsFrom, if_pos same] at member
      rcases ih (floor + 1) last run member with first | later
      · exact Or.inl first
      · exact Or.inr (List.mem_cons_of_mem _ later)
    · rw [runsFrom, if_neg same] at member
      rcases List.mem_cons.mp member with first | member
      · exact Or.inl (by rw [first])
      · rcases ih (floor + 1) target run member with here | later
        · exact Or.inr (by simp [here])
        · exact Or.inr (List.mem_cons_of_mem _ later)

@[simp] theorem epsilons_withCells (table : Table) (cells : List Target) :
    (table.withCells cells).epsilons = table.epsilons := rfl

@[simp] theorem spinout_withCells (table : Table) (cells : List Target) :
    (table.withCells cells).spinout = table.spinout := rfl

theorem wellFormed_withCells (table : Table) (cells : List Target)
    (full : cells.length ≤ tableWidth) : (table.withCells cells).WellFormed := by
  rw [withCells, wellFormed_withRuns]
  exact (ascends_runsFrom 0 _ cells (by omega)).1

theorem lookup_withCells (table : Table) {cells : List Target} (full : cells.length = tableWidth)
    {byte : UInt8} (below : byte < byteCeiling) :
    (table.withCells cells).lookup byte = (cells[byte.toNat]?).join := by
  rw [lookup_eq_targetAt (wellFormed_withCells table cells (by omega)), withCells, runs_withRuns,
    targetAt_runsFrom 0 _ cells byte (by omega) below, if_neg (by omega), Nat.sub_zero]

theorem mem_steps_withCells (table : Table) (cells : List Target) {id : StateId}
    (member : some id ∈ (table.withCells cells).steps) : some id ∈ cells := by
  simp only [withCells, withRuns] at member
  obtain ⟨run, listed, same⟩ := List.mem_map.mp member
  rcases mem_runsFrom 0 _ cells run listed with first | later
  · rw [first] at same
    cases cells with
    | nil => simp at same
    | cons target rest => simp only [List.headD_cons] at same; simp [same]
  · exact same ▸ later

/-! ## Changing byte steps -/

theorem getElem?_fillCells (cells : List Target) (lo hi place : Nat) (target : Target)
    (inside : hi < cells.length) (order : lo ≤ hi + 1) :
    (fillCells cells lo hi target)[place]? =
      if lo ≤ place ∧ place ≤ hi then some target else cells[place]? := by
  simp only [fillCells, List.append_assoc, List.getElem?_append, List.length_take,
    List.length_replicate, List.getElem?_take, List.getElem?_replicate, List.getElem?_drop]
  grind

theorem length_fillCells (cells : List Target) (lo hi : Nat) (target : Target)
    (inside : hi < cells.length) (order : lo ≤ hi + 1) :
    (fillCells cells lo hi target).length = cells.length := by
  simp only [fillCells, List.length_append, List.length_take, List.length_replicate,
    List.length_drop]
  omega

theorem length_fillCells_le (cells : List Target) (lo hi : Nat) (target : Target)
    (order : lo ≤ hi + 1) (inside : hi < tableWidth) (full : cells.length = tableWidth) :
    (fillCells cells lo hi target).length ≤ tableWidth :=
  ((length_fillCells cells lo hi target (by omega) order).trans full).le

theorem wellFormed_override {table : Table} (formed : table.WellFormed) (byte : UInt8)
    (target : Target) : (table.override byte target).WellFormed :=
  wellFormed_withCells _ _ (List.length_set.trans (length_cells formed)).le

theorem lookup_override {table : Table} (formed : table.WellFormed) {byte : UInt8}
    (inside : byte < byteCeiling) (target : Target) (other : UInt8) :
    (table.override byte target).lookup other =
      if other = byte then target else table.lookup other := by
  by_cases below : other < byteCeiling
  · have bound := (lt_byteCeiling_iff other).mp below
    rw [override, lookup_withCells _ (by rw [List.length_set, length_cells formed]) below,
      List.getElem?_set]
    by_cases same : other = byte
    · subst same
      simp [length_cells formed, bound]
    · have different : byte.toNat ≠ other.toNat := fun equal => same (UInt8.toNat_inj.mp equal).symm
      simp [different, same, getElem?_cells formed below]
  · have different : other ≠ byte := fun same => below (same ▸ inside)
    rw [if_neg different, lookup_of_ceiling_le formed (UInt8.not_lt.mp below),
      lookup_of_ceiling_le (wellFormed_override formed byte target) (UInt8.not_lt.mp below)]

theorem mem_steps_override {table : Table} (formed : table.WellFormed) (byte : UInt8)
    (target : Target) {id : StateId} (member : some id ∈ (table.override byte target).steps) :
    some id = target ∨ some id ∈ table.steps := by
  rcases List.mem_or_eq_of_mem_set (mem_steps_withCells _ _ member) with listed | same
  · exact Or.inr (mem_cells formed listed)
  · exact Or.inl same

theorem wellFormed_overrideRange {table : Table} (formed : table.WellFormed) {lo hi : UInt8}
    (target : Target) (order : lo ≤ hi) (inside : hi < byteCeiling) :
    (table.overrideRange lo hi target).WellFormed := by
  rw [UInt8.le_iff_toNat_le] at order
  exact wellFormed_withCells _ _ (length_fillCells_le _ _ _ _ (by omega)
    ((lt_byteCeiling_iff hi).mp inside) (length_cells formed))

theorem lookup_overrideRange {table : Table} (formed : table.WellFormed) {lo hi : UInt8}
    (target : Target) (order : lo ≤ hi) (inside : hi < byteCeiling) (byte : UInt8) :
    (table.overrideRange lo hi target).lookup byte =
      if lo ≤ byte ∧ byte ≤ hi then target else table.lookup byte := by
  by_cases below : byte < byteCeiling
  · have full := length_cells formed
    rw [UInt8.le_iff_toNat_le] at order
    rw [lt_byteCeiling_iff] at inside
    rw [overrideRange, lookup_withCells _ (by
      rw [length_fillCells _ _ _ _ (by omega) (by omega), full]) below,
      getElem?_fillCells _ _ _ _ _ (by omega) (by omega)]
    by_cases between : lo.toNat ≤ byte.toNat ∧ byte.toNat ≤ hi.toNat
    · rw [if_pos between, if_pos (by simpa only [UInt8.le_iff_toNat_le] using between)]
      rfl
    · rw [if_neg between, if_neg (by simpa only [UInt8.le_iff_toNat_le] using between),
        getElem?_cells formed below]
      rfl
  · have outside : ¬ (lo ≤ byte ∧ byte ≤ hi) :=
      fun between => below (UInt8.lt_of_le_of_lt between.2 inside)
    rw [if_neg outside, lookup_of_ceiling_le formed (UInt8.not_lt.mp below), lookup_of_ceiling_le
      (wellFormed_overrideRange formed target order inside) (UInt8.not_lt.mp below)]

theorem mem_steps_overrideRange {table : Table} (formed : table.WellFormed) (lo hi : UInt8)
    (target : Target) {id : StateId} (member : some id ∈ (table.overrideRange lo hi target).steps) :
    some id = target ∨ some id ∈ table.steps := by
  have listed := mem_steps_withCells _ _ member
  simp only [fillCells, List.append_assoc, List.mem_append] at listed
  rcases listed with before | filled | after
  · exact Or.inr (mem_cells formed (List.mem_of_mem_take before))
  · exact Or.inl (List.eq_of_mem_replicate filled)
  · exact Or.inr (mem_cells formed (List.mem_of_mem_drop after))

@[simp] theorem wellFormed_setDefault (table : Table) (target : Target) :
    (table.setDefault target).WellFormed := by
  rfl

theorem lookup_setDefault (table : Table) (target : Target) (byte : UInt8) :
    (table.setDefault target).lookup byte = if byte < byteCeiling then target else none := by
  rw [lookup_eq_targetAt (wellFormed_setDefault table target)]
  exact targetAt_cons byteCeiling target [] byte

theorem lookup_always (target : Target) (byte : UInt8) :
    (always target).lookup byte = if byte < byteCeiling then target else none :=
  lookup_of_step (step_always target byte)

@[simp] theorem wellFormed_empty : empty.WellFormed := by
  rfl

@[simp] theorem lookup_empty (byte : UInt8) : empty.lookup byte = none := by
  rw [empty, lookup_always]
  exact ite_self none

/-- A mapping is filled in entry by entry. -/
theorem length_mapping_cells (entries : List (UInt8 × Target)) (cells : List Target) :
    (entries.foldl (fun cells entry => cells.set entry.1.toNat entry.2) cells).length =
      cells.length := by
  induction entries generalizing cells with
  | nil => rfl
  | cons entry rest ih => rw [List.foldl_cons, ih, List.length_set]

theorem mem_mapping_cells (entries : List (UInt8 × Target)) (cells : List Target) (target : Target)
    (member : target ∈ entries.foldl (fun cells entry => cells.set entry.1.toNat entry.2) cells) :
    target ∈ cells ∨ target ∈ entries.map (·.2) := by
  induction entries generalizing cells with
  | nil => exact Or.inl member
  | cons entry rest ih =>
    rw [List.foldl_cons] at member
    rcases ih _ member with listed | later
    · rcases List.mem_or_eq_of_mem_set listed with earlier | same
      · exact Or.inl earlier
      · exact Or.inr (by simp [same])
    · exact Or.inr (List.mem_cons_of_mem _ later)

theorem wellFormed_mapping (fallback : Target) (entries : List (UInt8 × Target)) :
    (mapping fallback entries).WellFormed :=
  wellFormed_withCells _ _ ((length_mapping_cells _ _).trans List.length_replicate).le

theorem mem_steps_mapping (fallback : Target) (entries : List (UInt8 × Target)) {id : StateId}
    (member : some id ∈ (mapping fallback entries).steps) :
    some id = fallback ∨ some id ∈ entries.map (·.2) := by
  rcases mem_mapping_cells _ _ _ (mem_steps_withCells _ _ member) with listed | later
  · exact Or.inl (List.eq_of_mem_replicate listed)
  · exact Or.inr later

/-- The cell of a byte that is not listed stays. -/
theorem getElem?_mapping_cells_of_not_mem {entries : List (UInt8 × Target)} {byte : UInt8}
    (unlisted : byte ∉ entries.map (·.1)) (cells : List Target) :
    (entries.foldl (fun cells entry => cells.set entry.1.toNat entry.2) cells)[byte.toNat]? =
      cells[byte.toNat]? := by
  induction entries generalizing cells with
  | nil => rfl
  | cons entry rest ih =>
    obtain ⟨other, unlisted⟩ := List.ne_and_not_mem_of_not_mem_cons unlisted
    have different : entry.1.toNat ≠ byte.toNat := fun equal => other (UInt8.toNat_inj.mp equal).symm
    rw [List.foldl_cons, ih unlisted, List.getElem?_set_ne different]

/-- The cell of a byte that is listed once holds what is listed for it. -/
theorem getElem?_mapping_cells_of_mem {entries : List (UInt8 × Target)} {byte : UInt8} {target : Target}
    (distinct : (entries.map (·.1)).Nodup) (listed : (byte, target) ∈ entries) {cells : List Target}
    (inside : byte.toNat < cells.length) :
    (entries.foldl (fun cells entry => cells.set entry.1.toNat entry.2) cells)[byte.toNat]? =
      some target := by
  induction entries generalizing cells with
  | nil => cases listed
  | cons entry rest ih =>
    obtain ⟨fresh, distinct⟩ := List.nodup_cons.mp distinct
    rcases List.mem_cons.mp listed with rfl | later
    · rw [List.foldl_cons, getElem?_mapping_cells_of_not_mem fresh, List.getElem?_set_self inside]
    · exact ih distinct later (inside.trans_eq List.length_set.symm)

theorem lookup_mapping (fallback : Target) (entries : List (UInt8 × Target)) {byte : UInt8}
    (below : byte < byteCeiling) :
    (mapping fallback entries).lookup byte =
      ((entries.foldl (fun cells entry => cells.set entry.1.toNat entry.2)
        (List.replicate tableWidth fallback))[byte.toNat]?).join := by
  rw [mapping, ofCells, lookup_withCells _ ((length_mapping_cells _ _).trans List.length_replicate) below]

theorem lookup_mapping_of_not_mem (fallback : Target) {entries : List (UInt8 × Target)} {byte : UInt8}
    (unlisted : byte ∉ entries.map (·.1)) (below : byte < byteCeiling) :
    (mapping fallback entries).lookup byte = fallback := by
  rw [lookup_mapping fallback entries below, getElem?_mapping_cells_of_not_mem unlisted,
    List.getElem?_replicate_of_lt ((lt_byteCeiling_iff byte).mp below), Option.join_some]

theorem lookup_mapping_of_mem (fallback : Target) {entries : List (UInt8 × Target)} {byte : UInt8}
    {target : Target} (distinct : (entries.map (·.1)).Nodup) (listed : (byte, target) ∈ entries)
    (below : byte < byteCeiling) : (mapping fallback entries).lookup byte = target := by
  have inside := ((lt_byteCeiling_iff byte).mp below).trans_eq (List.length_replicate (a := fallback)).symm
  rw [lookup_mapping fallback entries below, getElem?_mapping_cells_of_mem distinct listed inside,
    Option.join_some]

theorem lookup_single (byte : UInt8) (target : Target) {other : UInt8}
    (below : other < byteCeiling) :
    (single byte target).lookup other = if other = byte then target else none := by
  by_cases same : other = byte
  · subst same
    rw [if_pos rfl]
    exact lookup_mapping_of_mem none (List.nodup_singleton other) (List.mem_singleton_self _) below
  · rw [if_neg same]
    exact lookup_mapping_of_not_mem none (by simpa using same) below

/-! ## Renaming states -/

/-- Renaming a well-formed table never faults, keeps it well-formed and renames what bytes lead to. -/
theorem rename_eq {table : Table} (formed : table.WellFormed) (name : Target → Target) :
    ∃ renamed, table.rename name = .ok renamed ∧ renamed.WellFormed ∧
      renamed.epsilons = table.epsilons.map name ∧ renamed.spinout = name table.spinout ∧
      (∀ id, some id ∈ renamed.steps → some id ∈ table.steps.map name) ∧
      (name none = none → ∀ byte, renamed.lookup byte = name (table.lookup byte)) := by
  let plain : Table :=
    { ceilings := table.ceilings
      steps := table.steps.map name
      epsilons := table.epsilons.map name
      spinout := name table.spinout }
  have plainFormed : plain.WellFormed := by
    rw [wellFormed_iff] at formed ⊢
    simpa [plain] using formed
  have plainLookup (nowhere : name none = none) (byte : UInt8) :
      plain.lookup byte = name (table.lookup byte) := by
    rw [lookup_eq_targetAt plainFormed, lookup_eq_targetAt formed, ← targetAt_map _ _ _ nowhere]
    simp only [plain, Table.runs, List.zip_map_right]
    rfl
  have packedFormed := wellFormed_withCells plain plain.cells (length_cells plainFormed).le
  by_cases adjoin : (plain.steps.zip plain.steps.tail).any (fun pair => decide (pair.1 = pair.2))
  · refine ⟨plain.withCells plain.cells, ?_, packedFormed, rfl, rfl, ?_, ?_⟩
    · rw [cells_eq plainFormed]
      simp only [rename]
      rw [if_pos adjoin]
      change (plain.unpack >>= fun cells => pure (plain.withCells cells)) = _
      rw [unpack_eq plainFormed]
      rfl
    · intro id member
      exact mem_cells plainFormed (mem_steps_withCells _ _ member)
    · intro nowhere byte
      rw [← plainLookup nowhere]
      by_cases below : byte < byteCeiling
      · rw [lookup_withCells _ (length_cells plainFormed) below, getElem?_cells plainFormed below]
        rfl
      · have above : byteCeiling ≤ byte := UInt8.not_lt.mp below
        rw [lookup_of_ceiling_le packedFormed above, lookup_of_ceiling_le plainFormed above]
  · refine ⟨plain, ?_, plainFormed, rfl, rfl, fun _ member => member, plainLookup⟩
    simp only [rename]
    rw [if_neg adjoin]
    rfl

end ByteAutomata.Table
