import ByteAutomata.Proofs.UnionRelocation

/-!
Packed tables.

A table is packed if two neighbouring ranges never lead to the same target and the lowest range holds a
byte. Every operation on byte steps packs the table that it makes, and changes of epsilons and spinouts
leave the ranges alone. So the tables of an arena stay packed, whether it is well-formed or not.
-/

namespace ByteAutomata

namespace Table

/-- Neighbouring ranges lead to different targets and the lowest one is not empty. -/
structure Packed (table : Table) : Prop where
  apart : table.steps.IsChain (· ≠ ·)
  positive : 0 ∉ table.ceilings

/-- Ceilings and steps of a packed table, in either direction. -/
structure PackedRuns (runs : List (UInt8 × Target)) : Prop where
  apart : (runs.map (·.2)).IsChain (· ≠ ·)
  positive : 0 ∉ runs.map (·.1)

theorem packed_always (target : Target) : (always target).Packed :=
  ⟨List.isChain_singleton target, by simp [always, byteCeiling]⟩

theorem packed_empty : empty.Packed := packed_always none

theorem packed_splice (targets : List Target) : ({ Table.empty with epsilons := targets } : Table).Packed :=
  ⟨packed_empty.apart, packed_empty.positive⟩

theorem packed_setDefault (table : Table) (target : Target) : (table.setDefault target).Packed :=
  ⟨List.isChain_singleton target, by simp [setDefault, byteCeiling]⟩

/-! ## Packing -/

theorem runsFrom_head (floor : Nat) (last : Target) (cells : List Target) :
    ∃ ceiling rest, runsFrom floor last cells = (ceiling, last) :: rest := by
  induction cells generalizing floor with
  | nil => exact ⟨byteCeiling, [], rfl⟩
  | cons target rest ih =>
    by_cases same : target = last
    · rw [runsFrom, if_pos same]
      exact ih (floor + 1)
    · rw [runsFrom, if_neg same]
      exact ⟨_, _, rfl⟩

/-- Behind the first byte a range ends above 0, as long as the number of its ceiling is that of a byte. -/
theorem packedRuns_runsFrom (floor : Nat) (last : Target) (cells : List Target) (above : 0 < floor)
    (short : floor + cells.length ≤ 256) : PackedRuns (runsFrom floor last cells) := by
  induction cells generalizing floor last with
  | nil => exact ⟨List.isChain_singleton last, by simp [runsFrom, byteCeiling]⟩
  | cons target rest ih =>
    rw [List.length_cons] at short
    by_cases same : target = last
    · rw [runsFrom, if_pos same]
      exact ih (floor + 1) last (Nat.succ_pos floor) (by omega)
    · obtain ⟨ceiling, later, next⟩ := runsFrom_head (floor + 1) target rest
      have packed := ih (floor + 1) target (Nat.succ_pos floor) (by omega)
      rw [runsFrom, if_neg same, next]
      rw [next] at packed
      refine ⟨List.isChain_cons_cons.mpr ⟨Ne.symm same, packed.apart⟩, ?_⟩
      rw [List.map_cons, List.mem_cons]
      rintro (here | listed)
      · have zero := congrArg UInt8.toNat here
        rw [UInt8.toNat_ofNat', UInt8.toNat_zero] at zero
        omega
      · exact packed.positive listed

theorem packed_withCells (table : Table) {cells : List Target} (short : cells.length ≤ 256) :
    (table.withCells cells).Packed := by
  have packed : PackedRuns (runsFrom 0 (cells.headD none) cells) := by
    cases cells with
    | nil => exact ⟨List.isChain_singleton none, by simp [runsFrom, byteCeiling]⟩
    | cons target rest =>
      rw [runsFrom, List.headD_cons, if_pos rfl]
      rw [List.length_cons] at short
      exact packedRuns_runsFrom 1 target rest Nat.one_pos (by omega)
  exact ⟨packed.apart, packed.positive⟩

theorem length_cellsFrom {floor : Nat} {ceilings : List UInt8} {steps cells : List Target}
    (unpacked : cellsFrom floor ceilings steps = .ok cells) (inside : floor ≤ tableWidth) :
    floor + cells.length = tableWidth := by
  induction ceilings generalizing floor steps cells with
  | nil =>
    cases unpacked
    rw [List.length_replicate]
    omega
  | cons ceiling rest ih =>
    simp only [cellsFrom] at unpacked
    by_cases room : floor < min ceiling.toNat tableWidth
    · simp only [if_pos room] at unpacked
      cases steps with
      | nil => cases unpacked
      | cons target steps =>
        dsimp only at unpacked
        cases further : cellsFrom (min ceiling.toNat tableWidth) rest steps with
        | error fault =>
          rw [further] at unpacked
          cases unpacked
        | ok more =>
          rw [further] at unpacked
          cases unpacked
          have length := ih further (Nat.min_le_right _ _)
          rw [List.length_append, List.length_replicate]
          omega
    · simp only [if_neg room] at unpacked
      exact ih unpacked inside

theorem length_unpack {table : Table} {cells : List Target} (unpacked : table.unpack = .ok cells) :
    cells.length = tableWidth := by
  have length := length_cellsFrom unpacked (Nat.zero_le _)
  rwa [Nat.zero_add] at length

theorem length_cells_eq (table : Table) : table.cells.length = tableWidth := by
  unfold cells
  cases unpacked : table.unpack with
  | error fault => exact List.length_replicate
  | ok cells => exact length_unpack unpacked

theorem tableWidth_le : tableWidth ≤ 256 := by decide

theorem packed_override (table : Table) (byte : UInt8) (target : Target) :
    (table.override byte target).Packed := by
  apply packed_withCells
  rw [List.length_set, length_cells_eq]
  exact tableWidth_le

theorem packed_overrideRange (table : Table) {lo hi : UInt8} (order : lo ≤ hi) (target : Target) :
    (table.overrideRange lo hi target).Packed := by
  apply packed_withCells
  have bound := hi.toNat_lt
  have ordered := UInt8.le_iff_toNat_le.mp order
  have width := tableWidth_le
  rw [fillCells, List.length_append, List.length_append, List.length_take, List.length_replicate,
    List.length_drop, length_cells_eq]
  omega

theorem packed_mapping (fallback : Target) (entries : List (UInt8 × Target)) :
    (mapping fallback entries).Packed := by
  apply packed_withCells
  rw [length_mapping_cells, List.length_replicate]
  exact tableWidth_le

/-! ## Renaming -/

theorem isChain_of_any_eq_false {targets : List Target}
    (distinct : (targets.zip targets.tail).any (fun pair => pair.1 = pair.2) = false) :
    targets.IsChain (· ≠ ·) := by
  induction targets with
  | nil => exact List.isChain_nil
  | cons first rest ih =>
    cases rest with
    | nil => exact List.isChain_singleton first
    | cons second rest =>
      simp only [List.tail_cons, List.zip_cons_cons, List.any_cons, Bool.or_eq_false_iff,
        decide_eq_false_iff_not] at distinct
      exact List.isChain_cons_cons.mpr ⟨distinct.1, ih distinct.2⟩

theorem any_eq_false_of_isChain {targets : List Target} (apart : targets.IsChain (· ≠ ·)) :
    (targets.zip targets.tail).any (fun pair => pair.1 = pair.2) = false := by
  induction targets with
  | nil => rfl
  | cons first rest ih =>
    cases rest with
    | nil => rfl
    | cons second rest =>
      obtain ⟨different, apart⟩ := List.isChain_cons_cons.mp apart
      simp only [List.tail_cons, List.zip_cons_cons, List.any_cons, Bool.or_eq_false_iff, decide_eq_false_iff_not]
      exact ⟨different, ih apart⟩

/-- Where neighbours stay apart, renaming a table packs nothing. -/
theorem rename_of_apart {table : Table} {name : Target → Target} (apart : (table.steps.map name).IsChain (· ≠ ·)) :
    table.rename name = .ok (table.mapTargets name) := by
  rw [rename_eq_coalesce, coalesce, mapTargets, any_eq_false_of_isChain apart]
  rfl

/-- Renaming packs a table or leaves its ranges as they are. -/
theorem rename_cases {table renamed : Table} {name : Target → Target} (named : table.rename name = .ok renamed) :
    (∃ cells, (table.mapTargets name).unpack = .ok cells ∧ renamed = (table.mapTargets name).withCells cells) ∨
      renamed = table.mapTargets name ∧ renamed.steps.IsChain (· ≠ ·) := by
  rw [rename_eq_coalesce, coalesce] at named
  split at named
  · cases cells : (table.mapTargets name).unpack with
    | error fault =>
      rw [cells] at named
      cases named
    | ok listed =>
      rw [cells] at named
      cases named
      exact Or.inl ⟨listed, rfl, rfl⟩
  · rename_i distinct
    cases named
    exact Or.inr ⟨rfl, isChain_of_any_eq_false (Bool.eq_false_of_not_eq_true distinct)⟩

/-- Neighbours that came to lead to the same target are joined. -/
theorem apart_rename {table renamed : Table} {name : Target → Target} (named : table.rename name = .ok renamed) :
    renamed.steps.IsChain (· ≠ ·) := by
  rcases rename_cases named with ⟨cells, unpacked, rfl⟩ | ⟨_, apart⟩
  · exact (packed_withCells _ (length_unpack unpacked ▸ tableWidth_le)).apart
  · exact apart

theorem Packed.rename {table renamed : Table} (packed : table.Packed) {name : Target → Target}
    (named : table.rename name = .ok renamed) : renamed.Packed := by
  refine ⟨apart_rename named, ?_⟩
  rcases rename_cases named with ⟨cells, unpacked, rfl⟩ | ⟨rfl, _⟩
  · exact (packed_withCells _ (length_unpack unpacked ▸ tableWidth_le)).positive
  · exact packed.positive

theorem Packed.raise {table : Table} (packed : table.Packed) (below : Nat) : (table.raise below).Packed where
  apart := by
    change (table.steps.map (Target.raise below)).IsChain (· ≠ ·)
    rw [List.isChain_map]
    exact packed.apart.imp fun _ _ different same => different (Target.raise_injective below same)
  positive := packed.positive

/-! ## Ranges one by one -/

/-- Growing a table range by range keeps neighbours apart. -/
theorem PackedRuns.extend {runs : List (UInt8 × Target)} (packed : PackedRuns runs) {ceiling : UInt8}
    (above : ceiling ≠ 0) (target : Target) : PackedRuns (extendRuns ceiling target runs) := by
  cases runs with
  | nil => exact ⟨List.isChain_singleton target, by simpa [extendRuns] using above.symm⟩
  | cons run rest =>
    have positive := packed.positive
    rw [List.map_cons, List.mem_cons, not_or] at positive
    by_cases same : run.2 = target
    · subst same
      refine ⟨by simpa [extendRuns] using packed.apart, ?_⟩
      simp only [extendRuns, ↓reduceIte, List.map_cons, List.mem_cons, not_or]
      exact ⟨above.symm, positive.2⟩
    · simp only [extendRuns, same, ↓reduceIte]
      refine ⟨List.isChain_cons_cons.mpr ⟨Ne.symm same, packed.apart⟩, ?_⟩
      rw [List.map_cons, List.mem_cons, not_or]
      exact ⟨above.symm, packed.positive⟩

theorem packedRuns_nil : PackedRuns [] := ⟨List.isChain_nil, by simp⟩

/-- Ranges that were listed from the topmost down make a packed table. -/
theorem PackedRuns.withRuns {runs : List (UInt8 × Target)} (packed : PackedRuns runs) (table : Table) :
    (table.withRuns runs.reverse).Packed := by
  constructor
  · change (runs.reverse.map (·.2)).IsChain (· ≠ ·)
    rw [List.map_reverse, List.isChain_reverse]
    exact packed.apart.imp fun _ _ different => Ne.symm different
  · change 0 ∉ runs.reverse.map (·.1)
    rw [List.map_reverse, List.mem_reverse]
    exact packed.positive

theorem Packed.ne_zero {table : Table} (packed : table.Packed) : ∀ run ∈ table.runs, run.1 ≠ 0 := by
  intro run listed zero
  exact packed.positive (zero ▸ (List.of_mem_zip listed).1)

end Table

namespace Arena

/-- All tables of the arena are packed. -/
def Packed (arena : Arena) : Prop :=
  ∀ id state, arena.get? id = some state → state.table.Packed

variable {arena : Arena}

theorem packed_empty : ({} : Arena).Packed := by
  intro id state found
  simp [get?] at found

namespace Packed

theorem push (packed : arena.Packed) {state : State} (table : state.table.Packed) :
    (arena.push state).1.Packed := by
  intro id other found
  rw [get?_push] at found
  split at found
  · cases found
    exact table
  · exact packed id other found

theorem pushTable (packed : arena.Packed) {table : Table} (new : table.Packed) :
    (arena.pushTable table).1.Packed :=
  packed.push new

theorem pushEmpty (packed : arena.Packed) : arena.pushEmpty.1.Packed :=
  packed.push Table.packed_empty

theorem pushMatch (packed : arena.Packed) (x : Continuation) : (arena.pushMatch x).1.Packed :=
  packed.push Table.packed_empty

theorem pushSplice (packed : arena.Packed) (targets : List Target) :
    (arena.pushSplice targets).1.Packed :=
  packed.push (Table.packed_splice targets)

theorem modifyTable (packed : arena.Packed) (id : StateId) {change : Table → Table}
    (new : ∀ table : Table, table.Packed → (change table).Packed) :
    (arena.modifyTable id change).Packed := by
  intro other state found
  rw [get?_modifyTable] at found
  split at found
  · obtain ⟨original, there, rfl⟩ := Option.map_eq_some_iff.mp found
    exact new _ (packed other original there)
  · exact packed other state found

theorem override (packed : arena.Packed) (id : StateId) (byte : UInt8) (target : Target) :
    (arena.modifyTable id (·.override byte target)).Packed :=
  packed.modifyTable id fun table _ => table.packed_override byte target

theorem setEpsilons (packed : arena.Packed) (id : StateId) (targets : List Target) :
    (arena.setEpsilons id targets).Packed :=
  packed.modifyTable id fun _ table => ⟨table.apart, table.positive⟩

theorem setSpinout (packed : arena.Packed) (id : StateId) (target : Target) :
    (arena.setSpinout id target).Packed :=
  packed.modifyTable id fun _ table => ⟨table.apart, table.positive⟩

theorem put (packed : arena.Packed) (id : StateId) {state : State} (new : state.table.Packed) :
    (arena.put id state).Packed := by
  intro other found there
  by_cases same : id = other
  · subst same
    have inside : id < arena.size := size_put arena id state ▸ lt_size_of_get? there
    rw [get?_put_self inside] at there
    cases there
    exact new
  · rw [get?_put_of_ne arena state same] at there
    exact packed other found there

theorem above {base : Arena} (below : base.Packed) (packed : arena.Packed) : (base.above arena).Packed := by
  refine forall_above base (fun id inside state found => ?_) fun id state found => ?_
  · rw [get?_above_of_lt arena inside] at found
    exact below id state found
  · rw [get?_above] at found
    obtain ⟨original, there, rfl⟩ := Option.map_eq_some_iff.mp found
    exact (packed id original there).raise base.size

end Packed

end Arena

/-! ## Unions -/

namespace Joining

variable {joining after : Joining}

theorem packed_name (packed : joining.arena.Packed) (a b : StateId) {state : State}
    (table : state.table.Packed) : (joining.name a b state).1.arena.Packed :=
  packed.push table

theorem packed_resolvePair (packed : joining.arena.Packed) {a b id : StateId}
    (resolved : joining.resolvePair a b = .ok (after, id)) : after.arena.Packed := by
  rcases resolvePair_cases resolved with ⟨rfl, _⟩ | ⟨_, rfl | ⟨rfl, _⟩⟩
  · exact packed
  · exact packed_name packed a b Table.packed_empty
  · exact packed_name packed a b (Table.packed_splice _)

theorem packed_resolve (packed : joining.arena.Packed) {a b target : Target}
    (resolved : joining.resolve a b = .ok (after, target)) : after.arena.Packed := by
  rcases resolve_cases resolved with ⟨rfl, _⟩ | ⟨_, _, _, _, _, _, ran⟩
  · exact packed
  · exact packed_resolvePair packed ran

theorem packed_resolveRanges (packed : joining.arena.Packed) {runs filled as bs : List (UInt8 × Target)}
    (built : Table.PackedRuns runs) (positiveA : ∀ run ∈ as, run.1 ≠ 0) (positiveB : ∀ run ∈ bs, run.1 ≠ 0)
    (resolved : joining.resolveRanges runs as bs = .ok (after, filled)) :
    after.arena.Packed ∧ Table.PackedRuns filled := by
  fun_induction Joining.resolveRanges joining runs as bs with
  | case1 joining runs bs =>
    cases resolved
    exact ⟨packed, built⟩
  | case2 joining runs as nonempty =>
    cases resolved
    exact ⟨packed, built⟩
  | case3 joining runs ceilingA a restA ceilingB b restB ihA ihB ihBoth =>
    obtain ⟨⟨middle, target⟩, stepped, resolved⟩ := Checked.exists_of_bind_eq_ok resolved
    have kept := packed_resolve packed stepped
    have aboveA := positiveA _ List.mem_cons_self
    have aboveB := positiveB _ List.mem_cons_self
    have restPositiveA := fun run listed => positiveA run (List.mem_cons_of_mem _ listed)
    have restPositiveB := fun run listed => positiveB run (List.mem_cons_of_mem _ listed)
    dsimp only at resolved
    split at resolved
    · exact ihA middle target kept (built.extend aboveA target) restPositiveA positiveB resolved
    · split at resolved
      · exact ihB middle target kept (built.extend aboveB target) positiveA restPositiveB resolved
      · exact ihBoth middle target kept (built.extend aboveA target) restPositiveA restPositiveB resolved

theorem packed_fill (packed : joining.arena.Packed) {pairing : Pairing}
    (filled : joining.fill pairing = .ok after) : after.arena.Packed := by
  obtain ⟨left, foundLeft, filled⟩ := Checked.exists_of_bind_eq_ok filled
  obtain ⟨right, foundRight, filled⟩ := Checked.exists_of_bind_eq_ok filled
  obtain ⟨⟨middle, spinout⟩, spun, filled⟩ := Checked.exists_of_bind_eq_ok filled
  obtain ⟨⟨last, runs⟩, ranged, filled⟩ := Checked.exists_of_bind_eq_ok filled
  have tableLeft := packed _ left (Arena.get_eq_ok_iff.mp foundLeft)
  have tableRight := packed _ right (Arena.get_eq_ok_iff.mp foundRight)
  obtain ⟨kept, built⟩ := packed_resolveRanges (packed_resolve packed spun) Table.packedRuns_nil
    tableLeft.ne_zero tableRight.ne_zero ranged
  cases filled
  exact kept.put _ (built.withRuns _)

theorem packed_run (packed : joining.arena.Packed) {rounds : Nat}
    (ran : Joining.run rounds joining = .ok after) : after.arena.Packed := by
  induction rounds generalizing joining with
  | zero =>
    cases ran
    exact packed
  | succ rounds ih =>
    cases left : joining.pending with
    | nil =>
      simp only [Joining.run, left] at ran
      cases ran
      exact packed
    | cons pairing rest =>
      simp only [Joining.run, left] at ran
      obtain ⟨middle, filled, ran⟩ := Checked.exists_of_bind_eq_ok ran
      have kept : ({ joining with pending := rest } : Joining).arena.Packed := packed
      exact ih (packed_fill kept filled) ran

end Joining

theorem Arena.Packed.union {arena joined : Arena} {a b start : Target} (packed : arena.Packed)
    (united : arena.union a b = .ok (joined, start)) : joined.Packed := by
  obtain ⟨⟨middle, first⟩, resolved, rounds⟩ := Checked.exists_of_bind_eq_ok united
  obtain ⟨after, ran, same⟩ := Checked.exists_of_bind_eq_ok rounds
  cases same
  have begins : ({ arena } : Joining).arena.Packed := packed
  exact Joining.packed_run (Joining.packed_resolve begins resolved) ran

end ByteAutomata
