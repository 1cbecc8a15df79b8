import ByteAutomata.Proofs.Extraction
import ByteAutomata.Proofs.PackedTables

/-!
The order of discovery in a copy.

What an exploration notes next depends only on the order in which targets come up for the first time. Packing a
table drops steps behind an equal one and with them nothing new. So states are discovered in a copy as they
were in the original, which is the order in which they stand in it. A range that holds no byte is the exception:
packing drops it whatever it leads to.
-/

namespace ByteAutomata

/-! ## What comes up for the first time -/

/-- The same targets come up in the same order, not counting repetitions. -/
def SameNews (first second : List Target) : Prop :=
  ∀ known, addMissing known first.reduceOption = addMissing known second.reduceOption

namespace SameNews

variable {first second third more : List Target}

theorem refl (targets : List Target) : SameNews targets targets := fun _ => rfl

theorem trans (same : SameNews first second) (further : SameNews second third) : SameNews first third :=
  fun known => (same known).trans (further known)

theorem append (same : SameNews first second) (further : SameNews third more) :
    SameNews (first ++ third) (second ++ more) := by
  intro known
  rw [List.reduceOption_append, List.reduceOption_append, addMissing_append, addMissing_append, same, further]

theorem cons (target : Target) (same : SameNews first second) : SameNews (target :: first) (target :: second) :=
  (refl [target]).append same

theorem repeated (target : Target) (rest : List Target) : SameNews (target :: target :: rest) (target :: rest) := by
  intro known
  cases target with
  | none => rfl
  | some id =>
    rw [List.reduceOption_cons_of_some, List.reduceOption_cons_of_some, ← List.singleton_append (l := id :: _),
      ← List.singleton_append (l := List.reduceOption rest), addMissing_append, addMissing_append, addMissing_append]
    congr 1
    exact addMissing_of_subset (by simp [mem_addMissing])

theorem replicate {count : Nat} (positive : 0 < count) (target : Target) (rest : List Target) :
    SameNews (List.replicate count target ++ rest) (target :: rest) := by
  obtain ⟨count, rfl⟩ := Nat.exists_eq_add_one_of_ne_zero (Nat.ne_of_gt positive)
  induction count with
  | zero => exact refl _
  | succ count ih =>
    rw [List.replicate_succ, List.cons_append]
    exact (cons target (ih (Nat.succ_pos _))).trans (repeated target rest)

end SameNews

namespace Table

theorem sameNews_runsFrom (floor : Nat) (last : Target) (cells : List Target) :
    SameNews ((runsFrom floor last cells).map (·.2)) (last :: cells) := by
  induction cells generalizing floor last with
  | nil => exact .refl _
  | cons target rest ih =>
    by_cases same : target = last
    · subst same
      rw [runsFrom, if_pos rfl]
      exact (ih (floor + 1) target).trans fun known => (SameNews.repeated target rest known).symm
    · rw [runsFrom, if_neg same]
      exact .cons last (ih (floor + 1) target)

theorem sameNews_withCells (table : Table) (cells : List Target) :
    SameNews (table.withCells cells).steps cells := by
  cases cells with
  | nil => exact fun known => rfl
  | cons target rest => exact (sameNews_runsFrom 0 target (target :: rest)).trans (.repeated target rest)

/-- Where every range holds a byte each step is found among the cells. -/
theorem sameNews_cellsFrom {floor : Nat} {ceilings : List UInt8} {steps cells : List Target}
    (unpacked : cellsFrom floor ceilings steps = .ok cells) (even : ceilings.length = steps.length)
    (ascending : ceilings.Pairwise (· < ·)) (above : ∀ ceiling ∈ ceilings, floor < ceiling.toNat)
    (bounded : ∀ ceiling ∈ ceilings, ceiling ≤ byteCeiling) : SameNews cells steps := by
  induction ceilings generalizing floor steps cells with
  | nil =>
    cases unpacked
    rw [List.length_eq_zero_iff.mp even.symm]
    exact fun known => congrArg (addMissing known) List.reduceOption_replicate_none
  | cons ceiling rest ih =>
    cases steps with
    | nil => cases even
    | cons target steps =>
      have room := above ceiling List.mem_cons_self
      have top : min ceiling.toNat tableWidth = ceiling.toNat :=
        Nat.min_eq_left (UInt8.le_iff_toNat_le.mp (bounded ceiling List.mem_cons_self))
      rw [List.pairwise_cons] at ascending
      simp only [cellsFrom, top, if_pos room] at unpacked
      cases further : cellsFrom ceiling.toNat rest steps with
      | error fault =>
        rw [further] at unpacked
        cases unpacked
      | ok more =>
        rw [further] at unpacked
        cases unpacked
        have later := ih further (Nat.succ.inj even) ascending.2
          (fun other listed => UInt8.lt_iff_toNat_lt.mp (ascending.1 other listed))
          fun other listed => bounded other (List.mem_cons_of_mem _ listed)
        exact (SameNews.replicate (Nat.sub_pos_of_lt room) target more).trans (.cons target later)

/-- Packing the table loses no step: its lowest range holds a byte, leads nowhere, or leads where the next one
does. -/
def Lossless (table : Table) : Prop :=
  0 ∉ table.ceilings ∨ table.steps.head? = some none ∨ table.steps.head? = table.steps[1]?

theorem sameNews_unpack {table : Table} (formed : table.WellFormed) (lossless : table.Lossless)
    {cells : List Target} (unpacked : table.unpack = .ok cells) : SameNews cells table.steps := by
  obtain ⟨even, ascends, last⟩ := (wellFormed_iff table).mp formed
  have bounded := Ascends.le_byteCeiling ⟨ascends, last⟩
  obtain ⟨ceilings, steps, _, _⟩ := table
  rw [unpack] at unpacked
  cases ceilings with
  | nil => cases last
  | cons ceiling rest =>
    have behind := List.pairwise_cons.mp ascends
    by_cases empty : ceiling = 0
    · subst empty
      cases steps with
      | nil => cases even
      | cons target steps =>
        have above : ∀ other ∈ rest, 0 < other.toNat := fun other listed =>
          UInt8.lt_iff_toNat_lt.mp (behind.1 other listed)
        have news : SameNews cells steps := sameNews_cellsFrom unpacked (Nat.succ.inj even) behind.2 above
          fun other listed => bounded other (List.mem_cons_of_mem _ listed)
        refine news.trans ?_
        rcases lossless with positive | nowhere | doubled
        · exact absurd List.mem_cons_self positive
        · obtain rfl : target = none := Option.some.inj nowhere
          exact fun known => rfl
        · cases steps with
          | nil => cases doubled
          | cons next steps =>
            obtain rfl : target = next := Option.some.inj doubled
            exact fun known => (SameNews.repeated target steps known).symm
    · have positive : 0 < ceiling.toNat := Nat.pos_of_ne_zero fun zero =>
        empty (UInt8.toNat_inj.mp (zero.trans UInt8.toNat_zero.symm))
      refine sameNews_cellsFrom unpacked even ascends (fun other listed => ?_) bounded
      rcases List.mem_cons.mp listed with rfl | later
      · exact positive
      · exact lt_trans positive (UInt8.lt_iff_toNat_lt.mp (behind.1 other later))

/-- Copying the table loses no step, for packing it loses none or it is not packed, since its neighbouring ranges lead
to different targets. -/
def Solid (table : Table) : Prop := table.Lossless ∨ table.steps.IsChain (· ≠ ·)

instance (table : Table) : Decidable table.Lossless := inferInstanceAs (Decidable (_ ∨ _))

instance (table : Table) : Decidable table.Solid := inferInstanceAs (Decidable (_ ∨ _))

theorem Packed.solid {table : Table} (packed : table.Packed) : table.Solid := Or.inl (Or.inl packed.positive)

theorem wellFormed_mapTargets {table : Table} (formed : table.WellFormed) (name : Target → Target) :
    (table.mapTargets name).WellFormed := by
  rw [wellFormed_iff] at formed ⊢
  simpa [mapTargets] using formed

theorem Lossless.mapTargets {table : Table} (lossless : table.Lossless) {name : Target → Target}
    (nowhere : name none = none) : (table.mapTargets name).Lossless := by
  refine lossless.imp_right (Or.imp (fun blank => ?_) fun doubled => ?_)
  · rw [Table.mapTargets, List.head?_map, blank, Option.map_some, nowhere]
  · rw [Table.mapTargets, List.head?_map, List.getElem?_map, doubled]

/-- Renaming a solid table one to one keeps the order in which its steps come up. -/
theorem sameNews_rename {table renamed : Table} (formed : table.WellFormed) (solid : table.Solid)
    {name : Target → Target} (nowhere : name none = none) (apart : Set.InjOn name {target | target ∈ table.steps})
    (named : table.rename name = .ok renamed) : SameNews renamed.steps (table.steps.map name) := by
  rcases solid with lossless | distinct
  · rcases rename_cases named with ⟨cells, unpacked, rfl⟩ | ⟨rfl, _⟩
    · exact (sameNews_withCells _ cells).trans
        (sameNews_unpack (wellFormed_mapTargets formed name) (lossless.mapTargets nowhere) unpacked)
    · exact .refl _
  · have kept : (table.steps.map name).IsChain (· ≠ ·) := by
      rw [List.isChain_map]
      exact distinct.imp_of_mem_imp fun first second listed listedToo different same =>
        different (apart listed listedToo same)
    rw [rename_of_apart kept] at named
    cases named
    exact .refl _

end Table

/-! ## Explorations of copies -/

theorem State.successors_none (state : State) : state.successors none = state.targets.reduceOption := by
  rw [successors]
  induction state.targets with
  | nil => rfl
  | cons target rest ih => cases target <;> simpa [List.reduceOption] using ih

namespace Arena

variable {arena copied source target : Arena} {start next : StateId} {ids all other : List StateId}
  {rename : StateId → StateId} {found : Discovery} {avoid : Target}

/-- An exploration has one course. -/
theorem Explores.unique (first : arena.Explores avoid next ids all) (second : arena.Explores avoid next ids other) :
    all = other := by
  induction first with
  | done whole =>
    cases second with
    | done _ => rfl
    | expand listed _ _ => exact absurd (List.getElem?_eq_some_iff.mp listed).1 (Nat.not_lt.mpr whole)
  | expand listed stored _ ih =>
    cases second with
    | done whole => exact absurd (List.getElem?_eq_some_iff.mp listed).1 (Nat.not_lt.mpr whole)
    | expand listedToo storedToo later =>
      obtain rfl := Option.some.inj (listed.symm.trans listedToo)
      obtain rfl := Option.some.inj (stored.symm.trans storedToo)
      exact ih later

/-- Where each state adds in the copy what it adds in the original, an exploration of the copies takes the same
course. -/
theorem Explores.map (explores : source.Explores none next ids all) {known : List StateId}
    (inside : ∀ id ∈ ids, id ∈ known)
    (copies : ∀ id ∈ known, ∃ state copy, source.get? id = some state ∧ target.get? (rename id) = some copy ∧
      (∀ further ∈ state.successors none, further ∈ known) ∧
      ∀ before : List StateId, (∀ id ∈ before, id ∈ known) →
        addMissing (before.map rename) (copy.successors none) =
          (addMissing before (state.successors none)).map rename) :
    target.Explores none next (ids.map rename) (all.map rename) := by
  induction explores with
  | done whole => exact .done (by rwa [List.length_map])
  | @expand next ids all id state listed stored _ ih =>
    obtain ⟨original, copy, there, copied, further, adds⟩ := copies id (inside id (List.mem_of_getElem? listed))
    obtain rfl := Option.some.inj (stored.symm.trans there)
    refine .expand (by rw [List.getElem?_map, listed, Option.map_some]) copied ?_
    rw [adds ids inside]
    refine ih fun other member => ?_
    rcases (mem_addMissing _ _ _).mp member with early | led
    · exact inside other early
    · exact further other led

namespace Extracted

/-- What a state adds in the copy is what it adds in the original. -/
theorem addMissing_successors (extracted : arena.Extracted start copied found ids) (formed : arena.WellFormed)
    (solid : ∀ id ∈ ids, ∀ state, arena.get? id = some state → state.table.Solid) :
    ∀ id ∈ ids, ∃ state copy, arena.get? id = some state ∧ copied.get? (placeOf found id) = some copy ∧
      (∀ further ∈ state.successors none, further ∈ ids) ∧
      ∀ before : List StateId, (∀ id ∈ before, id ∈ ids) →
        addMissing (before.map (placeOf found)) (copy.successors none) =
          (addMissing before (state.successors none)).map (placeOf found) := by
  intro id listed
  obtain ⟨place, at_, _⟩ := extracted.exists_place listed
  obtain ⟨state, copy, stored, copied, copies, named⟩ := extracted.copies place id at_
  have further (next : StateId) (led : some next ∈ state.targets) : next ∈ ids :=
    extracted.explored.mem_of_target listed stored led
  have renamed : ∀ target ∈ state.targets, placeName found target = target.map (placeOf found) := by
    intro target led
    cases target with
    | none => rfl
    | some next => exact extracted.placeName_eq_placeOf (further next led)
  have apart : Set.InjOn (placeName found) {target | target ∈ state.table.steps} := by
    intro first member second memberToo same
    have led : first ∈ state.targets := by simp [State.targets, show first ∈ state.table.steps from member]
    have ledToo : second ∈ state.targets := by simp [State.targets, show second ∈ state.table.steps from memberToo]
    rw [renamed first led, renamed second ledToo] at same
    cases first with
    | none => exact (Option.map_eq_none_iff.mp same.symm).symm
    | some first =>
      obtain ⟨second, rfl, equal⟩ := Option.map_eq_some_iff.mp same.symm
      exact congrArg some (extracted.injOn_placeOf (further first led) (further second ledToo) equal.symm)
  have news : SameNews copy.targets (state.targets.map (Option.map (placeOf found))) := by
    rw [← List.map_congr_left renamed, State.targets, State.targets, List.map_append, List.map_append,
      copies.epsilons, copies.spinout]
    exact ((Table.sameNews_rename (formed.fits stored).table (solid id listed state stored) rfl apart named).append
      (.refl _)).append (.refl _)
  refine ⟨state, copy, stored, extracted.placeOf_eq at_ ▸ copied, fun next led => ?_, fun before inside => ?_⟩
  · exact further next (State.mem_successors.mp led).1
  · rw [State.successors_none, State.successors_none, news, List.reduceOption_map]
    exact addMissing_map extracted.injOn_placeOf inside fun next led => further next (List.reduceOption_mem_iff.mp led)

theorem map_placeOf (extracted : arena.Extracted start copied found ids) :
    ids.map (placeOf found) = List.range copied.size := by
  refine List.ext_getElem? fun place => ?_
  rw [List.getElem?_map, extracted.size]
  by_cases inside : place < ids.length
  · have at_ := List.getElem?_eq_getElem inside
    rw [at_, Option.map_some, extracted.placeOf_eq at_, List.getElem?_range inside]
  · rw [List.getElem?_eq_none (Nat.not_lt.mp inside), Option.map_none,
      List.getElem?_eq_none (by simpa using Nat.not_lt.mp inside)]

/-- States are discovered in the copy in the order in which they stand there. -/
theorem explores_copied (extracted : arena.Extracted start copied found ids) (formed : arena.WellFormed)
    (solid : ∀ id ∈ ids, ∀ state, arena.get? id = some state → state.table.Solid) :
    copied.Explores none 0 [0] (List.range copied.size) := by
  have first : ∀ id ∈ [start], id ∈ ids := by
    simpa using List.mem_of_getElem? extracted.explored.first
  have mapped := extracted.explores.map first (extracted.addMissing_successors formed solid)
  rwa [List.map_singleton, extracted.placeOf_start, extracted.map_placeOf] at mapped

end Extracted

end Arena

end ByteAutomata
