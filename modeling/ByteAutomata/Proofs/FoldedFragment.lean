import ByteAutomata.Fragment.Folded
import ByteAutomata.Proofs.Growth
import ByteAutomata.Proofs.Relocation

/-!
Fragments that follow their own steps while they are built.

Some builders go on from the states that new states lead to already. These are new themselves, or the
target of the whole fragment, so only new states are changed.
-/

namespace ByteAutomata.Arena

/-- Byte steps of the states from `kept` on lead to such states or to `goal`. -/
def LeadsBack (arena : Arena) (kept : Nat) (goal : Target) : Prop :=
  ∀ id state, kept ≤ id → arena.get? id = some state → ∀ next, some next ∈ state.table.steps →
    kept ≤ next ∨ some next = goal

variable {arena base : Arena} {kept node after : StateId} {goal next : Target}

theorem leadsBack_of_size_le (arena : Arena) (goal : Target) : arena.LeadsBack arena.size goal :=
  fun _ _ new found => absurd (lt_size_of_get? found) (Nat.not_lt.mpr new)

theorem LeadsBack.pushTable (leads : arena.LeadsBack kept goal) {table : Table}
    (steps : ∀ next, some next ∈ table.steps → kept ≤ next ∨ some next = goal) :
    (arena.pushTable table).1.LeadsBack kept goal := by
  intro id state new found
  rw [Arena.pushTable, get?_push] at found
  by_cases last : id = arena.size
  · rw [if_pos last, Option.some.injEq] at found
    exact found ▸ steps
  · rw [if_neg last] at found
    exact leads id state new found

theorem LeadsBack.pushEmpty (leads : arena.LeadsBack kept goal) :
    arena.pushEmpty.1.LeadsBack kept goal :=
  leads.pushTable (by simp [Table.empty, Table.always])

theorem LeadsBack.modifyTable (leads : arena.LeadsBack kept goal) {change : Table → Table}
    (steps : ∀ state, arena.get? node = some state → ∀ next,
      some next ∈ (change state.table).steps → some next ∉ state.table.steps →
        kept ≤ next ∨ some next = goal) :
    (arena.modifyTable node change).LeadsBack kept goal := by
  intro id state new found
  rw [get?_modifyTable] at found
  by_cases same : node = id
  · rw [if_pos same] at found
    obtain ⟨original, stored, rfl⟩ := Option.map_eq_some_iff.mp found
    intro next listed
    by_cases earlier : some next ∈ original.table.steps
    · exact leads id original new stored next earlier
    · exact steps original (same ▸ stored) next listed earlier
  · rw [if_neg same] at found
    exact leads id state new found

/-! ## Paths -/

theorem addPath_cons (arena : Arena) (node after : StateId) (byte second : UInt8)
    (rest : List UInt8) :
    arena.addPath node after (byte :: second :: rest) =
      match (arena.get? node).bind (·.table.lookup byte) with
      | some child => arena.addPath child after (second :: rest)
      | none =>
        (arena.pushEmpty.1.modifyTable node (·.override byte (some arena.size))).addPath arena.size
          after (second :: rest) := by
  rw [addPath]
  · rfl
  · intro same
    cases same

theorem addPath_extends (formed : arena.WellFormed) (leads : arena.LeadsBack kept none)
    (new : kept ≤ node) (inside : node < arena.size) (newAfter : kept ≤ after)
    (insideAfter : after < arena.size) (bytes : List UInt8) :
    Extends kept arena (arena.addPath node after bytes) ∧
      (arena.addPath node after bytes).LeadsBack kept none := by
  have override {arena : Arena} (formed : arena.WellFormed) (leads : arena.LeadsBack kept none)
      {node target : StateId} (new : kept ≤ node) (newTarget : kept ≤ target)
      (inside : target < arena.size) (byte : UInt8) :
      Extends kept arena (arena.modifyTable node (·.override byte (some target))) ∧
        (arena.modifyTable node (·.override byte (some target))).LeadsBack kept none := by
    refine ⟨formed.extends_modify new _ fun state found => (formed.fits found).override byte
      (targetWithin_some inside), leads.modifyTable ?_⟩
    intro state found id listed other
    rcases Table.mem_steps_override (formed.fits found).table byte _ listed with here | earlier
    · exact Or.inl (Option.some.inj here ▸ newTarget)
    · exact absurd earlier other
  induction bytes generalizing arena node with
  | nil => exact ⟨.refl _ formed, leads⟩
  | cons byte rest ih =>
    cases rest with
    | nil => exact override formed leads new newAfter insideAfter byte
    | cons second rest =>
      rw [addPath_cons]
      cases led : (arena.get? node).bind (·.table.lookup byte) with
      | some child =>
        obtain ⟨state, found, lookup⟩ := Option.bind_eq_some_iff.mp led
        have fits := formed.fits found
        have back := leads node state new found child (Table.lookup_mem_steps fits.table lookup)
        exact ih formed leads (back.resolve_right (by simp)) (fits.lookup_lt lookup) insideAfter
      | none =>
        have pushed := formed.grows_pushEmpty
        have newChild : kept ≤ arena.size := le_trans new (le_of_lt inside)
        obtain ⟨modified, back⟩ :=
          override pushed.extends_.formed leads.pushEmpty new newChild pushed.entry byte
        have grown := (pushed.extends_.mono newChild).trans modified
        obtain ⟨rest, backRest⟩ := ih modified.formed back newChild
          (lt_of_lt_of_le pushed.entry modified.size) (grown.lt insideAfter)
        exact ⟨grown.trans rest, backRest⟩

theorem addPath_above (base arena : Arena) (node after : StateId) (bytes : List UInt8) :
    (base.above arena).addPath (base.size + node) (base.size + after) bytes =
      base.above (arena.addPath node after bytes) := by
  induction bytes generalizing arena node with
  | nil => rfl
  | cons byte rest ih =>
    cases rest with
    | nil =>
      exact modifyTable_above base arena node fun table =>
        Table.override_raise table byte (some after)
    | cons second rest =>
      have led : ((base.above arena).get? (base.size + node)).bind (·.table.lookup byte) =
          Target.raise base.size ((arena.get? node).bind (·.table.lookup byte)) := by
        rw [get?_above]
        cases arena.get? node with
        | none => rfl
        | some state => exact Table.lookup_raise state.table byte
      rw [addPath_cons, addPath_cons, led]
      cases (arena.get? node).bind (·.table.lookup byte) with
      | some child => exact ih arena child
      | none =>
        simp only [Target.raise_none, pushEmpty_above, raised, size_above]
        rw [modifyTable_above base _ node fun table => Table.override_raise table byte (some _), ih]

/-! ## Texts in any case -/

variable [Unicode.Database]

theorem fillFolded_cons (arena : Arena) (current : StateId) (next : Target) (rune : Char)
    (rest : List Char) :
    arena.fillFolded current next (rune :: rest) =
      ((Unicode.caseVariants rune).foldl (fun built variant =>
        built.addPath current arena.size (String.utf8EncodeChar variant)) arena.pushEmpty.1).fillFolded
          arena.size next rest :=
  rfl

theorem fillFolded_extends (formed : arena.WellFormed) (leads : arena.LeadsBack kept none)
    {current : StateId} (new : kept ≤ current) (inside : current < arena.size)
    (within : arena.TargetWithin next) (text : List Char) :
    Extends kept arena (arena.fillFolded current next text) := by
  induction text generalizing arena current with
  | nil =>
    exact formed.extends_modify new _ fun state found => (formed.fits found).override _ within
  | cons rune rest ih =>
    have pushed := formed.grows_pushEmpty
    have newAfter : kept ≤ arena.size := le_trans new (le_of_lt inside)
    let Built (built : Arena) : Prop :=
      Extends kept arena.pushEmpty.1 built ∧ built.LeadsBack kept none
    have paths : Built ((Unicode.caseVariants rune).foldl (fun built variant =>
        built.addPath current arena.size (String.utf8EncodeChar variant)) arena.pushEmpty.1) := by
      refine List.foldlRecOn _ _ ⟨.refl _ pushed.extends_.formed, leads.pushEmpty⟩ ?_
      intro built before variant _
      obtain ⟨extends_, back⟩ := before
      obtain ⟨step, after⟩ := addPath_extends extends_.formed back new
        (extends_.lt (pushed.extends_.lt inside)) newAfter (extends_.lt pushed.entry)
        (String.utf8EncodeChar variant)
      exact ⟨extends_.trans step, after⟩
    obtain ⟨extends_, back⟩ := paths
    have grown := (pushed.extends_.mono newAfter).trans extends_
    exact grown.trans (ih extends_.formed back newAfter (extends_.lt pushed.entry)
      (grown.within within))

theorem fillFolded_above (base arena : Arena) (current : StateId) (next : Target)
    (text : List Char) :
    (base.above arena).fillFolded (base.size + current) (next.raise base.size) text =
      base.above (arena.fillFolded current next text) := by
  induction text generalizing arena current with
  | nil =>
    exact modifyTable_above base arena current fun table => Table.override_raise table _ next
  | cons rune rest ih =>
    simp only [fillFolded, pushEmpty_above, raised]
    rw [← ih]
    have folded (variants : List Char) (built : Arena) :
        variants.foldl (fun built variant => built.addPath (base.size + current)
          (base.size + arena.pushEmpty.2) (String.utf8EncodeChar variant)) (base.above built) =
        base.above (variants.foldl (fun built variant => built.addPath current arena.pushEmpty.2
          (String.utf8EncodeChar variant)) built) := by
      induction variants generalizing built with
      | nil => rfl
      | cons variant rest ih => rw [List.foldl_cons, List.foldl_cons, addPath_above, ih]
    rw [folded]

theorem pushFolded_grows (formed : arena.WellFormed) (text : List Char)
    (inside : arena.TargetWithin next) : arena.Grows (arena.pushFolded text next) := by
  have pushed := formed.grows_pushEmpty
  have filled := fillFolded_extends pushed.extends_.formed
    (leadsBack_of_size_le arena none).pushEmpty (Nat.le_refl arena.size) pushed.entry
    (pushed.extends_.within inside) text
  exact ⟨pushed.extends_.trans filled, filled.lt pushed.entry⟩

theorem pushFolded_above (base arena : Arena) (text : List Char) (next : Target) :
    (base.above arena).pushFolded text (next.raise base.size) =
      base.raised (arena.pushFolded text next) := by
  unfold pushFolded
  rw [pushEmpty_above]
  exact congrArg (·, base.size + arena.size) (fillFolded_above base _ arena.size next text)

end ByteAutomata.Arena
