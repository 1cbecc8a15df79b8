import ByteAutomata.Proofs.ByteFragments
import ByteAutomata.Proofs.FoldedFragment
import ByteAutomata.Proofs.FragmentRelocation
import ByteAutomata.Proofs.PackedTables
import ByteAutomata.Proofs.Templates

/-!
Fragments are built of packed tables.

Each builder adds states with packed tables and changes its own states by operations that pack, so an
arena of packed tables remains one.
-/

namespace ByteAutomata

namespace Arena.Packed

variable {arena : Arena}

/-! ## Byte patterns -/

theorem pushChain (packed : arena.Packed) (bytes : List UInt8) (last : StateId) :
    (arena.pushChain bytes last).1.Packed := by
  induction bytes with
  | nil => exact packed
  | cons byte rest ih =>
    rw [pushChain_cons]
    exact ih.pushTable (Table.packed_mapping _ _)

theorem pushExact (packed : arena.Packed) (bytes : List UInt8) (next : Target) :
    (arena.pushExact bytes next).1.Packed :=
  (packed.pushTable (Table.packed_mapping _ _)).pushChain bytes _

theorem pushLeading (packed : arena.Packed) (bytes : List UInt8) (next : Target) :
    (arena.pushLeading bytes next).1.Packed :=
  (packed.pushTable (Table.packed_always next)).pushChain bytes _

theorem fillGlob (packed : arena.Packed) (current : StateId) (next : Target)
    (tokens : List GlobToken) : (arena.fillGlob current next tokens).Packed := by
  fun_induction Arena.fillGlob arena current next tokens with
  | case1 arena current => exact packed.override _ _ _
  | case2 arena current byte rest grown after pushed ih =>
    have new : grown.Packed := by
      rw [show grown = arena.pushEmpty.1 from congrArg Prod.fst pushed.symm]
      exact packed.pushEmpty
    exact ih (new.override _ _ _)
  | case3 arena current => exact packed.modifyTable _ fun table _ => table.packed_setDefault next
  | case4 arena current rest longer ih => exact ih (packed.setSpinout _ _)

theorem pushGlob (packed : arena.Packed) (tokens : List GlobToken) (next : Target) :
    (arena.pushGlob tokens next).1.Packed :=
  packed.pushEmpty.fillGlob _ next tokens

theorem pushExcluding (packed : arena.Packed) (next : Target) (depth : Nat)
    (values : List (List UInt8)) : (Arena.pushExcluding next depth arena values).1.Packed := by
  induction depth generalizing arena values with
  | zero => exact packed.pushTable (Table.packed_always next)
  | succ depth ih =>
    have step (built : Arena × List (UInt8 × Target)) (group : UInt8 × List (List UInt8))
        (before : built.1.Packed) : (addChild next depth built group).1.Packed := by
      unfold addChild
      dsimp only
      split <;> split
      · exact (before.pushTable (Table.packed_always next)).override _ _ _
      · exact (ih before _).override _ _ _
      · exact before.pushTable (Table.packed_always next)
      · exact ih before _
    have children : ((groupByFirst values).foldl (addChild next depth) (arena, [])).1.Packed :=
      List.foldlRecOn _ (addChild next depth) (motive := fun built => built.1.Packed) packed
        fun built before group _ => step built group before
    rw [pushExcluding_succ]
    exact children.pushTable (Table.packed_mapping _ _)

theorem pushComplement (packed : arena.Packed) (excluded : List (List UInt8)) (next : Target) :
    (arena.pushComplement excluded next).1.Packed :=
  packed.pushExcluding next _ _

theorem addPath (packed : arena.Packed) (node after : StateId) (bytes : List UInt8) :
    (arena.addPath node after bytes).Packed := by
  induction bytes generalizing arena node with
  | nil => exact packed
  | cons byte rest ih =>
    cases rest with
    | nil => exact packed.override _ _ _
    | cons second rest =>
      rw [addPath_cons]
      split
      · exact ih packed _
      · exact ih (packed.pushEmpty.override _ _ _) _

theorem fillFolded [Unicode.Database] (packed : arena.Packed) (current : StateId) (next : Target) (text : List Char) :
    (arena.fillFolded current next text).Packed := by
  induction text generalizing arena current with
  | nil => exact packed.override _ _ _
  | cons rune rest ih =>
    refine ih ?_ _
    exact List.foldlRecOn _ _ packed.pushEmpty fun built before variant _ => before.addPath _ _ _

theorem pushFolded [Unicode.Database] (packed : arena.Packed) (text : List Char) (next : Target) :
    (arena.pushFolded text next).1.Packed :=
  packed.pushEmpty.fillFolded _ next text

end Arena.Packed

/-! ## Runes -/

namespace RuneTrie

variable {trie : RuneTrie}

theorem packed_setRange (packed : trie.arena.Packed) (node : StateId) {lo hi : UInt8} (order : lo ≤ hi)
    (target : Target) : (trie.setRange node lo hi target).arena.Packed :=
  packed.modifyTable node fun table _ => table.packed_overrideRange order target

theorem packed_tail (packed : trie.arena.Packed) (length : Nat) : (trie.tail length).1.arena.Packed := by
  induction length with
  | zero => exact packed
  | succ length ih =>
    cases known : trie.tails[length]? with
    | some id =>
      rw [tail_eq_of_known known]
      exact packed
    | none =>
      rw [tail_eq_of_unknown known rfl]
      exact ih.pushTable (Table.packed_overrideRange _ (by decide) _)

theorem packed_withChild (packed : trie.arena.Packed) (node : StateId) (byte : UInt8) {table : Table}
    (new : table.Packed) : (trie.withChild node byte table).arena.Packed :=
  (packed.pushTable new).override _ _ _

theorem packed_child (packed : trie.arena.Packed) (node : StateId) (byte : UInt8) :
    (trie.child node byte).1.arena.Packed := by
  rw [child_eq]
  split
  · exact packed_withChild packed node byte Table.packed_empty
  · rename_i existing _
    split
    · refine packed_withChild packed node byte ?_
      cases found : trie.arena.get? existing with
      | none => exact Table.packed_empty
      | some state => exact packed existing state found
    · exact packed

theorem packed_addFrom (packed : trie.arena.Packed) (node : StateId) (bytes : List UInt8) :
    (trie.addFrom node bytes).arena.Packed := by
  induction bytes generalizing trie node with
  | nil => exact packed
  | cons byte rest ih =>
    cases rest with
    | nil => exact packed_setRange packed _ (UInt8.le_refl _) _
    | cons second rest =>
      have grown := ih (packed_child packed node byte) (trie.child node byte).2
      rw [addFrom_cons]
      split
      · rename_i less
        exact packed_setRange (packed_tail grown _) _ ((succ_le_iff less).mpr less) _
      · exact grown

theorem packed_addUpTo (packed : trie.arena.Packed) (node : StateId) (bytes : List UInt8) :
    (trie.addUpTo node bytes).arena.Packed := by
  induction bytes generalizing trie node with
  | nil => exact packed
  | cons byte rest ih =>
    cases rest with
    | nil => exact packed_setRange packed _ (UInt8.le_refl _) _
    | cons second rest =>
      have kept := packed_child packed node byte
      rw [addUpTo_cons]
      split
      · rename_i less
        exact ih (packed_setRange (packed_tail kept _) _ ((le_pred_iff less).mpr less) _) _
      · exact ih kept _

theorem packed_addBetween (packed : trie.arena.Packed) (node : StateId) (lows highs : List UInt8) :
    (trie.addBetween node lows highs).arena.Packed := by
  induction lows generalizing trie node highs with
  | nil => cases highs <;> exact packed
  | cons low lows ih =>
    cases highs with
    | nil => exact packed
    | cons high highs =>
      simp only [addBetween]
      split
      · split
        · exact packed_setRange packed _ (UInt8.le_refl _) _
        · exact ih (packed_child packed _ _) _ _
      · refine packed_addUpTo ?_ _ _
        have grown := packed_addFrom packed node (low :: lows)
        split
        · rename_i less
          have positive : (0 : UInt8) < high := UInt8.lt_of_le_of_lt UInt8.zero_le less
          exact packed_setRange (packed_tail grown _) _ ((le_pred_iff positive).mpr less) _
        · exact grown

theorem packed_addInterval (packed : trie.arena.Packed) (root : StateId) (interval : RuneInterval) :
    (addInterval root trie interval).arena.Packed :=
  List.foldlRecOn (parts interval) _ (motive := fun trie : RuneTrie => trie.arena.Packed) packed
    fun _ before _ _ => packed_addBetween before _ _ _

end RuneTrie

namespace Arena

variable {arena : Arena}

theorem Packed.pushRuneTrie (packed : arena.Packed) (set : RuneSet) (next : Target) :
    (arena.pushRuneTrie set next).1.Packed :=
  List.foldlRecOn set.simplify (RuneTrie.addInterval arena.size)
    (motive := fun trie : RuneTrie => trie.arena.Packed) packed.pushEmpty
    fun _ before interval _ => RuneTrie.packed_addInterval before _ interval

theorem Packed.pushRange (packed : arena.Packed) {lo hi : UInt8} (order : lo ≤ hi) (target : Target) :
    (arena.pushRange lo hi target).1.Packed :=
  packed.pushTable (Table.packed_overrideRange _ order _)

theorem packed_withRanges {table : Table} (packed : table.Packed) {ranges : List (UInt8 × UInt8 × Target)}
    (ordered : ∀ range ∈ ranges, range.1 ≤ range.2.1) : (withRanges table ranges).Packed :=
  List.foldlRecOn _ _ packed fun _ _ range listed => Table.packed_overrideRange _ (ordered range listed) _

theorem Packed.pushAnyRune (packed : arena.Packed) (next : Target) :
    (arena.pushAnyRune next).1.Packed := by
  refine Packed.pushTable (Packed.pushRange (Packed.pushRange (Packed.pushRange (Packed.pushRange
    (Packed.pushRange (Packed.pushRange (Packed.pushRange packed ?_ _) ?_ _) ?_ _) ?_ _) ?_ _) ?_ _) ?_ _)
    (packed_withRanges Table.packed_empty ?_)
  all_goals simp

/-! ## Copies -/

theorem Packed.pushTables (packed : arena.Packed) {tables : List Table}
    (new : ∀ table ∈ tables, table.Packed) : (arena.pushTables tables).Packed :=
  List.foldlRecOn _ _ packed fun _ before table listed => before.pushTable (new table listed)

end Arena

/-- The tables of a template are packed. -/
def Template.Packed (template : Template) : Prop := ∀ table ∈ template.tables, table.Packed

theorem Arena.Packed.graft {arena built : Arena} (packed : arena.Packed) {template : Template}
    (tables : template.Packed) {next entry : Target} (grafted : template.graft arena next = .ok (built, entry)) :
    built.Packed := by
  obtain ⟨renamed, computed, same⟩ := Checked.exists_of_bind_eq_ok grafted
  cases same
  refine packed.pushTables fun copy listed => ?_
  obtain ⟨table, member, renamed⟩ := Checked.exists_item_of_mapM computed listed
  exact (tables table member).rename renamed

/-- What is captured in a packed arena is packed. -/
theorem Arena.Packed.capture {arena : Arena} (packed : arena.Packed) {entry exit : Target} {template : Template}
    (captured : Template.capture arena entry exit = .ok template) : template.Packed := by
  obtain ⟨found, tables, computed, same⟩ : ∃ (found : Discovery) (tables : List Table),
      (found.order.toList.mapM fun id => do
        (← arena.get id).table.rename (Template.localName found exit) : Checked _) = .ok tables ∧
      template.tables = tables := by
    unfold Template.capture at captured
    by_cases same : entry = exit
    · rw [if_pos same] at captured
      obtain ⟨found, _, captured⟩ := Checked.exists_of_bind_eq_ok captured
      obtain ⟨tables, computed, made⟩ := Checked.exists_of_bind_eq_ok captured
      cases made
      exact ⟨found, tables, computed, rfl⟩
    · rw [if_neg same] at captured
      obtain ⟨id, _, captured⟩ := Checked.exists_of_bind_eq_ok captured
      obtain ⟨found, _, captured⟩ := Checked.exists_of_bind_eq_ok captured
      obtain ⟨tables, computed, made⟩ := Checked.exists_of_bind_eq_ok captured
      cases made
      exact ⟨found, tables, computed, rfl⟩
  intro table listed
  rw [same] at listed
  obtain ⟨id, _, renamed⟩ := Checked.exists_item_of_mapM computed listed
  obtain ⟨state, stored, renamed⟩ := Checked.exists_of_bind_eq_ok renamed
  exact (packed id state (get_eq_ok_iff.mp stored)).rename renamed

end ByteAutomata
