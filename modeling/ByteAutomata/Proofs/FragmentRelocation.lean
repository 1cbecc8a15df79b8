import ByteAutomata.Proofs.AnyRune
import ByteAutomata.Proofs.Relocation
import ByteAutomata.Template

/-!
Fragments of runes and templates behind the states of another arena.

The builders of tries look up their own states while they go on. Behind another arena these states, the
goal and the tails have raised names, so they find there what they find in the arena itself.
-/

namespace ByteAutomata

open Arena

variable {base : Arena}

namespace RuneTrie

/-- The trie behind the states of another arena. -/
def above (base : Arena) (trie : RuneTrie) : RuneTrie where
  arena := base.above trie.arena
  goal := trie.goal.raise base.size
  tails := trie.tails.map (base.size + ·)

theorem setRange_above (trie : RuneTrie) (node : StateId) (lo hi : UInt8) (target : Target) :
    (trie.above base).setRange (base.size + node) lo hi (target.raise base.size) =
      (trie.setRange node lo hi target).above base := by
  unfold setRange above
  rw [modifyTable_above base trie.arena node fun table => table.overrideRange_raise lo hi target]

theorem withTail_above (trie : RuneTrie) (below : Target) :
    (trie.above base).withTail (below.raise base.size) = (trie.withTail below).above base := by
  have table : tailTable (below.raise base.size) = (tailTable below).raise base.size := by
    rw [tailTable, tailTable, ← Table.overrideRange_raise, Table.raise_empty]
  simp only [withTail, above, table, pushTable_above, raised, size_above, List.map_append,
    List.map_cons, List.map_nil]

theorem tail_above (trie : RuneTrie) (length : Nat) :
    (trie.above base).tail length =
      ((trie.tail length).1.above base, (trie.tail length).2.raise base.size) := by
  induction length with
  | zero => rfl
  | succ length ih =>
    have listed : (trie.above base).tails[length]? = trie.tails[length]?.map (base.size + ·) :=
      List.getElem?_map
    cases found : trie.tails[length]? with
    | some id =>
      rw [found] at listed
      rw [tail_eq_of_known found, tail_eq_of_known listed, Target.raise_some]
    | none =>
      rw [found] at listed
      rw [tail_eq_of_unknown found rfl, tail_eq_of_unknown listed ih, withTail_above]
      exact congrArg (fun id => (_, some id)) (size_above base _)

theorem isShared_above (trie : RuneTrie) (target : Target) :
    (trie.above base).isShared (target.raise base.size) = trie.isShared target := by
  have raised : trie.tails.any (fun id => some (base.size + id) == target.raise base.size) =
      trie.tails.any (some · == target) := by
    congr 1
    funext id
    rw [← Target.raise_some, Bool.eq_iff_iff, beq_iff_eq, beq_iff_eq, Target.raise_inj]
  unfold isShared
  change (target.raise base.size == trie.goal.raise base.size ||
    (trie.tails.map (base.size + ·)).any (some · == target.raise base.size)) = _
  rw [List.any_map, ← raised]
  congr 1
  rw [Bool.eq_iff_iff, beq_iff_eq, beq_iff_eq, Target.raise_inj]

theorem withChild_above (trie : RuneTrie) (node : StateId) (byte : UInt8) (table : Table) :
    (trie.above base).withChild (base.size + node) byte (table.raise base.size) =
      (trie.withChild node byte table).above base := by
  simp only [withChild, above, pushTable_above, raised, size_above]
  rw [modifyTable_above base _ node fun table => table.override_raise byte (some trie.arena.size)]

theorem child_above (trie : RuneTrie) (node : StateId) (byte : UInt8) :
    (trie.above base).child (base.size + node) byte =
      ((trie.child node byte).1.above base, base.size + (trie.child node byte).2) := by
  have led : ((trie.above base).arena.get? (base.size + node)).bind (·.table.lookup byte) =
      Target.raise base.size ((trie.arena.get? node).bind (·.table.lookup byte)) := by
    change ((base.above trie.arena).get? _).bind _ = _
    rw [get?_above]
    cases trie.arena.get? node with
    | none => rfl
    | some state => exact Table.lookup_raise state.table byte
  rw [child_eq, child_eq, led]
  cases (trie.arena.get? node).bind (·.table.lookup byte) with
  | none =>
    exact Prod.ext (withChild_above trie node byte Table.empty) (size_above base trie.arena)
  | some existing =>
    simp only [Target.raise_some]
    rw [← Target.raise_some, isShared_above]
    by_cases shared : trie.isShared (some existing)
    · have table : (((trie.above base).arena.get? (base.size + existing)).getD {}).table =
          ((trie.arena.get? existing).getD {}).table.raise base.size := by
        change (((base.above trie.arena).get? _).getD {}).table = _
        rw [get?_above]
        cases trie.arena.get? existing <;> rfl
      rw [if_pos shared, if_pos shared, table, withChild_above]
      exact congrArg (_, ·) (size_above base trie.arena)
    · rw [if_neg shared, if_neg shared]

theorem addFrom_above (trie : RuneTrie) (node : StateId) (bytes : List UInt8) :
    (trie.above base).addFrom (base.size + node) bytes = (trie.addFrom node bytes).above base := by
  fun_induction addFrom trie node bytes with
  | case1 trie node => rfl
  | case2 trie node byte => exact setRange_above trie node byte byte trie.goal
  | case3 trie node byte second rest child id led grown less tail target tailed ih =>
    simp only [addFrom, child_above, led, ih, if_pos less, tail_above, grown, tailed, setRange_above]
  | case4 trie node byte second rest child id led grown less ih =>
    simp only [addFrom, child_above, led, ih, if_neg less, grown]

theorem addUpTo_above (trie : RuneTrie) (node : StateId) (bytes : List UInt8) :
    (trie.above base).addUpTo (base.size + node) bytes = (trie.addUpTo node bytes).above base := by
  induction bytes generalizing trie node with
  | nil => rfl
  | cons byte rest ih =>
    cases rest with
    | nil => exact setRange_above trie node byte byte trie.goal
    | cons second rest =>
      simp only [addUpTo, child_above]
      by_cases less : leastContinuation < second
      · simp only [if_pos less, tail_above, setRange_above, ih]
      · simp only [if_neg less, ih]

theorem addBetween_above (trie : RuneTrie) (node : StateId) (lows highs : List UInt8) :
    (trie.above base).addBetween (base.size + node) lows highs =
      (trie.addBetween node lows highs).above base := by
  induction lows generalizing trie node highs with
  | nil => cases highs <;> rfl
  | cons low lows ih =>
    cases highs with
    | nil => rfl
    | cons high highs =>
      simp only [addBetween]
      by_cases same : low = high
      · simp only [if_pos same]
        by_cases last : lows.isEmpty
        · simp only [if_pos last]
          exact setRange_above trie node low low trie.goal
        · simp only [if_neg last, child_above, ih]
      · simp only [if_neg same, addFrom_above]
        by_cases less : low + 1 < high
        · simp only [if_pos less, tail_above, setRange_above, addUpTo_above]
        · simp only [if_neg less, addUpTo_above]

theorem addInterval_above (root : StateId) (trie : RuneTrie) (interval : RuneInterval) :
    addInterval (base.size + root) (trie.above base) interval =
      (addInterval root trie interval).above base := by
  unfold addInterval
  induction parts interval generalizing trie with
  | nil => rfl
  | cons part rest ih =>
    rw [List.foldl_cons, List.foldl_cons, ← ih, ← addBetween_above]

end RuneTrie

namespace Arena

theorem pushRuneTrie_above (base arena : Arena) (set : RuneSet) (next : Target) :
    (base.above arena).pushRuneTrie set (next.raise base.size) =
      base.raised (arena.pushRuneTrie set next) := by
  have folded (intervals : RuneSet) (trie : RuneTrie) :
      intervals.foldl (RuneTrie.addInterval (base.size + arena.size)) (trie.above base) =
        (intervals.foldl (RuneTrie.addInterval arena.size) trie).above base := by
    induction intervals generalizing trie with
    | nil => rfl
    | cons interval rest ih => rw [List.foldl_cons, List.foldl_cons, RuneTrie.addInterval_above, ih]
  unfold pushRuneTrie
  rw [pushEmpty_above]
  exact congrArg (fun trie : RuneTrie => (trie.arena, base.size + arena.size))
    (folded set.simplify { arena := arena.pushEmpty.1, goal := next })

theorem pushRange_above (base arena : Arena) (lo hi : UInt8) (target : Target) :
    (base.above arena).pushRange lo hi (target.raise base.size) =
      base.raised (arena.pushRange lo hi target) := by
  unfold pushRange
  rw [← pushTable_above, ← Table.overrideRange_raise, Table.raise_empty]

theorem pushRange_above_some (base arena : Arena) (lo hi : UInt8) (id : StateId) :
    (base.above arena).pushRange lo hi (some (base.size + id)) =
      base.raised (arena.pushRange lo hi (some id)) :=
  pushRange_above base arena lo hi (some id)

theorem withRanges_raise (below : Nat) (table : Table) (ranges : List (UInt8 × UInt8 × Target)) :
    withRanges (table.raise below)
        (ranges.map fun range => (range.1, range.2.1, range.2.2.raise below)) =
      (withRanges table ranges).raise below := by
  unfold withRanges
  induction ranges generalizing table with
  | nil => rfl
  | cons range rest ih =>
    rw [List.map_cons, List.foldl_cons, List.foldl_cons, ← ih, ← Table.overrideRange_raise]

theorem pushRanges_above (base arena : Arena) (ranges : List (UInt8 × UInt8 × Target)) :
    (base.above arena).pushTable (withRanges Table.empty
        (ranges.map fun range => (range.1, range.2.1, range.2.2.raise base.size))) =
      base.raised (arena.pushTable (withRanges Table.empty ranges)) := by
  rw [← pushTable_above, ← withRanges_raise, Table.raise_empty]

theorem pushAnyRune_above (base arena : Arena) (next : Target) :
    (base.above arena).pushAnyRune (next.raise base.size) = base.raised (arena.pushAnyRune next) := by
  simp only [pushAnyRune, pushRange_above, raised]
  generalize arena.pushRange 0x80 0xBF next = one
  simp only [pushRange_above_some, raised]
  generalize one.1.pushRange 0x80 0xBF (some one.2) = two
  generalize two.1.pushRange 0x80 0xBF (some two.2) = three
  generalize three.1.pushRange 0xA0 0xBF (some one.2) = afterE0
  generalize afterE0.1.pushRange 0x80 0x9F (some one.2) = afterED
  generalize afterED.1.pushRange 0x90 0xBF (some two.2) = afterF0
  generalize afterF0.1.pushRange 0x80 0x8F (some two.2) = afterF4
  exact pushRanges_above base afterF4.1
    [(0x00, 0x7F, next), (0xC2, 0xDF, some one.2), (0xE0, 0xE0, some afterE0.2),
      (0xE1, 0xEC, some two.2), (0xED, 0xED, some afterED.2), (0xEE, 0xEF, some two.2),
      (0xF0, 0xF0, some afterF0.2), (0xF1, 0xF3, some three.2), (0xF4, 0xF4, some afterF4.2)]

end Arena

namespace Template

theorem graftedName_raise (template : Template) (below size : Nat) (next target : Target) :
    template.graftedName (below + size) (next.raise below) target =
      (template.graftedName size next target).raise below := by
  cases target with
  | none => rfl
  | some index =>
    unfold graftedName
    by_cases exit : index = template.size
    · simp only [if_pos exit]
    · simp only [if_neg exit, Target.raise_some, Nat.add_assoc]

/-- Behind another arena a template is grafted as in the arena itself. -/
theorem graft_above (template : Template) (base arena : Arena) (next : Target) :
    template.graft (base.above arena) (next.raise base.size) =
      (fun grafted => (base.above grafted.1, grafted.2.raise base.size)) <$>
        template.graft arena next := by
  have names : template.graftedName (base.above arena).size (next.raise base.size) =
      fun target => (template.graftedName arena.size next target).raise base.size := by
    funext target
    rw [size_above, graftedName_raise]
  have computed (tables : List Table) :
      tables.mapM (·.rename fun target => (template.graftedName arena.size next target).raise base.size) =
        List.map (Table.raise base.size) <$> tables.mapM (·.rename (template.graftedName arena.size next)) := by
    induction tables with
    | nil => rfl
    | cons table rest ih =>
      rw [List.mapM_cons, List.mapM_cons, ih, Table.rename_raise]
      cases table.rename (template.graftedName arena.size next) with
      | error fault => rfl
      | ok renamed => cases rest.mapM (·.rename (template.graftedName arena.size next)) <;> rfl
  have pushed (tables : List Table) (arena : Arena) :
      (tables.map (Table.raise base.size)).foldl (fun arena table => (arena.pushTable table).1)
          (base.above arena) =
        base.above (tables.foldl (fun arena table => (arena.pushTable table).1) arena) := by
    induction tables generalizing arena with
    | nil => rfl
    | cons table rest ih => rw [List.map_cons, List.foldl_cons, List.foldl_cons, pushTable_above, ← ih]; rfl
  unfold graft
  rw [names]
  simp only [computed]
  cases template.tables.mapM (·.rename (template.graftedName arena.size next)) with
  | error fault => rfl
  | ok tables => exact congrArg (fun grown => Except.ok (grown, _)) (pushed tables arena)

end Template

end ByteAutomata
