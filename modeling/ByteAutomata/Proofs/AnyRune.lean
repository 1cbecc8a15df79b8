import ByteAutomata.Fragment.AnyRune
import ByteAutomata.Proofs.RuneFragments

/-!
The fragment for any rune.

Each state leads ranges of bytes to states that were added before it. What such a state reads is a byte
of one of its ranges and then what the state behind reads, so the words of the fragment are put together
state by state and compared with the bytes of runes at the end.
-/

namespace ByteAutomata.Arena

variable {origin arena : Arena} {goal id : StateId} {target : Target} {words : List UInt8 → Prop}
  {lo hi : UInt8} {table : Table}

/-- New states with byte steps only stand behind the states of an arena. -/
structure Stepping (origin : Arena) (goal : StateId) (arena : Arena) : Prop where
  extends_ : Extends origin.size origin arena
  steps : arena.StepsTo origin.size goal
  below : goal < origin.size

/-- From the target byte steps read these words up to the goal. -/
structure Spells (origin : Arena) (goal : StateId) (arena : Arena) (target : Target)
    (words : List UInt8 → Prop) : Prop where
  owns : arena.Owns origin.size goal target
  reads : ∀ bytes, arena.follow (some goal) target bytes = some goal ↔ words bytes

/-- A byte of a range and then one of these words. -/
def Preceded (lo hi : UInt8) (words : List UInt8 → Prop) (bytes : List UInt8) : Prop :=
  ∃ byte rest, bytes = byte :: rest ∧ (lo ≤ byte ∧ byte ≤ hi) ∧ words rest

theorem spells_goal (origin : Arena) (goal : StateId) (arena : Arena) :
    Spells origin goal arena (some goal) (· = []) where
  owns := owns_goal arena origin.size goal
  reads := by
    intro bytes
    cases bytes with
    | nil => simp
    | cons byte rest => simp [follow_goal_cons]

namespace Stepping

theorem pushTable (stepping : Stepping origin goal arena) (formed : table.WellFormed)
    (epsilons : table.epsilons = []) (spinout : table.spinout = none)
    (owns : ∀ target ∈ table.steps, arena.Owns origin.size goal target) :
    Stepping origin goal (arena.pushTable table).1 := by
  have inside (target : Target) (listed : target ∈ table.steps) (id : StateId)
      (same : target = some id) : id < arena.size + 1 := by
    rcases owns target listed id same with ⟨_, bound⟩ | here
    · exact Nat.lt_succ_of_lt bound
    · exact Nat.lt_succ_of_lt (here ▸ stepping.extends_.lt stepping.below)
  have fits : State.Fits (arena.size + 1) { table } :=
    ⟨formed, fun id listed => inside _ listed id rfl, by simp [spinout], by simp [epsilons]⟩
  have pushed := stepping.extends_.formed.extends_push fits
  refine ⟨stepping.extends_.trans (pushed.mono stepping.extends_.size),
    stepping.steps.pushTable ⟨epsilons, spinout, rfl⟩ fun next listed => ?_, stepping.below⟩
  exact (owns _ listed next rfl).imp (fun new => new.1) (congrArg some)

theorem follow_pushTable (stepping : Stepping origin goal arena) (table : Table)
    (owns : arena.Owns origin.size goal target) (bytes : List UInt8) :
    (arena.pushTable table).1.follow (some goal) target bytes =
      arena.follow (some goal) target bytes :=
  stepping.steps.follow_eq_of_agrees stepping.extends_.formed
    (fun _ inside => arena.stepFrom_pushTable (some goal) table inside) owns bytes

theorem spells_pushTable (stepping : Stepping origin goal arena) (table : Table)
    (leads : Spells origin goal arena target words) :
    Spells origin goal (arena.pushTable table).1 target words where
  owns := by
    intro id same
    refine (leads.owns id same).imp_left fun new => ⟨new.1, ?_⟩
    rw [Arena.pushTable, size_push]
    exact Nat.lt_succ_of_lt new.2
  reads := fun bytes => by rw [stepping.follow_pushTable table leads.owns, leads.reads]

/-- From a new state a byte leads where the table says, and from there paths are as before. -/
theorem spells_new (stepping : Stepping origin goal arena) (formed : table.WellFormed)
    (owns : ∀ target ∈ table.steps, arena.Owns origin.size goal target) :
    Spells origin goal (arena.pushTable table).1 (some arena.size) fun bytes =>
      ∃ byte rest, bytes = byte :: rest ∧
        arena.follow (some goal) (table.lookup byte) rest = some goal := by
  have other : some arena.size ≠ some goal := by
    simpa using Nat.ne_of_gt (stepping.extends_.lt stepping.below)
  have stored : (arena.pushTable table).1.get? arena.size = some { table } := get?_push_self _
  have ownsLed (byte : UInt8) : arena.Owns origin.size goal (table.lookup byte) := by
    intro id led
    exact owns _ (Table.lookup_mem_steps formed led) id rfl
  refine ⟨?_, fun bytes => ?_⟩
  · intro id same
    exact Or.inl ⟨Option.some.inj same ▸ stepping.extends_.size,
      Option.some.inj same ▸ lt_size_of_get? stored⟩
  · cases bytes with
    | nil => simp [other]
    | cons byte rest =>
      rw [follow_cons, stepFrom_of_get? other stored, stepping.follow_pushTable table (ownsLed byte)]
      simp

/-- Reads a byte of the range and then what the target reads. -/
theorem pushRange (stepping : Stepping origin goal arena) (lo hi : UInt8) (order : lo ≤ hi)
    (below : hi < byteCeiling) (leads : Spells origin goal arena target words) :
    Stepping origin goal (arena.pushRange lo hi target).1 ∧
      Spells origin goal (arena.pushRange lo hi target).1 (some (arena.pushRange lo hi target).2)
        (Preceded lo hi words) ∧
      ∀ aim read, Spells origin goal arena aim read →
        Spells origin goal (arena.pushRange lo hi target).1 aim read := by
  have formed := Table.wellFormed_overrideRange Table.wellFormed_empty target order below
  have owns (aim : Target) (listed : aim ∈ (Table.empty.overrideRange lo hi target).steps) :
      arena.Owns origin.size goal aim := by
    intro id same
    subst same
    rcases Table.mem_steps_overrideRange Table.wellFormed_empty lo hi target listed with here | nowhere
    · exact leads.owns id here.symm
    · simp [Table.empty, Table.always] at nowhere
  have fresh := stepping.spells_new formed owns
  refine ⟨stepping.pushTable formed rfl rfl owns, ⟨fresh.owns, fun bytes => ?_⟩,
    fun _ _ => stepping.spells_pushTable _⟩
  refine (fresh.reads bytes).trans (exists_congr fun byte => exists_congr fun rest =>
    and_congr_right fun _ => ?_)
  rw [Table.lookup_overrideRange Table.wellFormed_empty target order below]
  by_cases between : lo ≤ byte ∧ byte ≤ hi
  · rw [if_pos between, leads.reads, and_iff_right between]
  · simp [between]

end Stepping

/-! ## Tables from ranges -/

/-- A range with its bounds in order and below the ceiling. -/
def ProperRange (range : UInt8 × UInt8 × Target) : Prop :=
  range.1 ≤ range.2.1 ∧ range.2.1 < byteCeiling

/-- The table with every range led to its target. -/
def withRanges (table : Table) (ranges : List (UInt8 × UInt8 × Target)) : Table :=
  ranges.foldl (fun table (lo, hi, target) => table.overrideRange lo hi target) table

theorem withRanges_keeps (table : Table) (ranges : List (UInt8 × UInt8 × Target)) :
    (withRanges table ranges).epsilons = table.epsilons ∧
      (withRanges table ranges).spinout = table.spinout := by
  induction ranges generalizing table with
  | nil => exact ⟨rfl, rfl⟩
  | cons range rest ih => exact ih (table.overrideRange range.1 range.2.1 range.2.2)

theorem wellFormed_withRanges (formed : table.WellFormed) {ranges : List (UInt8 × UInt8 × Target)}
    (proper : ∀ range ∈ ranges, ProperRange range) : (withRanges table ranges).WellFormed := by
  induction ranges generalizing table with
  | nil => exact formed
  | cons range rest ih =>
    obtain ⟨order, below⟩ := proper range List.mem_cons_self
    exact ih (Table.wellFormed_overrideRange formed range.2.2 order below)
      fun other listed => proper other (List.mem_cons_of_mem _ listed)

theorem mem_steps_withRanges (formed : table.WellFormed) {ranges : List (UInt8 × UInt8 × Target)}
    (proper : ∀ range ∈ ranges, ProperRange range) {next : StateId}
    (listed : some next ∈ (withRanges table ranges).steps) :
    some next ∈ table.steps ∨ ∃ range ∈ ranges, range.2.2 = some next := by
  induction ranges generalizing table with
  | nil => exact Or.inl listed
  | cons range rest ih =>
    obtain ⟨order, below⟩ := proper range List.mem_cons_self
    rcases ih (Table.wellFormed_overrideRange formed range.2.2 order below)
      (fun other member => proper other (List.mem_cons_of_mem _ member)) listed with earlier | later
    · rcases Table.mem_steps_overrideRange formed range.1 range.2.1 range.2.2 earlier with here | before
      · exact Or.inr ⟨range, List.mem_cons_self, here.symm⟩
      · exact Or.inl before
    · obtain ⟨other, member, same⟩ := later
      exact Or.inr ⟨other, List.mem_cons_of_mem _ member, same⟩

/-- A byte outside all ranges leads where it did, any other where a range that holds it leads. -/
theorem lookup_withRanges (formed : table.WellFormed) {ranges : List (UInt8 × UInt8 × Target)}
    (proper : ∀ range ∈ ranges, ProperRange range) (byte : UInt8) :
    (∃ range ∈ ranges, (range.1 ≤ byte ∧ byte ≤ range.2.1) ∧
        (withRanges table ranges).lookup byte = range.2.2) ∨
      (∀ range ∈ ranges, ¬ (range.1 ≤ byte ∧ byte ≤ range.2.1)) ∧
        (withRanges table ranges).lookup byte = table.lookup byte := by
  induction ranges generalizing table with
  | nil => exact Or.inr ⟨by simp, rfl⟩
  | cons range rest ih =>
    obtain ⟨order, below⟩ := proper range List.mem_cons_self
    rcases ih (Table.wellFormed_overrideRange formed range.2.2 order below)
      (fun other member => proper other (List.mem_cons_of_mem _ member)) with
      ⟨other, member, between, leads⟩ | ⟨outside, leads⟩
    · exact Or.inl ⟨other, List.mem_cons_of_mem _ member, between, leads⟩
    · rw [Table.lookup_overrideRange formed range.2.2 order below] at leads
      by_cases between : range.1 ≤ byte ∧ byte ≤ range.2.1
      · rw [if_pos between] at leads
        exact Or.inl ⟨range, List.mem_cons_self, between, leads⟩
      · rw [if_neg between] at leads
        refine Or.inr ⟨fun other listed => ?_, leads⟩
        rcases List.mem_cons.mp listed with rfl | later
        · exact between
        · exact outside other later

/-- Where ranges do not overlap a byte leads where the one range leads that holds it. -/
theorem lookup_withRanges_iff (formed : table.WellFormed) {ranges : List (UInt8 × UInt8 × Target)}
    (proper : ∀ range ∈ ranges, ProperRange range)
    (ascends : ranges.Pairwise fun range later => range.2.1 < later.1) (byte : UInt8)
    (holds : Target → Prop) (nowhere : ¬ holds (table.lookup byte)) :
    holds ((withRanges table ranges).lookup byte) ↔
      ∃ range ∈ ranges, (range.1 ≤ byte ∧ byte ≤ range.2.1) ∧ holds range.2.2 := by
  constructor
  · intro held
    rcases lookup_withRanges formed proper byte with ⟨range, listed, between, leads⟩ | ⟨_, leads⟩
    · exact ⟨range, listed, between, leads ▸ held⟩
    · exact absurd (leads ▸ held) nowhere
  · rintro ⟨range, listed, between, held⟩
    rcases lookup_withRanges formed proper byte with ⟨other, member, again, leads⟩ | ⟨outside, _⟩
    · have same : range = other := by
        by_contra different
        let Apart (first last : UInt8 × UInt8 × Target) : Prop :=
          first.2.1 < last.1 ∨ last.2.1 < first.1
        have symmetric : Std.Symm Apart := ⟨fun _ _ => Or.symm⟩
        have apart : ranges.Pairwise Apart := ascends.imp Or.inl
        rcases apart.forall listed member different with less | less
        · exact absurd (UInt8.lt_of_le_of_lt between.2 (UInt8.lt_of_lt_of_le less again.1))
            (UInt8.lt_irrefl _)
        · exact absurd (UInt8.lt_of_le_of_lt again.2 (UInt8.lt_of_lt_of_le less between.1))
            (UInt8.lt_irrefl _)
      rw [leads, ← same]
      exact held
    · exact absurd between (outside range listed)

/-- From a new state a byte of one of the ranges leads where the range does. -/
theorem Stepping.pushRanges (stepping : Stepping origin goal arena) {ranges : List (UInt8 × UInt8 × Target)}
    (proper : ∀ range ∈ ranges, ProperRange range)
    (ascends : ranges.Pairwise fun range later => range.2.1 < later.1)
    (owns : ∀ range ∈ ranges, arena.Owns origin.size goal range.2.2) :
    Stepping origin goal (arena.pushTable (withRanges Table.empty ranges)).1 ∧
      Spells origin goal (arena.pushTable (withRanges Table.empty ranges)).1 (some arena.size) fun bytes =>
        ∃ byte rest, bytes = byte :: rest ∧ ∃ range ∈ ranges, (range.1 ≤ byte ∧ byte ≤ range.2.1) ∧
          arena.follow (some goal) range.2.2 rest = some goal := by
  have formed := wellFormed_withRanges Table.wellFormed_empty proper
  have keeps := withRanges_keeps Table.empty ranges
  have owned (target : Target) (step : target ∈ (withRanges Table.empty ranges).steps) :
      arena.Owns origin.size goal target := by
    intro id same
    subst same
    rcases mem_steps_withRanges Table.wellFormed_empty proper step with nowhere | ⟨range, member, same⟩
    · simp [Table.empty, Table.always] at nowhere
    · exact owns range member id same
  have fresh := stepping.spells_new formed owned
  refine ⟨stepping.pushTable formed keeps.1 keeps.2 owned, fresh.owns, fun bytes => ?_⟩
  exact (fresh.reads bytes).trans (exists_congr fun byte => exists_congr fun rest =>
    and_congr_right fun _ => lookup_withRanges_iff Table.wellFormed_empty proper ascends byte
      (fun target => arena.follow (some goal) target rest = some goal) (by simp))

/-! ## Any rune -/

theorem Stepping.start {arena : Arena} (formed : arena.WellFormed) (inside : goal < arena.size) :
    Stepping arena goal arena where
  extends_ := .refl _ formed
  steps := ⟨fun _ _ new found => absurd (lt_size_of_get? found) (Nat.not_lt.mpr new),
    leadsBack_of_size_le arena (some goal)⟩
  below := inside

theorem preceded_cons (lo hi : UInt8) (words : List UInt8 → Prop) (byte : UInt8) (rest : List UInt8) :
    Preceded lo hi words (byte :: rest) ↔ (lo ≤ byte ∧ byte ≤ hi) ∧ words rest := by
  simp [Preceded]

theorem not_preceded_nil (lo hi : UInt8) (words : List UInt8 → Prop) : ¬ Preceded lo hi words [] := by
  simp [Preceded]

/-- The ranges of lead bytes and of the bytes behind them are those of runes. -/
theorem leadRanges_iff (bytes : List UInt8) :
    (∃ lead rest, bytes = lead :: rest ∧
      ((0x00 ≤ lead ∧ lead ≤ 0x7F) ∧ rest = [] ∨
        (0xC2 ≤ lead ∧ lead ≤ 0xDF) ∧ Preceded 0x80 0xBF (· = []) rest ∨
        (0xE0 ≤ lead ∧ lead ≤ 0xE0) ∧ Preceded 0xA0 0xBF (Preceded 0x80 0xBF (· = [])) rest ∨
        (0xE1 ≤ lead ∧ lead ≤ 0xEC) ∧ Preceded 0x80 0xBF (Preceded 0x80 0xBF (· = [])) rest ∨
        (0xED ≤ lead ∧ lead ≤ 0xED) ∧ Preceded 0x80 0x9F (Preceded 0x80 0xBF (· = [])) rest ∨
        (0xEE ≤ lead ∧ lead ≤ 0xEF) ∧ Preceded 0x80 0xBF (Preceded 0x80 0xBF (· = [])) rest ∨
        (0xF0 ≤ lead ∧ lead ≤ 0xF0) ∧
          Preceded 0x90 0xBF (Preceded 0x80 0xBF (Preceded 0x80 0xBF (· = []))) rest ∨
        (0xF1 ≤ lead ∧ lead ≤ 0xF3) ∧
          Preceded 0x80 0xBF (Preceded 0x80 0xBF (Preceded 0x80 0xBF (· = []))) rest ∨
        (0xF4 ≤ lead ∧ lead ≤ 0xF4) ∧
          Preceded 0x80 0x8F (Preceded 0x80 0xBF (Preceded 0x80 0xBF (· = []))) rest)) ↔
      ∃ rune, bytes = String.utf8EncodeChar rune := by
  rw [Utf8.exists_encode_iff_forms]
  rcases bytes with _ | ⟨a, _ | ⟨b, _ | ⟨c, _ | ⟨d, _ | ⟨e, rest⟩⟩⟩⟩⟩
  · simp
  all_goals
    simp only [List.cons.injEq, and_assoc, exists_and_left, exists_eq_left', reduceCtorEq, and_true,
      and_false, false_and, exists_false, false_or, or_false, preceded_cons, not_preceded_nil,
      Utf8.IsContinuation]
    try simp only [UInt8.le_iff_toNat_le, ← UInt8.toNat_inj, UInt8.reduceToNat]
    try omega

/-- Where lead bytes lead: to the goal, or to the states that read what can come behind them. -/
def leadRanges (goal one two three afterE0 afterED afterF0 afterF4 : StateId) :
    List (UInt8 × UInt8 × Target) :=
  [(0x00, 0x7F, some goal), (0xC2, 0xDF, some one), (0xE0, 0xE0, some afterE0),
    (0xE1, 0xEC, some two), (0xED, 0xED, some afterED), (0xEE, 0xEF, some two),
    (0xF0, 0xF0, some afterF0), (0xF1, 0xF3, some three), (0xF4, 0xF4, some afterF4)]

theorem proper_leadRanges (goal one two three afterE0 afterED afterF0 afterF4 : StateId) :
    ∀ range ∈ leadRanges goal one two three afterE0 afterED afterF0 afterF4, ProperRange range := by
  simp only [leadRanges, List.forall_mem_cons, List.not_mem_nil, false_implies, implies_true, and_true, ProperRange]
  decide

theorem ascending_leadRanges (goal one two three afterE0 afterED afterF0 afterF4 : StateId) :
    (leadRanges goal one two three afterE0 afterED afterF0 afterF4).Pairwise
      fun range later => range.2.1 < later.1 := by
  simp [leadRanges]

/-- The ranges of lead bytes, given where continuation bytes are read. -/
theorem Stepping.readsRune (stepping : Stepping origin goal arena)
    {one two three afterE0 afterED afterF0 afterF4 : StateId}
    (leadsOne : Spells origin goal arena (some one) (Preceded 0x80 0xBF (· = [])))
    (leadsTwo : Spells origin goal arena (some two) (Preceded 0x80 0xBF (Preceded 0x80 0xBF (· = []))))
    (leadsThree : Spells origin goal arena (some three)
      (Preceded 0x80 0xBF (Preceded 0x80 0xBF (Preceded 0x80 0xBF (· = [])))))
    (leadsE0 : Spells origin goal arena (some afterE0)
      (Preceded 0xA0 0xBF (Preceded 0x80 0xBF (· = []))))
    (leadsED : Spells origin goal arena (some afterED)
      (Preceded 0x80 0x9F (Preceded 0x80 0xBF (· = []))))
    (leadsF0 : Spells origin goal arena (some afterF0)
      (Preceded 0x90 0xBF (Preceded 0x80 0xBF (Preceded 0x80 0xBF (· = [])))))
    (leadsF4 : Spells origin goal arena (some afterF4)
      (Preceded 0x80 0x8F (Preceded 0x80 0xBF (Preceded 0x80 0xBF (· = []))))) :
    origin.ReadsRune goal (fun _ => True) (arena.pushTable (withRanges Table.empty
      (leadRanges goal one two three afterE0 afterED afterF0 afterF4))) := by
  have owns : ∀ range ∈ leadRanges goal one two three afterE0 afterED afterF0 afterF4,
      arena.Owns origin.size goal range.2.2 := by
    simp only [leadRanges, List.forall_mem_cons]
    exact ⟨owns_goal arena origin.size goal, leadsOne.owns, leadsE0.owns, leadsTwo.owns, leadsED.owns,
      leadsTwo.owns, leadsF0.owns, leadsThree.owns, leadsF4.owns, fun _ none => nomatch none⟩
  obtain ⟨pushed, spells⟩ := stepping.pushRanges (proper_leadRanges _ _ _ _ _ _ _ _)
    (ascending_leadRanges _ _ _ _ _ _ _ _) owns
  have bound : arena.size < (arena.pushTable (withRanges Table.empty
      (leadRanges goal one two three afterE0 afterED afterF0 afterF4))).1.size := by
    rw [Arena.pushTable, size_push]
    exact Nat.lt_succ_self _
  refine ⟨⟨pushed.extends_, bound⟩, stepping.extends_.size, pushed.steps, fun bytes => ?_⟩
  refine (spells.reads bytes).trans ?_
  simp only [leadRanges, List.mem_cons, List.not_mem_nil, or_false, exists_eq_or_imp, exists_eq_left,
    (spells_goal origin goal arena).reads, leadsOne.reads, leadsTwo.reads, leadsThree.reads, leadsE0.reads,
    leadsED.reads, leadsF0.reads, leadsF4.reads, true_and]
  exact leadRanges_iff bytes

theorem pushAnyRune_reads {arena : Arena} (formed : arena.WellFormed) (inside : goal < arena.size) :
    arena.ReadsRune goal (fun _ => True) (arena.pushAnyRune (some goal)) := by
  have s0 := Stepping.start formed inside
  obtain ⟨s1, one, _⟩ := s0.pushRange 0x80 0xBF (by decide) (by decide) (spells_goal arena goal arena)
  obtain ⟨s2, two, keep2⟩ := s1.pushRange 0x80 0xBF (by decide) (by decide) one
  obtain ⟨s3, three, keep3⟩ := s2.pushRange 0x80 0xBF (by decide) (by decide) two
  replace one := keep3 _ _ (keep2 _ _ one)
  replace two := keep3 _ _ two
  obtain ⟨s4, afterE0, keep4⟩ := s3.pushRange 0xA0 0xBF (by decide) (by decide) one
  replace one := keep4 _ _ one
  obtain ⟨s5, afterED, keep5⟩ := s4.pushRange 0x80 0x9F (by decide) (by decide) one
  replace two := keep5 _ _ (keep4 _ _ two)
  obtain ⟨s6, afterF0, keep6⟩ := s5.pushRange 0x90 0xBF (by decide) (by decide) two
  replace two := keep6 _ _ two
  obtain ⟨s7, afterF4, keep7⟩ := s6.pushRange 0x80 0x8F (by decide) (by decide) two
  replace one := keep7 _ _ (keep6 _ _ (keep5 _ _ one))
  replace two := keep7 _ _ two
  replace three := keep7 _ _ (keep6 _ _ (keep5 _ _ (keep4 _ _ three)))
  replace afterE0 := keep7 _ _ (keep6 _ _ (keep5 _ _ afterE0))
  replace afterED := keep7 _ _ (keep6 _ _ afterED)
  replace afterF0 := keep7 _ _ afterF0
  exact s7.readsRune one two three afterE0 afterED afterF0 afterF4

end ByteAutomata.Arena
