import ByteAutomata.Proofs.GlobMeanings

/-!
Lists of excluded values and what is reported beside them.

The fragment for a list is a trie. Every state of it leads on to the target unless the byte continues an excluded
value, and a state whose own path is excluded is closed: its terminator leads nowhere. What such a state spares are
the values that remain of the list behind its path, and this holds of it in every arena that keeps the states of its
branch, since the branches are built one behind the other. Empty values are left out of the list before the trie is
built, so they exclude nothing.
-/

namespace ByteAutomata

/-! ## Grouping by the first byte -/

variable {values rests : List (List UInt8)} {byte : UInt8} {rest : List UInt8}

theorem mem_groupByFirst (grouped : (byte, rests) ∈ groupByFirst values) (rest : List UInt8) :
    rest ∈ rests ↔ byte :: rest ∈ values := by
  obtain ⟨first, _, made⟩ := List.mem_filterMap.mp grouped
  split at made
  · obtain ⟨rfl, rfl⟩ := Prod.mk.inj (Option.some.inj made)
    constructor
    · intro listed
      obtain ⟨value, member, remains⟩ := List.mem_filterMap.mp listed
      cases value with
      | nil => cases remains
      | cons other behind =>
        rw [Option.ite_none_right_eq_some, Option.some.injEq] at remains
        obtain ⟨rfl, rfl⟩ := remains
        exact member
    · intro member
      exact List.mem_filterMap.mpr ⟨_, member, if_pos rfl⟩
  · cases made

theorem exists_mem_groupByFirst_iff :
    (∃ rests, (byte, rests) ∈ groupByFirst values) ↔ ∃ rest, byte :: rest ∈ values := by
  constructor
  · rintro ⟨rests, grouped⟩
    obtain ⟨first, _, made⟩ := List.mem_filterMap.mp grouped
    split at made
    · rename_i begins
      obtain ⟨rfl, _⟩ := Prod.mk.inj (Option.some.inj made)
      obtain ⟨value, member, starts⟩ := List.mem_filterMap.mp (List.contains_iff_mem.mp begins)
      exact ⟨value.tail, List.cons_head?_tail starts ▸ member⟩
    · cases made
  · rintro ⟨rest, member⟩
    refine ⟨_, List.mem_filterMap.mpr ⟨byte, ?_, if_pos ?_⟩⟩
    · exact List.mem_map.mpr ⟨byte.toNat, List.mem_range.mpr byte.toNat_lt, UInt8.ofNat_toNat⟩
    · exact List.contains_iff_mem.mpr (List.mem_filterMap.mpr ⟨_, member, rfl⟩)

/-- Every first byte makes one group. -/
theorem nodup_groupByFirst (values : List (List UInt8)) : ((groupByFirst values).map (·.1)).Nodup := by
  have bytes : ((List.range 256).map UInt8.ofNat).Nodup := by
    refine List.nodup_range.map_on fun first inside second bound same => ?_
    rw [List.mem_range] at inside bound
    rw [← UInt8.toNat_ofNat_of_lt' inside, same, UInt8.toNat_ofNat_of_lt' bound]
  refine List.Nodup.sublist ?_ bytes
  unfold groupByFirst
  generalize (List.range 256).map UInt8.ofNat = bytes
  induction bytes with
  | nil => exact .slnil
  | cons byte rest ih =>
    rw [List.filterMap_cons]
    split <;> rename_i made
    · exact ih.cons byte
    · split at made
      · obtain rfl := Option.some.inj made
        exact ih.cons_cons byte
      · cases made

namespace Arena

/-! ## States with byte steps only -/

variable {arena built middle : Arena} {next id : StateId} {state : State} {x : Continuation}

/-- A state that reports on nothing left to read reports on every value. -/
theorem reports_of_holds (holds : arena.Holds next x) (value : List UInt8) :
    arena.Reports (some next) value x :=
  ⟨next, rfl, [], List.nil_prefix, .here holds⟩

theorem reports_cons_iff (found : arena.get? id = some state) (only : state.StepsOnly) (byte : UInt8)
    (rest : List UInt8) :
    arena.Reports (some id) (byte :: rest) x ↔ arena.Reports (state.table.lookup byte) rest x := by
  rw [reports_iff_accepts, reports_iff_accepts]
  constructor
  · rintro ⟨read, front, accepts⟩
    rw [Target.accepts_some, yields_iff found] at accepts
    cases read with
    | nil => exact absurd accepts only.not_accepts_nil
    | cons first more =>
      obtain ⟨rfl, behind⟩ := List.cons_prefix_cons.mp front
      exact ⟨more, behind, (only.accepts_cons_iff _ _).mp accepts⟩
  · rintro ⟨read, front, accepts⟩
    refine ⟨byte :: read, List.cons_prefix_cons.mpr ⟨rfl, front⟩, ?_⟩
    rw [Target.accepts_some, yields_iff found]
    exact (only.accepts_cons_iff _ _).mpr accepts

/-- Where the value ends, the terminator decides. -/
theorem reports_nil_iff (found : arena.get? id = some state) (only : state.StepsOnly) :
    arena.Reports (some id) [] x ↔ Target.Accepts (arena.Yields x) (state.table.lookup valueTerminator) [] := by
  rw [reports_iff_accepts]
  constructor
  · rintro ⟨read, front, accepts⟩
    rw [Target.accepts_some, yields_iff found] at accepts
    cases read with
    | nil => exact absurd accepts only.not_accepts_nil
    | cons first more =>
      obtain ⟨rfl, behind⟩ := List.cons_prefix_cons.mp front
      obtain rfl := List.prefix_nil.mp behind
      exact (only.accepts_cons_iff _ _).mp accepts
  · intro accepts
    refine ⟨[valueTerminator], List.prefix_rfl, ?_⟩
    rw [Target.accepts_some, yields_iff found]
    exact (only.accepts_cons_iff _ _).mpr accepts

/-! ## What the trie reports -/

/-- In every arena that keeps what was built and reports at `next`, the state reports on all values but the excluded
ones. -/
def Spares (arena built : Arena) (next id : StateId) (excluded : List UInt8 → Prop) : Prop :=
  ∀ future, built.KeptIn arena.size future → ∀ x, future.Holds next x →
    ∀ value, (∀ byte ∈ value, byte < valueTerminator) → (future.Reports (some id) value x ↔ ¬ excluded value)

theorem Spares.later {excluded : List UInt8 → Prop} (spares : Spares arena middle next id excluded)
    (extends_ : Extends middle.size middle built) : Spares arena built next id excluded :=
  fun future keeps => spares future (keeps.earlier extends_)

/-- What a branch behind others spares. -/
theorem Spares.sooner {earlier : Arena} {excluded : List UInt8 → Prop} (spares : Spares arena built next id excluded)
    (order : earlier.size ≤ arena.size) : Spares earlier built next id excluded :=
  fun future keeps => spares future (keeps.mono order)

theorem Spares.congr {excluded other : List UInt8 → Prop} (spares : Spares arena built next id excluded)
    (same : ∀ value, excluded value ↔ other value) : Spares arena built next id other :=
  fun future keeps x holds value below => (spares future keeps x holds value below).trans (same value).not

/-- The table of an entry, closed if that is asked for. -/
def closeTable (closes : Bool) (table : Table) : Table :=
  if closes then table.override valueTerminator none else table

theorem get?_closeEnd_pushTable (arena : Arena) (closes : Bool) (table : Table) :
    (closeEnd closes (arena.pushTable table)).1.get? arena.size = some { table := closeTable closes table } := by
  cases closes with
  | false => exact get?_push_self _
  | true => exact get?_modifyTable_self (·.override valueTerminator none) (get?_push_self _)

theorem stepsOnly_closeTable {table : Table} (only : State.StepsOnly { table }) (closes : Bool) :
    State.StepsOnly { table := closeTable closes table } := by
  cases closes with
  | false => exact only
  | true => exact ⟨only.epsilons, only.spinout, rfl⟩

theorem lookup_closeTable {table : Table} (formed : table.WellFormed) (closes : Bool) (byte : UInt8) :
    (closeTable closes table).lookup byte =
      if byte = valueTerminator ∧ closes then none else table.lookup byte := by
  cases closes with
  | false => simp [closeTable]
  | true =>
    rw [closeTable, if_pos rfl, Table.lookup_override formed (by decide)]
    simp

/-- A new state spares what the states behind its bytes spare. Where a byte does not continue an excluded value it
leads on, and so does the terminator unless the state is closed. -/
theorem spares_of_lookup {table : Table} {closes : Bool} {excluded : List UInt8 → Prop}
    (stored : built.get? id = some { table := closeTable closes table }) (new : arena.size ≤ id)
    (formed : table.WellFormed) (only : State.StepsOnly { table })
    (ends : table.lookup valueTerminator = some next) (nothing : excluded [] ↔ closes = true)
    (leads : ∀ byte < valueTerminator,
      (table.lookup byte = some next ∧ ∀ rest, ¬ excluded (byte :: rest)) ∨
        ∃ child, table.lookup byte = some child ∧ Spares arena built next child fun rest => excluded (byte :: rest)) :
    Spares arena built next id excluded := by
  intro future keeps x holds value below
  have found := keeps.states id _ stored (Or.inl new)
  have only := stepsOnly_closeTable only closes
  cases value with
  | nil =>
    rw [reports_nil_iff found only, lookup_closeTable formed, nothing]
    cases closes with
    | false => simpa [ends, Target.accepts_some] using Yields.here holds
    | true => simp [Target.not_accepts_none]
  | cons byte rest =>
    have early := below byte List.mem_cons_self
    rw [reports_cons_iff found only, lookup_closeTable formed, if_neg fun both => UInt8.ne_of_lt early both.1]
    rcases leads byte early with ⟨leaves, free⟩ | ⟨child, continues, spares⟩
    · rw [leaves]
      exact iff_of_true (reports_of_holds holds rest) (free rest)
    · rw [continues]
      exact spares future keeps x holds rest fun other listed => below other (List.mem_cons_of_mem _ listed)

theorem stepsOnly_always (target : Target) : State.StepsOnly { table := .always target } := ⟨rfl, rfl, rfl⟩

/-- A state from which every byte leads on spares at most the empty value. -/
theorem spares_always (arena : Arena) (next : StateId) (closes : Bool) :
    Spares arena (closeEnd closes (arena.pushTable (.always (some next)))).1 next arena.size
      fun value => value = [] ∧ closes = true := by
  have lookup (byte : UInt8) (early : byte ≤ valueTerminator) :
      (Table.always (some next)).lookup byte = some next := by
    rw [Table.lookup_always, if_pos (UInt8.lt_of_le_of_lt early (by decide))]
  refine spares_of_lookup (get?_closeEnd_pushTable arena closes _) (Nat.le_refl _) (Table.wellFormed_always _)
    (stepsOnly_always _) (lookup _ (UInt8.le_refl _)) (by simp) fun byte early => ?_
  exact Or.inl ⟨lookup byte (UInt8.le_of_lt early), by simp⟩

/-- The children are built one behind the other, and each spares what remains of the values of its group. -/
theorem foldl_addChild {depth : Nat} (formed : arena.WellFormed) (goal : next < arena.size)
    (groups : List (UInt8 × List (List UInt8))) (before : List (UInt8 × Target))
    (spares : ∀ group ∈ groups, ∀ earlier : Arena, earlier.WellFormed → next < earlier.size →
      Spares earlier (pushChild (some next) depth earlier group.2).1 next
        (pushChild (some next) depth earlier group.2).2 (· ∈ group.2)) :
    ∃ built children, groups.foldl (addChild (some next) depth) (arena, before) = (built, children ++ before) ∧
      Extends arena.size arena built ∧ children.map (·.1) = (groups.map (·.1)).reverse ∧
      (∀ child ∈ children, ∃ id < built.size, child.2 = some id) ∧
      ∀ group ∈ groups, ∃ id, (group.1, some id) ∈ children ∧ Spares arena built next id (· ∈ group.2) := by
  induction groups generalizing arena before with
  | nil => exact ⟨arena, [], rfl, .refl _ formed, rfl, by simp, by simp⟩
  | cons group rest ih =>
    let made := pushChild (some next) depth arena group.2
    have inside := targetWithin_some goal
    have grows : arena.Grows made := pushChild_grows formed inside (pushExcluding_grows formed inside depth) group.2
    have here := spares group List.mem_cons_self arena formed goal
    obtain ⟨built, children, folded, extends_, bytes, known, branches⟩ := ih grows.extends_.formed
      (grows.extends_.lt goal) ((group.1, some made.2) :: before)
      fun other listed => spares other (List.mem_cons_of_mem _ listed)
    refine ⟨built, children ++ [(group.1, some made.2)], ?_, grows.extends_.append extends_, ?_, ?_, ?_⟩
    · rw [List.foldl_cons, addChild_eq, folded, List.append_assoc]
      rfl
    · rw [List.map_append, bytes, List.map_cons (l := rest), List.reverse_cons]
      rfl
    · intro child listed
      rcases List.mem_append.mp listed with earlier | last
      · exact known child earlier
      · exact ⟨made.2, extends_.lt grows.entry, List.mem_singleton.mp last ▸ rfl⟩
    · intro other listed
      rcases List.mem_cons.mp listed with rfl | later
      · exact ⟨made.2, List.mem_append_right _ (List.mem_singleton_self _), here.later extends_⟩
      · obtain ⟨id, child, spared⟩ := branches other later
        exact ⟨id, List.mem_append_left _ child, spared.sooner grows.extends_.size⟩

/-- A child spares what remains of the values if the longer ones are spared deeper in the trie. -/
theorem pushChild_spares {depth : Nat} {rests : List (List UInt8)}
    (deeper : ∀ closes, Spares arena
      (closeEnd closes (pushExcluding (some next) depth arena (rests.filter (!·.isEmpty)))).1 next
      (pushExcluding (some next) depth arena (rests.filter (!·.isEmpty))).2
      fun value => value ∈ rests.filter (!·.isEmpty) ∨ value = [] ∧ closes = true) :
    Spares arena (pushChild (some next) depth arena rests).1 next
      (pushChild (some next) depth arena rests).2 (· ∈ rests) := by
  have split (value : List UInt8) :
      value ∈ rests.filter (!·.isEmpty) ∨ value = [] ∧ rests.contains [] = true ↔ value ∈ rests := by
    cases value <;> simp
  unfold pushChild
  by_cases none_ : (rests.filter (!·.isEmpty)).isEmpty
  · rw [if_pos none_]
    refine (spares_always arena next _).congr fun value => ?_
    rw [← split, List.isEmpty_iff.mp none_, or_iff_right List.not_mem_nil]
  · rw [if_neg none_]
    exact (deeper _).congr split

/-- A byte that begins no value leads on. -/
theorem lookup_children_of_free {children : List (UInt8 × Target)} {values : List (List UInt8)}
    (bytes : children.map (·.1) = ((groupByFirst values).map (·.1)).reverse) {byte : UInt8}
    (below : byte < byteCeiling) (free : ∀ rest, byte :: rest ∉ values) :
    (Table.mapping (some next) children).lookup byte = some next := by
  refine Table.lookup_mapping_of_not_mem _ ?_ below
  rw [bytes, List.mem_reverse]
  intro listed
  obtain ⟨⟨_, rests⟩, grouped, rfl⟩ := List.mem_map.mp listed
  obtain ⟨rest, member⟩ := exists_mem_groupByFirst_iff.mp ⟨rests, grouped⟩
  exact free rest member

/-- The state in front of the children spares the values if each child spares what remains of its group. -/
theorem pushMapping_spares {children : List (UInt8 × Target)} {values : List (List UInt8)}
    (formed : built.WellFormed) (order : arena.size ≤ built.size) (goal : next < built.size) (full : [] ∉ values)
    (early : ∀ value ∈ values, ∀ byte ∈ value, byte < valueTerminator)
    (bytes : children.map (·.1) = ((groupByFirst values).map (·.1)).reverse)
    (known : ∀ child ∈ children, ∃ id < built.size, child.2 = some id)
    (branches : ∀ group ∈ groupByFirst values, ∃ id, (group.1, some id) ∈ children ∧
      Spares arena built next id (· ∈ group.2)) (closes : Bool) :
    Spares arena (closeEnd closes (built.pushTable (.mapping (some next) children))).1 next built.size
      fun value => value ∈ values ∨ value = [] ∧ closes = true := by
  have distinct : (children.map (·.1)).Nodup := by
    rw [bytes, List.nodup_reverse]
    exact nodup_groupByFirst values
  have pushed := (formed.grows_mapping (targetWithin_some goal) known).closeEnd (Nat.le_refl _) closes
  refine spares_of_lookup (get?_closeEnd_pushTable built closes _) order (Table.wellFormed_mapping _ _)
    ⟨rfl, rfl, rfl⟩ ?ends ?nothing ?leads
  case ends =>
    exact lookup_children_of_free bytes (by decide) fun rest listed =>
      UInt8.lt_irrefl _ (early _ listed valueTerminator List.mem_cons_self)
  case nothing => simp [full]
  case leads =>
    intro byte early
    have below : byte < byteCeiling := UInt8.lt_trans early (by decide)
    by_cases begins : ∃ rest, byte :: rest ∈ values
    · obtain ⟨rests, grouped⟩ := exists_mem_groupByFirst_iff.mpr begins
      obtain ⟨child, listed, spares⟩ := branches _ grouped
      refine Or.inr ⟨child, Table.lookup_mapping_of_mem _ distinct listed below, ?_⟩
      refine (spares.later pushed.extends_).congr fun rest => ?_
      rw [mem_groupByFirst grouped]
      simp
    · have free := not_exists.mp begins
      exact Or.inl ⟨lookup_children_of_free bytes below free, by simpa using free⟩

/-- The trie spares its values, and the empty value if its entry is closed. -/
theorem pushExcluding_spares {depth : Nat} {values : List (List UInt8)} (formed : arena.WellFormed)
    (goal : next < arena.size) (full : [] ∉ values) (short : ∀ value ∈ values, value.length ≤ depth)
    (early : ∀ value ∈ values, ∀ byte ∈ value, byte < valueTerminator) (closes : Bool) :
    Spares arena (closeEnd closes (pushExcluding (some next) depth arena values)).1 next
      (pushExcluding (some next) depth arena values).2
      fun value => value ∈ values ∨ value = [] ∧ closes = true := by
  induction depth generalizing arena values closes with
  | zero =>
    have none_ (value : List UInt8) : value ∉ values := fun listed =>
      full (List.eq_nil_of_length_eq_zero (Nat.le_zero.mp (short value listed)) ▸ listed)
    refine (spares_always arena next closes).congr fun value => ?_
    rw [or_iff_right (none_ value)]
  | succ depth ih =>
    have children (group : UInt8 × List (List UInt8)) (grouped : group ∈ groupByFirst values) (earlier : Arena)
        (formed : earlier.WellFormed) (goal : next < earlier.size) :
        Spares earlier (pushChild (some next) depth earlier group.2).1 next
          (pushChild (some next) depth earlier group.2).2 (· ∈ group.2) := by
      have whole {rest : List UInt8} (listed : rest ∈ group.2.filter (!·.isEmpty)) : group.1 :: rest ∈ values :=
        (mem_groupByFirst grouped rest).mp (List.mem_filter.mp listed).1
      refine pushChild_spares (ih formed goal (by simp) ?_ ?_)
      · intro rest listed
        exact Nat.le_of_succ_le_succ (short _ (whole listed))
      · intro rest listed byte member
        exact early _ (whole listed) byte (List.mem_cons_of_mem _ member)
    obtain ⟨built, children, folded, extends_, bytes, known, branches⟩ :=
      foldl_addChild formed goal (groupByFirst values) [] children
    rw [List.append_nil] at folded
    rw [pushExcluding_succ, folded]
    exact pushMapping_spares extends_.formed extends_.size (extends_.lt goal) full early bytes known branches closes

/-- The depth of the trie covers the longest value. -/
theorem length_le_foldl_max {values : List (List UInt8)} {value : List UInt8} (listed : value ∈ values) :
    value.length ≤ (values.map (·.length)).foldl max 0 := by
  rw [List.foldl_eq_foldr]
  exact List.le_max_of_le (List.mem_map_of_mem listed) le_rfl

/-- The fragment of a list spares the values of the list that are not empty. -/
theorem pushComplement_spares {excluded : List (List UInt8)} (formed : arena.WellFormed) (goal : next < arena.size)
    (early : ∀ value ∈ excluded, ∀ byte ∈ value, byte < valueTerminator) :
    Spares arena (arena.pushComplement excluded (some next)).1 next (arena.pushComplement excluded (some next)).2
      fun value => value ∈ excluded ∧ value ≠ [] := by
  have full : [] ∉ excluded.filter (!·.isEmpty) := by simp
  have spared := pushExcluding_spares formed goal full (fun value listed => length_le_foldl_max listed)
    (fun value listed => early value (List.mem_filter.mp listed).1) false
  exact spared.congr fun value => by simp

end Arena

/-! ## What the pattern reports -/

theorem exists_requireText {bytes : List UInt8} (valid : Utf8.isValid bytes = true) :
    ∃ text, requireText bytes = .ok text := by
  obtain ⟨text, decoded⟩ := Option.isSome_iff_exists.mp valid
  exact ⟨text, by rw [requireText, decoded]⟩

namespace Pattern

/-- Texts are let pass one after the other. -/
theorem runIn_requireTexts {values : List (List UInt8)} (texts : ∀ value ∈ values, Utf8.isValid value = true)
    (workshop : Workshop) :
    Compile.runIn (values.forM fun value => do let _ ← requireText value) workshop = .ok (.ok (), workshop) := by
  induction values with
  | nil => rfl
  | cons value rest ih =>
    obtain ⟨text, passed⟩ := exists_requireText (texts value List.mem_cons_self)
    have first : Compile.runIn (do let _ ← requireText value) workshop = .ok (.ok (), workshop) := by
      rw [passed]
      rfl
    exact (Compile.runIn_bind_of_ok first).trans (ih fun other listed => texts other (List.mem_cons_of_mem _ listed))

/-- In front of a state that reports, what is built from a list of excluded texts reports on the values that are not
in the list. Where the list has the empty value this is said of all other values only. -/
theorem compile_anythingBut_reports_iff [Unicode.Database] {values : List (List UInt8)}
    (texts : ∀ value ∈ values, Utf8.isValid value = true) (config : Config) (cache : TemplateCache) {arena : Arena}
    (formed : arena.WellFormed) {next : StateId} {x : Continuation}
    (reporting : arena.get? next = some { continuations := [x] }) :
    ∃ entry after, ((anythingBut values).compile config (some next)).runIn { arena, cache } = .ok (.ok entry, after) ∧
      ∀ value, (∀ byte ∈ value, byte < valueTerminator) →
        ∃ found, (Automaton.ofUnion after.arena entry).matched value = .ok found ∧
          ((value = [] → value ∉ values) → (x ∈ found ↔ value ∉ values)) := by
  have goal : next < arena.size := Arena.lt_size_of_get? reporting
  have early (value : List UInt8) (listed : value ∈ values) : ∀ byte ∈ value, byte < valueTerminator := by
    obtain ⟨text, passed⟩ := exists_requireText (texts value listed)
    exact lt_valueTerminator_of_requireText passed
  have grown := Arena.pushComplement_grows formed values (Arena.targetWithin_some goal)
  have stays : (arena.pushComplement values (some next)).1.Holds next x :=
    ⟨_, (grown.extends_.kept next goal).trans reporting, List.mem_singleton_self x⟩
  refine ⟨some (arena.pushComplement values (some next)).2,
    { arena := (arena.pushComplement values (some next)).1, cache }, ?_, fun value below => ?_⟩
  · exact Compile.runIn_bind_of_ok (runIn_requireTexts texts { arena, cache })
  · obtain ⟨found, ran, _, reports⟩ := Automaton.matched_ofUnion grown.extends_.formed
      (Arena.targetWithin_some grown.entry) value
    refine ⟨found, ran, fun unlisted => ?_⟩
    rw [reports, Arena.pushComplement_spares formed goal early _ (grown.extends_.formed.keptIn _) x stays value below]
    exact not_congr (and_iff_left_of_imp fun listed empty => unlisted empty listed)

/-- A list with a value that is the beginning of another, one that is listed twice and the empty one. -/
theorem compile_anythingBut_reports_iff_nested :
    (∀ value ∈ [[0x61], [0x61, 0x62], [0x61, 0x62], []], Utf8.isValid value = true) ∧
      ∃ entry after,
        ((anythingBut [[0x61], [0x61, 0x62], [0x61, 0x62], []]).compile {} (some 0)).runIn
          { arena := Arena.matchState 7 } = .ok (.ok entry, after) ∧
        (∃ found, (Automaton.ofUnion after.arena entry).matched [0x61, 0x62] = .ok found ∧ 7 ∉ found) ∧
        ∃ found, (Automaton.ofUnion after.arena entry).matched [0x61, 0x63] = .ok found ∧ 7 ∈ found := by
  have texts : ∀ value ∈ [[0x61], [0x61, 0x62], [0x61, 0x62], []], Utf8.isValid value = true := by decide +kernel
  have reporting : (Arena.matchState 7).get? 0 = some { continuations := [7] } := rfl
  obtain ⟨entry, after, compiled, reports⟩ := compile_anythingBut_reports_iff texts {} {}
    (Arena.wellFormed_matchState 7) reporting
  obtain ⟨listed, ranListed, here⟩ := reports [0x61, 0x62] (by simp [valueTerminator])
  obtain ⟨free, ranFree, there⟩ := reports [0x61, 0x63] (by simp [valueTerminator])
  have decidesListed := here fun empty => absurd empty (List.cons_ne_nil _ _)
  have decidesFree := there fun empty => absurd empty (List.cons_ne_nil _ _)
  exact ⟨texts, entry, after, compiled, ⟨listed, ranListed, fun member => absurd (decidesListed.mp member) (by decide)⟩,
    free, ranFree, decidesFree.mpr (by decide)⟩

/-- The empty value is reported although it is listed. -/
theorem compile_anythingBut_reports_nil :
    ∃ entry after found,
      ((anythingBut [[]]).compile {} (some 0)).runIn { arena := Arena.matchState 7 } = .ok (.ok entry, after) ∧
        (Automaton.ofUnion after.arena entry).matched [] = .ok found ∧ ¬ (7 ∈ found ↔ [] ∉ [([] : List UInt8)]) := by
  have formed := Arena.wellFormed_matchState 7
  have goal : 0 < (Arena.matchState 7).size := by decide
  have grown := Arena.pushComplement_grows formed [[]] (Arena.targetWithin_some goal)
  obtain ⟨found, ran, _, reports⟩ := Automaton.matched_ofUnion grown.extends_.formed
    (Arena.targetWithin_some grown.entry) []
  have reporting : (Arena.matchState 7).get? 0 = some { continuations := [7] } := rfl
  have stays := (grown.extends_.kept 0 goal).trans reporting
  have reported : 7 ∈ found := by
    rw [reports, Arena.pushComplement_spares formed goal (by simp) _ (grown.extends_.formed.keptIn _) 7
      ⟨_, stays, List.mem_singleton_self 7⟩ [] (by simp)]
    exact fun excluded => excluded.2 rfl
  exact ⟨_, _, found, rfl, ran, by simp [reported]⟩

end Pattern

end ByteAutomata
