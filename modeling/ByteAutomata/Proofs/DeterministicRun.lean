import ByteAutomata.Proofs.Determinization
import ByteAutomata.Proofs.FrontierRun

/-!
Subset construction preserves what is reported.

What a set yields is what its members yield when their epsilons have been followed. Each state of the
deterministic automaton leads from a set to the set behind the byte, so a run over it enters the sets
that stand behind the leading parts of the value and reports what they yield there.
-/

namespace ByteAutomata

/-- What a state yields if its first step is no epsilon. -/
def Arena.YieldsAtOnce (arena : Arena) (x : Continuation) (id : StateId) : List UInt8 → Prop
  | [] => arena.Holds id x
  | byte :: rest => ∃ next, arena.Moves byte id next ∧ arena.Yields x next rest

/-- Some member of the set yields the continuation on these bytes. -/
def StateSet.Yields (nfa : Arena) (members : StateSet) (x : Continuation) (read : List UInt8) :
    Prop :=
  ∃ member ∈ members, nfa.YieldsAtOnce x member read

namespace Arena

variable {nfa : Arena} {x : Continuation}

theorem yields_iff_closure (formed : nfa.WellFormed) {id : StateId} (inside : id < nfa.size)
    (read : List UInt8) :
    nfa.Yields x id read ↔ ∃ member ∈ nfa.closure id, nfa.YieldsAtOnce x member read := by
  cases read with
  | nil => exact yields_nil_iff formed inside
  | cons byte rest => exact yields_cons_iff formed inside byte rest

/-- The set behind a byte yields on the rest what the set yields on all. -/
theorem Follows.yields_iff (formed : nfa.WellFormed) {members reached : StateSet} {byte : UInt8}
    (follows : nfa.Follows members byte reached) (rest : List UInt8) :
    members.Yields nfa x (byte :: rest) ↔ reached.Yields nfa x rest := by
  constructor
  · rintro ⟨member, listed, next, moves, yields⟩
    obtain ⟨active, closed, atOnce⟩ :=
      (yields_iff_closure formed (formed.lt_of_moves moves) rest).mp yields
    exact ⟨active, (follows.mem_iff active).mpr ⟨member, listed, next, moves, closed⟩, atOnce⟩
  · rintro ⟨active, closed, atOnce⟩
    obtain ⟨member, listed, next, moves, within⟩ := (follows.mem_iff active).mp closed
    exact ⟨member, listed, next, moves,
      (yields_iff_closure formed (formed.lt_of_moves moves) rest).mpr ⟨active, within, atOnce⟩⟩

end Arena

/-- A set yields on the leading parts of some bytes what its members hold, and what it yields on those
that are not empty. -/
theorem StateSet.exists_yields_iff {nfa : Arena} {members : StateSet} {x : Continuation} (bytes : List UInt8) :
    (∃ read, read <+: bytes ∧ members.Yields nfa x read) ↔
      (∃ member ∈ members, nfa.Holds member x) ∨ ∃ read, read ≠ [] ∧ read <+: bytes ∧ members.Yields nfa x read := by
  constructor
  · rintro ⟨_ | ⟨byte, rest⟩, leading, yields⟩
    · exact Or.inl yields
    · exact Or.inr ⟨_, List.cons_ne_nil _ _, leading, yields⟩
  · rintro (⟨member, listed, holds⟩ | ⟨read, _, leading, yields⟩)
    · exact ⟨[], List.nil_prefix, member, listed, holds⟩
    · exact ⟨read, leading, yields⟩

/-- Behind the first byte stands the set that it leads to. -/
theorem Arena.Follows.exists_yields_iff {nfa : Arena} (formed : nfa.WellFormed) {members reached : StateSet}
    {byte : UInt8} {x : Continuation} (follows : nfa.Follows members byte reached) (rest : List UInt8) :
    (∃ read, read ≠ [] ∧ read <+: byte :: rest ∧ members.Yields nfa x read) ↔
      ∃ read, read <+: rest ∧ reached.Yields nfa x read := by
  constructor
  · rintro ⟨_ | ⟨first, more⟩, some_, leading, yields⟩
    · exact absurd rfl some_
    · obtain ⟨rfl, shorter⟩ := List.cons_prefix_cons.mp leading
      exact ⟨more, shorter, (follows.yields_iff formed more).mp yields⟩
  · rintro ⟨read, leading, yields⟩
    exact ⟨byte :: read, List.cons_ne_nil _ _, List.cons_prefix_cons.mpr ⟨rfl, leading⟩,
      (follows.yields_iff formed read).mpr yields⟩

/-- A deterministic automaton whose states fill the sets of a list. -/
structure Arena.Determines (dfa nfa : Arena) (names : List StateSet) : Prop where
  formed : dfa.WellFormed
  filled : ∀ id members, names[id]? = some members →
    ∃ state, dfa.get? id = some state ∧ state.Fills nfa names members

namespace Arena

variable {dfa nfa : Arena} {names : List StateSet}

/-- A run from a filled state reports what its set yields on the leading parts of the bytes. -/
theorem walkFrom_eq (determines : dfa.Determines nfa names) (formed : nfa.WellFormed)
    {id : StateId} {members : StateSet} (named : names[id]? = some members)
    (bytes : List UInt8) (below : ∀ byte ∈ bytes, byte < byteCeiling) (found : List Continuation) :
    ∃ all, dfa.walkFrom id found bytes = .ok all ∧ (found.Nodup → all.Nodup) ∧
      ∀ x, x ∈ all ↔ x ∈ found ∨
        ∃ read, read ≠ [] ∧ read <+: bytes ∧ members.Yields nfa x read := by
  induction bytes generalizing id members found with
  | nil =>
    refine ⟨found, rfl, fun distinct => distinct, fun x => ⟨Or.inl, ?_⟩⟩
    rintro (listed | ⟨read, some_, leading, _⟩)
    · exact listed
    · exact absurd (List.prefix_nil.mp leading) some_
  | cons byte rest ih =>
    obtain ⟨state, stored, fills⟩ := determines.filled id members named
    have looked := Table.step_eq_lookup (determines.formed.fits stored).table byte
    obtain ⟨reached, follows, ⟨nowhere, empty⟩ | ⟨_, next, leads, place⟩⟩ :=
      fills.leads byte (below byte List.mem_cons_self)
    · refine ⟨found, ?_, fun distinct => distinct, fun x => ⟨Or.inl, ?_⟩⟩
      · simp only [walkFrom, get_of_get? stored, bind, Except.bind, looked, nowhere]
        rfl
      · rintro (listed | later)
        · exact listed
        · obtain ⟨read, _, member, listed, _⟩ := (follows.exists_yields_iff formed rest).mp later
          rw [empty] at listed
          cases listed
    · obtain ⟨entered, held, nextFills⟩ := determines.filled next reached place
      obtain ⟨all, ran, distinct, exactly⟩ :=
        ih place (fun other listed => below other (List.mem_cons_of_mem _ listed))
          (addMissing found entered.continuations)
      refine ⟨all, ?_, fun known => distinct (nodup_addMissing known _), fun x => ?_⟩
      · simp only [walkFrom, get_of_get? stored, bind, Except.bind, looked, leads,
          get_of_get? held, ran]
      · rw [exactly x, mem_addMissing, nextFills.reports x, or_assoc, ← StateSet.exists_yields_iff,
          follows.exists_yields_iff formed]

/-- A run that enters a filled state reports what its set yields on the leading parts of the bytes. -/
theorem enter_eq (determines : dfa.Determines nfa names) (formed : nfa.WellFormed) {id : StateId}
    {members : StateSet} (named : names[id]? = some members) (bytes : List UInt8)
    (below : ∀ byte ∈ bytes, byte < byteCeiling) (found : List Continuation) :
    ∃ state all, dfa.get? id = some state ∧
      dfa.walkFrom id (addMissing found state.continuations) bytes = .ok all ∧ (found.Nodup → all.Nodup) ∧
      ∀ x, x ∈ all ↔ x ∈ found ∨ ∃ read, read <+: bytes ∧ members.Yields nfa x read := by
  obtain ⟨state, stored, fills⟩ := determines.filled id members named
  obtain ⟨all, ran, distinct, exactly⟩ :=
    walkFrom_eq determines formed named bytes below (addMissing found state.continuations)
  refine ⟨state, all, stored, ran, fun known => distinct (nodup_addMissing known _), fun x => ?_⟩
  rw [exactly x, mem_addMissing, fills.reports x, or_assoc, ← StateSet.exists_yields_iff]

/-- A run over the value reports what the set at its start yields. -/
theorem walk_eq (determines : dfa.Determines nfa names) (formed : nfa.WellFormed) {id : StateId}
    {members : StateSet} (named : names[id]? = some members) {value : List UInt8}
    (below : ∀ byte ∈ value, byte < byteCeiling) (found : List Continuation) :
    ∃ all, dfa.walk (some id) value found = .ok all ∧ (found.Nodup → all.Nodup) ∧
      ∀ x, x ∈ all ↔ x ∈ found ∨ ∃ read, read <+: terminated value ∧ members.Yields nfa x read := by
  have bytes : ∀ byte ∈ terminated value, byte < byteCeiling := by
    intro byte listed
    rcases List.mem_append.mp listed with inner | last
    · exact below byte inner
    · rw [List.mem_singleton.mp last]
      decide
  obtain ⟨state, all, stored, ran, told⟩ := enter_eq determines formed named (terminated value) bytes found
  refine ⟨all, ?_, told⟩
  simp only [walk, get_of_get? stored, bind, Except.bind, ran]

/-- A run with one active state ends before a byte at or above the ceiling of tables. -/
theorem walkFrom_of_ceiling_le (formed : dfa.WellFormed) {byte : UInt8} (high : byteCeiling ≤ byte)
    (lead rest : List UInt8) {id : StateId} (inside : id < dfa.size) (found : List Continuation) :
    dfa.walkFrom id found (lead ++ byte :: rest) = dfa.walkFrom id found lead := by
  induction lead generalizing id found with
  | nil =>
    obtain ⟨state, stored⟩ := exists_get? inside
    have fits := formed.fits stored
    simp only [List.nil_append, walkFrom, get_of_get? stored, bind, Except.bind,
      Table.step_eq_lookup fits.table, Table.lookup_of_ceiling_le fits.table high]
    rfl
  | cons first lead ih =>
    obtain ⟨state, stored⟩ := exists_get? inside
    have fits := formed.fits stored
    simp only [List.cons_append, walkFrom, get_of_get? stored, bind, Except.bind,
      Table.step_eq_lookup fits.table]
    cases led : state.table.lookup first with
    | none => rfl
    | some next =>
      obtain ⟨entered, held⟩ := exists_get? (fits.lookup_lt led)
      simp only [get_of_get? held]
      exact ih (fits.lookup_lt led) _

/-- From a byte at or above the ceiling on a deterministic automaton reports nothing. -/
theorem walk_of_ceiling_le (determines : dfa.Determines nfa names) (formed : nfa.WellFormed)
    {id : StateId} {members : StateSet} (named : names[id]? = some members) {lead : List UInt8}
    (below : ∀ byte ∈ lead, byte < byteCeiling) {byte : UInt8} (high : byteCeiling ≤ byte)
    (rest : List UInt8) (found : List Continuation) :
    ∃ all, dfa.walk (some id) (lead ++ byte :: rest) found = .ok all ∧
      ∀ x, x ∈ all ↔ x ∈ found ∨ ∃ read, read <+: lead ∧ members.Yields nfa x read := by
  obtain ⟨state, all, stored, ran, _, exactly⟩ := enter_eq determines formed named lead below found
  refine ⟨all, ?_, exactly⟩
  have split : terminated (lead ++ byte :: rest) = lead ++ byte :: terminated rest := by
    simp [terminated]
  simp only [walk, get_of_get? stored, bind, Except.bind, split]
  rw [walkFrom_of_ceiling_le determines.formed high lead _ (lt_size_of_get? stored), ran]

/-- The sets that a construction names: the set of its start, and those that arise from earlier ones. -/
structure Names (dfa nfa : Arena) (start : StateId) (names : List StateSet) : Prop
    extends dfa.Determines nfa names where
  size : dfa.size = names.length
  distinct : names.Nodup
  first : names[0]? = some (StateSet.ofList (nfa.closure start))
  arisen : ∀ place members, names[place]? = some members → place = 0 ∨
    members.Arises nfa (names.take place)

/-- Where the construction begins: the set of the start is named and pending. -/
def firstSubsets (nfa : Arena) (start : StateId) : Checked Subsets := do
  let (closure, closures) ← (ClosureCache.ofSize nfa.size).get nfa start
  return (Subsets.add { closures } (StateSet.ofList closure)).1

theorem determinize_eq_run (nfa : Arena) (start : StateId) (budget : Option Nat) :
    nfa.determinize (some start) budget = (do
      let subsets ← Subsets.run nfa budget (2 ^ nfa.size) (← nfa.firstSubsets start)
      return subsets.map fun subsets => (subsets.arena, some 0)) := by
  simp only [determinize, firstSubsets]
  cases (ClosureCache.ofSize nfa.size).get nfa start <;> rfl

theorem firstSubsets_eq (formed : nfa.WellFormed) {start : StateId} (within : start < nfa.size) :
    ∃ begun, nfa.firstSubsets start = .ok begun ∧ begun.pending.length = 1 ∧
      Subsets.Tracks nfa [StateSet.ofList (nfa.closure start)] none begun := by
  obtain ⟨closures, got, valid⟩ := (ClosureCache.validFor_ofSize nfa).get formed within
  have holds := StateSet.holds_ofList (nfa.closure start)
  have proper : (StateSet.ofList (nfa.closure start)).Proper nfa.size :=
    ⟨holds.ascends, fun member listed =>
      lt_of_mem_closure formed within ((holds.mem_iff member).mp listed)⟩
  have blank : Subsets.Tracks nfa [] none { closures } := {
    interns := .empty 0
    size := rfl
    proper := by simp
    formed := wellFormed_empty
    closures := valid
    pending := by simp
    distinct := by simp
    idle := by simp
    filled := by simp
    arisen := by simp }
  refine ⟨_, ?_, rfl, blank.add proper (by simp) (by simp) (Or.inl rfl)⟩
  simp only [firstSubsets, got, bind, Except.bind]
  rfl

/-- Where nothing is pending, all the sets that are named are filled. -/
theorem Names.of_tracks {start : StateId} {subsets : Subsets} (tracks : Subsets.Tracks nfa names none subsets)
    (settled : subsets.pending = []) (first : [StateSet.ofList (nfa.closure start)] <+: names) :
    subsets.arena.Names nfa start names := by
  refine ⟨⟨tracks.formed, ?_⟩, tracks.size, tracks.interns.distinct, ?_, tracks.arisen⟩
  · exact fun other members place => tracks.filled other members place (by simp) (by simp [settled])
  · obtain ⟨extra, rfl⟩ := first
    rfl

/-- Subset construction never faults. Unless its budget is exceeded, all the sets that it names are
filled. -/
theorem determinize_names (formed : nfa.WellFormed) {start : StateId} (within : start < nfa.size)
    (budget : Option Nat) :
    (nfa.determinize (some start) budget = .ok none ∧ nfa.MayExceed budget) ∨
      ∃ dfa names, nfa.determinize (some start) budget = .ok (some (dfa, some 0)) ∧
        dfa.Names nfa start names := by
  obtain ⟨begun, began, single, tracks⟩ := firstSubsets_eq formed within
  rw [determinize_eq_run, began]
  rcases Subsets.run_eq formed budget (2 ^ nfa.size) 0 tracks (by simp [single]) (by simp) with
    ⟨exceeded, limited⟩ | ⟨after, names, used, ran, within, grows, tracksAfter, settled, _⟩
  · refine Or.inl ⟨?_, limited⟩
    simp only [bind, Except.bind, exceeded]
    rfl
  · refine Or.inr ⟨after.arena, names, ?_, .of_tracks tracksAfter settled grows⟩
    simp only [bind, Except.bind, Subsets.run_of_le ran settled within]
    rfl

/-- Subset construction never faults. Unless its budget is exceeded, it gives an automaton that reports
on every value what the given one reports. -/
theorem determinize_eq (formed : nfa.WellFormed) {start : Target} (inside : nfa.TargetWithin start)
    (budget : Option Nat) :
    (nfa.determinize start budget = .ok none ∧ nfa.MayExceed budget) ∨
      ∃ dfa dfaStart, nfa.determinize start budget = .ok (some (dfa, dfaStart)) ∧
        ∀ value : List UInt8, (∀ byte ∈ value, byte < byteCeiling) → ∀ found, ∃ all,
          dfa.walk dfaStart value found = .ok all ∧ (found.Nodup → all.Nodup) ∧
          ∀ x, x ∈ all ↔ x ∈ found ∨ nfa.Reports start value x := by
  cases start with
  | none =>
    refine Or.inr ⟨{}, none, rfl, fun value _ found => ⟨found, rfl, fun distinct => distinct, ?_⟩⟩
    simp
  | some id =>
    have within := inside id rfl
    have holds := StateSet.holds_ofList (nfa.closure id)
    rcases determinize_names formed within budget with exceeded | ⟨dfa, names, made, named⟩
    · exact Or.inl exceeded
    · refine Or.inr ⟨dfa, some 0, made, fun value below found => ?_⟩
      obtain ⟨all, walked, distinct, exactly⟩ :=
        walk_eq named.toDetermines formed named.first below found
      refine ⟨all, walked, distinct, fun x => ?_⟩
      rw [exactly x, reports_some_iff]
      refine or_congr_right (exists_congr fun read => and_congr_right fun _ => ?_)
      rw [yields_iff_closure formed within]
      exact exists_congr fun member => and_congr_left fun _ => holds.mem_iff member

/-- The deterministic automaton and the one it was made from report the same on every value whose
bytes lie below the ceiling. -/
theorem walk_determinize_iff_sweep (formed : nfa.WellFormed) {start : Target}
    (inside : nfa.TargetWithin start) {closures : ClosureCache} (known : closures.ValidFor nfa)
    {frontiers : Frontiers} (valid : frontiers.Valid) :
    ∃ dfa dfaStart, nfa.determinize start none = .ok (some (dfa, dfaStart)) ∧
      ∀ value : List UInt8, (∀ byte ∈ value, byte < byteCeiling) → ∃ swept left learnt walked,
        nfa.sweep closures start value frontiers [] = .ok (swept, left, learnt) ∧
        dfa.walk dfaStart value [] = .ok walked ∧ ∀ x, x ∈ walked ↔ x ∈ swept := by
  rcases determinize_eq formed inside none with ⟨_, limited⟩ | ⟨dfa, dfaStart, made, reports⟩
  · cases limited
  · refine ⟨dfa, dfaStart, made, fun value below => ?_⟩
    obtain ⟨walked, ran, _, walkedIff⟩ := reports value below []
    obtain ⟨swept, left, learnt, swept_, _, _, _, sweptIff⟩ :=
      sweep_eq formed inside known valid value []
    refine ⟨swept, left, learnt, walked, swept_, ran, fun x => ?_⟩
    rw [walkedIff x, sweptIff x]
    simp

/-- Stays alive on every byte and reports 7 behind each `a`. -/
def afterEachA : Arena :=
  ⟨#[{ table := { Table.empty with epsilons := [some 0, some 1] } },
    { table := Table.single 0x61 (some 2) }, { continuations := [7] }]⟩

theorem walk_determinize_iff_sweep_afterEachA :
    afterEachA.WellFormed ∧ ∃ dfa dfaStart,
      afterEachA.determinize (some 0) none = .ok (some (dfa, dfaStart)) ∧
      ∃ swept left learnt walked,
        afterEachA.sweep (.ofSize afterEachA.size) (some 0) [0x62, 0x61] {} [] =
          .ok (swept, left, learnt) ∧
        dfa.walk dfaStart [0x62, 0x61] [] = .ok walked ∧ ∀ x, x ∈ walked ↔ x ∈ swept := by
  have formed : afterEachA.WellFormed := by decide
  obtain ⟨dfa, dfaStart, made, agrees⟩ := walk_determinize_iff_sweep formed
    (by decide : afterEachA.TargetWithin (some 0)) (ClosureCache.validFor_ofSize afterEachA)
    Frontiers.valid_empty
  exact ⟨formed, dfa, dfaStart, made, agrees [0x62, 0x61] (by simp [byteCeiling])⟩

end Arena

end ByteAutomata
