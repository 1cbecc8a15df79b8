import ByteAutomata.Proofs.StateSets

/-!
The subset construction names sets and fills them.

The sets named so far are kept as a ghost list, in which a set's name is its place. Between rounds
each named set is pending or filled: its state reports what members report, and each byte leads to
the name of the set behind it. One byte stands for a whole range, for no table of a member and
neither of the two last ceilings cuts it. A round fills one set for good, so there are no more rounds
than sets.
-/

namespace ByteAutomata

/-! ## Names and fillings -/

/-- There are more sets of states than the budget allows for. -/
inductive Arena.MayExceed (nfa : Arena) : Option Nat → Prop
  | small {most : Nat} : most < 2 ^ nfa.size → MayExceed nfa (some most)

/-- The target names the set behind the byte; nowhere names the empty set. -/
def StateSet.LeadsTo (nfa : Arena) (names : List StateSet) (members : StateSet) (byte : UInt8)
    (target : Target) : Prop :=
  ∃ reached, nfa.Follows members byte reached ∧
    ((target = none ∧ reached = []) ∨ reached ≠ [] ∧ ∃ id, target = some id ∧ names[id]? = some reached)

/-- The state does what the members of the set do together. -/
structure State.Fills (nfa : Arena) (names : List StateSet) (members : StateSet) (state : State) :
    Prop where
  leads : ∀ byte < byteCeiling, members.LeadsTo nfa names byte (state.table.lookup byte)
  reports : ∀ x, x ∈ state.continuations ↔ ∃ member ∈ members, nfa.Holds member x

theorem StateSet.LeadsTo.mono {nfa : Arena} {names more : List StateSet} {members : StateSet}
    {byte : UInt8} {target : Target} (leads : members.LeadsTo nfa names byte target)
    (grows : names <+: more) : members.LeadsTo nfa more byte target := by
  obtain ⟨reached, follows, nowhere | ⟨some_, id, named, place⟩⟩ := leads
  · exact ⟨reached, follows, Or.inl nowhere⟩
  · exact ⟨reached, follows, Or.inr ⟨some_, id, named, getElem?_of_isPrefix grows place⟩⟩

theorem State.Fills.mono {nfa : Arena} {names more : List StateSet} {members : StateSet}
    {state : State} (fills : state.Fills nfa names members) (grows : names <+: more) :
    state.Fills nfa more members where
  leads := fun byte below => (fills.leads byte below).mono grows
  reports := fills.reports

/-- Some states are active, and they are so after some byte when one of the listed sets was before. -/
def StateSet.Arises (nfa : Arena) (names : List StateSet) (members : StateSet) : Prop :=
  members ≠ [] ∧ ∃ source ∈ names, ∃ byte < byteCeiling, nfa.Follows source byte members

namespace Subsets

/-- The sets named so far are proper and each is filled, except those pending and the one that is
being filled just now. -/
structure Tracks (nfa : Arena) (names : List StateSet) (busy : Option StateId) (subsets : Subsets) :
    Prop where
  interns : Interns subsets.named 0 names
  size : subsets.arena.size = names.length
  proper : ∀ set ∈ names, set.Proper nfa.size
  formed : subsets.arena.WellFormed
  closures : subsets.closures.ValidFor nfa
  pending : ∀ pair ∈ subsets.pending, names[pair.1]? = some pair.2
  distinct : (subsets.pending.map (·.1)).Nodup
  idle : ∀ id ∈ busy, id ∉ subsets.pending.map (·.1)
  filled : ∀ id members, names[id]? = some members → id ∉ busy → id ∉ subsets.pending.map (·.1) →
    ∃ state, subsets.arena.get? id = some state ∧ state.Fills nfa names members
  arisen : ∀ place members, names[place]? = some members → place = 0 ∨
    members.Arises nfa (names.take place)

namespace Tracks

variable {nfa : Arena} {names : List StateSet} {busy : Option StateId} {subsets : Subsets}

theorem lt_size (tracks : Tracks nfa names busy subsets) {id : StateId} {members : StateSet}
    (named : names[id]? = some members) : id < subsets.arena.size :=
  lt_of_lt_of_eq (List.getElem?_eq_some_iff.mp named).1 tracks.size.symm

/-- A set that has no name yet gets the next one and is pending. -/
theorem add (tracks : Tracks nfa names busy subsets) {members : StateSet}
    (proper : members.Proper nfa.size) (absent : members ∉ names)
    (inside : ∀ id ∈ busy, id < names.length) (arises : names = [] ∨ members.Arises nfa names) :
    Tracks nfa (names ++ [members]) busy (subsets.add members).1 := by
  have fresh : ∀ id ∈ subsets.pending.map (·.1), id < names.length := by
    intro id listed
    obtain ⟨pair, member, rfl⟩ := List.mem_map.mp listed
    exact (List.getElem?_eq_some_iff.mp (tracks.pending pair member)).1
  have grows : names <+: names ++ [members] := List.prefix_append _ _
  refine
    { interns := ?_, size := ?_, proper := ?_, formed := ?_, closures := tracks.closures,
      pending := ?_, distinct := ?_, idle := ?_, filled := ?_, arisen := ?_ }
  · have named := tracks.interns.insert absent
    rw [Nat.zero_add, ← tracks.size] at named
    exact named
  · have grown : (subsets.add members).1.arena.size = subsets.arena.size + 1 :=
      Arena.size_push _ _
    rw [grown, tracks.size, List.length_append, List.length_singleton]
  · intro set listed
    rcases List.mem_append.mp listed with earlier | last
    · exact tracks.proper set earlier
    · exact List.mem_singleton.mp last ▸ proper
  · exact tracks.formed.push (.of_idle _ [])
  · intro pair listed
    rcases List.mem_cons.mp listed with here | earlier
    · rw [here]
      exact getElem?_concat_eq_some_iff.mpr (Or.inr ⟨tracks.size, rfl⟩)
    · exact getElem?_of_isPrefix grows (tracks.pending pair earlier)
  · refine List.nodup_cons.mpr ⟨?_, tracks.distinct⟩
    intro listed
    have less := fresh _ listed
    exact absurd tracks.size (Nat.ne_of_lt less)
  · intro id current listed
    rcases List.mem_cons.mp listed with here | earlier
    · have less := inside id current
      exact absurd (here.trans tracks.size) (Nat.ne_of_lt less)
    · exact tracks.idle id current earlier
  · intro id set named notBusy notPending
    rcases getElem?_concat_eq_some_iff.mp named with earlier | ⟨last, _⟩
    · obtain ⟨state, found, fills⟩ := tracks.filled id set earlier notBusy fun listed =>
        notPending (List.mem_cons_of_mem _ listed)
      exact ⟨state, (Arena.get?_push_of_lt (Arena.lt_size_of_get? found)).trans found, fills.mono grows⟩
    · exact absurd (List.mem_cons.mpr (Or.inl (last.trans tracks.size.symm))) notPending
  · intro place set named
    rcases getElem?_concat_eq_some_iff.mp named with earlier | ⟨rfl, rfl⟩
    · rw [List.take_append_of_le_length (Nat.le_of_lt (List.getElem?_eq_some_iff.mp earlier).1)]
      exact tracks.arisen place set earlier
    · rw [List.take_left]
      exact arises.imp_left fun blank => by rw [blank]; rfl

/-- Naming a set gives its name, or the budget is exceeded. The sets that are filled stay so. -/
theorem name (tracks : Tracks nfa names busy subsets) (budget : Option Nat) {reached : StateSet}
    (proper : reached.Proper nfa.size) (inside : ∀ id ∈ busy, id < names.length)
    (arises : reached ≠ [] → reached.Arises nfa names) :
    (subsets.name budget reached = none ∧ nfa.MayExceed budget) ∨
      ∃ after target more, subsets.name budget reached = some (after, target) ∧ names <+: more ∧
        Tracks nfa more busy after ∧
        more.length + subsets.pending.length = names.length + after.pending.length ∧
        ((target = none ∧ reached = []) ∨ reached ≠ [] ∧ ∃ id, target = some id ∧ more[id]? = some reached) := by
  unfold Subsets.name
  by_cases empty : reached.isEmpty = true
  · rw [if_pos empty]
    exact Or.inr ⟨subsets, none, names, rfl, List.prefix_refl _, tracks, rfl,
      Or.inl ⟨rfl, List.isEmpty_iff.mp empty⟩⟩
  · have some_ : reached ≠ [] := fun none => empty (none ▸ rfl)
    rw [if_neg empty]
    cases known : subsets.named[reached]? with
    | some id =>
      obtain ⟨place, found, same⟩ := (tracks.interns.named_iff reached id).mp known
      rw [Nat.zero_add] at same
      exact Or.inr ⟨subsets, some id, names, rfl, List.prefix_refl _, tracks, rfl,
        Or.inr ⟨some_, id, rfl, same ▸ found⟩⟩
    | none =>
      have absent := tracks.interns.unnamed_iff.mp known
      by_cases full : budget.any (fun most => decide (most ≤ subsets.arena.size)) = true
      · left
        simp only [full, ↓reduceIte, true_and]
        obtain ⟨most, limit, reachedLimit⟩ := Option.any_eq_true _ _ |>.mp full
        have room := length_le_of_proper (List.nodup_cons.mpr ⟨absent, tracks.interns.distinct⟩)
          (List.forall_mem_cons.mpr ⟨proper, tracks.proper⟩)
        rw [decide_eq_true_eq, tracks.size] at reachedLimit
        exact limit ▸ .small (lt_of_le_of_lt reachedLimit room)
      · right
        simp only [full, Bool.false_eq_true, ↓reduceIte]
        refine ⟨_, _, names ++ [reached], rfl, List.prefix_append _ _,
          tracks.add proper absent inside (Or.inr (arises some_)), ?_, Or.inr ⟨some_, _, rfl, ?_⟩⟩
        · have opened : (subsets.add reached).1.pending.length = subsets.pending.length + 1 := rfl
          rw [opened, List.length_append, List.length_singleton]
          omega
        · rw [show (subsets.add reached).2 = names.length from tracks.size]
          simp

end Tracks

end Subsets

/-! ## One range -/

/-- The ceilings ahead of `floor`: the moves of members change at none but them. -/
structure Ahead (nfa : Arena) (members : StateSet) (floor : UInt8) (rest : List UInt8) : Prop where
  ascends : rest.Pairwise (· < ·)
  within : ∀ ceiling ∈ rest, ceiling ≤ byteCeiling
  last : byteCeiling ≤ floor ∨ byteCeiling ∈ rest
  terminator : valueTerminator ≤ floor ∨ valueTerminator ∈ rest
  member : ∀ id ∈ members, ∀ state, nfa.get? id = some state →
    ∀ ceiling ∈ state.table.ceilings, ceiling ≤ floor ∨ ceiling ∈ rest

namespace Ahead

variable {nfa : Arena} {members : StateSet} {floor ceiling byte : UInt8} {rest : List UInt8}

theorem tail (ahead : Ahead nfa members floor (ceiling :: rest)) (order : floor ≤ ceiling) :
    Ahead nfa members ceiling rest := by
  have pass {mark : UInt8} (passed : mark ≤ floor ∨ mark ∈ ceiling :: rest) :
      mark ≤ ceiling ∨ mark ∈ rest := by
    rcases passed with below | listed
    · exact Or.inl (UInt8.le_trans below order)
    · rcases List.mem_cons.mp listed with here | later
      · exact Or.inl (here ▸ UInt8.le_refl _)
      · exact Or.inr later
  exact {
    ascends := ahead.ascends.of_cons
    within := fun other listed => ahead.within other (List.mem_cons_of_mem _ listed)
    last := pass ahead.last
    terminator := pass ahead.terminator
    member := fun id listed state found mark marks => pass (ahead.member id listed state found mark marks) }

/-- A ceiling that is passed or still ahead does not lie inside the next range. -/
theorem lt_of_lt (ahead : Ahead nfa members floor (ceiling :: rest)) (below : byte < ceiling)
    {mark : UInt8} (passed : mark ≤ floor ∨ mark ∈ ceiling :: rest) (above : floor < mark) :
    byte < mark := by
  rcases passed with before | listed
  · exact absurd above (UInt8.not_lt.mpr before)
  · rcases List.mem_cons.mp listed with here | later
    · exact here ▸ below
    · exact UInt8.lt_trans below (List.rel_of_pairwise_cons ahead.ascends later)

/-- Members move on all bytes of a range as they do on its lowest. -/
theorem moves_iff (ahead : Ahead nfa members floor (ceiling :: rest)) (formed : nfa.WellFormed)
    (order : floor ≤ byte) (below : byte < ceiling) {member : StateId} (listed : member ∈ members)
    (next : StateId) : nfa.Moves byte member next ↔ nfa.Moves floor member next := by
  have bound : ceiling ≤ byteCeiling := ahead.within ceiling List.mem_cons_self
  have early := @lt_of_lt _ _ _ _ _ _ ahead below _ ahead.last
  have late := @lt_of_lt _ _ _ _ _ _ ahead below _ ahead.terminator
  have same : byte = valueTerminator ↔ floor = valueTerminator := by
    simp only [← UInt8.toNat_inj, UInt8.lt_iff_toNat_lt, UInt8.le_iff_toNat_le, valueTerminator,
      byteCeiling, UInt8.reduceToNat] at *
    omega
  refine exists_congr fun state => and_congr_right fun found => ?_
  have led : state.table.lookup byte = state.table.lookup floor :=
    Table.lookup_eq_of_between (formed.fits found).table order fun mark marks =>
      ahead.lt_of_lt below (ahead.member member listed state found mark marks)
  simp only [State.MovesTo, led, ne_eq, same]

end Ahead

/-- Where the set leads is tabulated up to `floor`, and what can change further up is ahead. -/
structure Sweeps (nfa : Arena) (names : List StateSet) (members : StateSet) (floor : UInt8)
    (runs : List (UInt8 × Target)) (rest : List UInt8) : Prop where
  ahead : Ahead nfa members floor rest
  tabulates : Table.Tabulates runs floor (StateSet.LeadsTo nfa names members)
  above : ∀ ceiling ∈ rest, floor < ceiling ∨ runs = []
  top : floor ≤ byteCeiling
  named : ∀ id, some id ∈ runs.map (·.2) → id < names.length

namespace Sweeps

variable {nfa : Arena} {names more : List StateSet} {members reached : StateSet} {floor ceiling : UInt8}
  {rest : List UInt8} {runs : List (UInt8 × Target)} {target : Target}

theorem floor_eq (sweeps : Sweeps nfa names members floor runs []) : floor = byteCeiling := by
  have bound : byteCeiling ≤ floor := by simpa using sweeps.ahead.last
  exact UInt8.le_antisymm sweeps.top bound

theorem le_ceiling (sweeps : Sweeps nfa names members floor runs (ceiling :: rest)) : floor ≤ ceiling := by
  rcases sweeps.above ceiling List.mem_cons_self with less | begins
  · exact UInt8.le_of_lt less
  · rw [sweeps.tabulates.bottom begins]
    simp [UInt8.le_iff_toNat_le]

theorem lt_byteCeiling (sweeps : Sweeps nfa names members floor runs (ceiling :: rest)) : floor < byteCeiling := by
  rcases sweeps.above ceiling List.mem_cons_self with less | begins
  · exact UInt8.lt_of_lt_of_le less (sweeps.ahead.within ceiling List.mem_cons_self)
  · rw [sweeps.tabulates.bottom begins]
    decide

/-- The set that is reached from the lowest byte of a range gives the target of the whole range. -/
theorem pass (sweeps : Sweeps nfa names members floor runs (ceiling :: rest)) (formed : nfa.WellFormed)
    (grows : names <+: more) (follows : nfa.Follows members floor reached)
    (leads : (target = none ∧ reached = []) ∨ reached ≠ [] ∧ ∃ id, target = some id ∧ more[id]? = some reached) :
    Sweeps nfa more members ceiling (Table.extendRuns ceiling target runs) rest where
  ahead := sweeps.ahead.tail sweeps.le_ceiling
  tabulates := by
    refine (sweeps.tabulates.mono fun byte target leads => leads.mono grows).extend
      (sweeps.above ceiling List.mem_cons_self) fun byte low high => ?_
    refine ⟨reached, follows.congr fun id => ?_, leads⟩
    have same := fun member (listed : member ∈ members) next =>
      (sweeps.ahead.moves_iff formed low high listed next).symm
    grind
  above := fun _ listed => Or.inl (List.rel_of_pairwise_cons sweeps.ahead.ascends listed)
  top := sweeps.ahead.within ceiling List.mem_cons_self
  named := by
    intro id listed
    rcases Table.mem_extendRuns listed with here | earlier
    · rcases leads with ⟨nowhere, _⟩ | ⟨_, place, led, stored⟩
      · cases here.trans nowhere
      · rw [led, Option.some.injEq] at here
        exact here ▸ (List.getElem?_eq_some_iff.mp stored).1
    · exact lt_of_lt_of_le (sweeps.named id earlier) grows.length_le

end Sweeps

namespace Subsets

variable {nfa : Arena} {names : List StateSet} {subsets : Subsets} {members : StateSet}

/-- Working out the ranges above `floor` tabulates where the set leads, or exceeds the budget. -/
theorem fillRanges_eq (formed : nfa.WellFormed) (budget : Option Nat)
    (inside : ∀ id ∈ members, id < nfa.size) {busy : Option StateId}
    (tracks : Tracks nfa names busy subsets) (member : members ∈ names) (known : ∀ id ∈ busy, id < names.length)
    {floor : UInt8} {rest : List UInt8} {runs : List (UInt8 × Target)}
    (sweeps : Sweeps nfa names members floor runs rest) :
    (fillRanges nfa budget members floor runs rest subsets = .ok none ∧ nfa.MayExceed budget) ∨
      ∃ after filled more,
        fillRanges nfa budget members floor runs rest subsets = .ok (some (after, filled)) ∧
        names <+: more ∧ Tracks nfa more busy after ∧
        Table.Tabulates filled byteCeiling (StateSet.LeadsTo nfa more members) ∧
        (∀ id, some id ∈ filled.map (·.2) → id < more.length) ∧
        more.length + subsets.pending.length = names.length + after.pending.length := by
  induction rest generalizing floor runs names subsets with
  | nil =>
    obtain rfl := sweeps.floor_eq
    exact Or.inr ⟨subsets, runs, names, rfl, List.prefix_refl _, tracks, sweeps.tabulates, sweeps.named, rfl⟩
  | cons ceiling rest ih =>
    obtain ⟨ids, reached, closures, moved, closed, valid, follows⟩ :=
      tracks.closures.closeAll_moves formed floor inside
    have learnt : Tracks nfa names busy { subsets with closures } := { tracks with closures := valid }
    rcases learnt.name budget (follows.proper formed) known
        (fun some => ⟨some, members, member, floor, sweeps.lt_byteCeiling, follows⟩) with ⟨exceeded, limited⟩ |
      ⟨after, target, more, nameEq, grows, tracksAfter, count, leads⟩
    · refine Or.inl ⟨?_, limited⟩
      simp only [fillRanges, moved, closed, bind, Except.bind, exceeded]
      rfl
    · have unfolded : fillRanges nfa budget members floor runs (ceiling :: rest) subsets =
          fillRanges nfa budget members ceiling (Table.extendRuns ceiling target runs) rest after := by
        simp only [fillRanges, moved, closed, bind, Except.bind, nameEq]
      rw [unfolded]
      rcases ih tracksAfter (grows.subset member) (fun id current => lt_of_lt_of_le (known id current) grows.length_le)
          (sweeps.pass formed grows follows leads) with
        exceeded | ⟨last, filled, all, run, grown, tracksLast, full, within, counted⟩
      · exact Or.inl exceeded
      · refine Or.inr ⟨last, filled, all, run, grows.trans grown, tracksLast, full, within, ?_⟩
        simp only at count
        omega

/-! ## One set -/

theorem mem_ceilings (states : List State) (ceiling : UInt8) :
    ceiling ∈ ceilings states ↔
      (∃ state ∈ states, ceiling ∈ state.table.ceilings) ∨ ceiling = valueTerminator ∨
        ceiling = byteCeiling := by
  unfold ceilings
  rw [(sorted_ascends _).2 ceiling]
  simp [List.mem_flatMap]

/-- Before the first range all ceilings of members are ahead. -/
theorem ahead_ceilings (formed : nfa.WellFormed) {states : List State}
    (related : List.Forall₂ (fun member state => nfa.get? member = some state) members states) :
    Ahead nfa members 0 (ceilings states) where
  ascends := (sorted_ascends _).1
  within := by
    intro ceiling listed
    rcases (mem_ceilings states ceiling).mp listed with ⟨state, member, cuts⟩ | rfl | rfl
    · obtain ⟨id, _, found⟩ := Checked.exists_item_of_mem related member
      exact ((Table.wellFormed_iff _).mp (formed.fits found).table).2.le_byteCeiling ceiling cuts
    · decide
    · decide
  last := Or.inr ((mem_ceilings _ _).mpr (by simp))
  terminator := Or.inr ((mem_ceilings _ _).mpr (by simp))
  member := by
    intro id listed state found ceiling cuts
    obtain ⟨other, member, stored⟩ := Checked.exists_result_of_mem related listed
    rw [found, Option.some.injEq] at stored
    exact Or.inr ((mem_ceilings _ _).mpr (Or.inl ⟨other, member, stored ▸ cuts⟩))

theorem mem_foldl_addMissing (states : List State) (found : List Continuation) (x : Continuation) :
    x ∈ states.foldl (addMissing · ·.continuations) found ↔
      x ∈ found ∨ ∃ state ∈ states, x ∈ state.continuations := by
  induction states generalizing found with
  | nil => simp
  | cons state rest ih =>
    rw [List.foldl_cons, ih, mem_addMissing]
    simp [or_assoc]

theorem sweeps_ceilings (formed : nfa.WellFormed) {states : List State}
    (related : List.Forall₂ (fun member state => nfa.get? member = some state) members states) :
    Sweeps nfa names members 0 [] (ceilings states) where
  ahead := ahead_ceilings formed related
  tabulates := .nil _
  above := fun _ _ => Or.inr rfl
  top := by decide
  named := by simp

/-- The state of a set, given the states of its members and its ranges, the topmost first. -/
def together (states : List State) (runs : List (UInt8 × Target)) : State where
  table := Table.empty.withRuns runs.reverse
  continuations := states.foldl (addMissing · ·.continuations) []

theorem fills_together {states : List State} {runs : List (UInt8 × Target)}
    (related : List.Forall₂ (fun member state => nfa.get? member = some state) members states)
    (full : Table.Tabulates runs byteCeiling (StateSet.LeadsTo nfa names members)) :
    (together states runs).Fills nfa names members where
  leads := fun _ below => full.leads_lookup _ below
  reports := by
    intro x
    rw [together, mem_foldl_addMissing]
    constructor
    · rintro (nothing | ⟨held, member, reported⟩)
      · cases nothing
      · obtain ⟨origin, listed, found⟩ := Checked.exists_item_of_mem related member
        exact ⟨origin, listed, held, found, reported⟩
    · rintro ⟨origin, listed, held, found, reported⟩
      obtain ⟨other, member, stored⟩ := Checked.exists_result_of_mem related listed
      rw [found, Option.some.injEq] at stored
      exact Or.inr ⟨other, member, stored ▸ reported⟩

namespace Tracks

/-- The next set is taken from the pending ones. -/
theorem start {id : StateId} {rest : List (StateId × StateSet)}
    (tracks : Tracks nfa names none subsets) (pending : subsets.pending = (id, members) :: rest) :
    Tracks nfa names (some id) { subsets with pending := rest } := by
  have distinct := tracks.distinct
  rw [pending, List.map_cons, List.nodup_cons] at distinct
  exact {
    interns := tracks.interns
    size := tracks.size
    proper := tracks.proper
    formed := tracks.formed
    closures := tracks.closures
    pending := fun pair listed => tracks.pending pair (pending ▸ List.mem_cons_of_mem _ listed)
    distinct := distinct.2
    idle := by
      intro other busy
      exact Option.some.inj busy ▸ distinct.1
    filled := by
      intro other set named notBusy notPending
      refine tracks.filled other set named (by simp) ?_
      rw [pending, List.map_cons, List.mem_cons]
      rintro (here | later)
      · exact notBusy (here ▸ rfl)
      · exact notPending later
    arisen := tracks.arisen }

/-- The state of the busy set is put in its place. -/
theorem finish {id : StateId} (tracks : Tracks nfa names (some id) subsets)
    (place : names[id]? = some members) {state : State} (fits : state.Fits subsets.arena.size)
    (fills : state.Fills nfa names members) :
    Tracks nfa names none { subsets with arena := subsets.arena.put id state } where
  interns := tracks.interns
  size := (Arena.size_put _ _ _).trans tracks.size
  proper := tracks.proper
  formed := tracks.formed.put fits
  closures := tracks.closures
  pending := tracks.pending
  distinct := tracks.distinct
  idle := by simp
  arisen := tracks.arisen
  filled := by
    intro other set named _ notPending
    by_cases same : id = other
    · subst same
      rw [place, Option.some.injEq] at named
      exact ⟨state, Arena.get?_put_self (tracks.lt_size place), named ▸ fills⟩
    · have idle : other ∉ some id := fun busy => same (Option.some.inj busy)
      obtain ⟨old, found, filled⟩ := tracks.filled other set named idle notPending
      exact ⟨old, (Arena.get?_put_of_ne _ _ same).trans found, filled⟩

end Tracks

/-- A round fills the first pending set, or exceeds the budget. -/
theorem fill_eq (formed : nfa.WellFormed) (budget : Option Nat) {id : StateId}
    {rest : List (StateId × StateSet)} (tracks : Tracks nfa names none subsets)
    (pending : subsets.pending = (id, members) :: rest) :
    (fill nfa budget id members { subsets with pending := rest } = .ok none ∧ nfa.MayExceed budget) ∨
      ∃ after more, fill nfa budget id members { subsets with pending := rest } = .ok (some after) ∧
        names <+: more ∧ Tracks nfa more none after ∧
        more.length + rest.length = names.length + after.pending.length := by
  have place : names[id]? = some members :=
    tracks.pending (id, members) (pending ▸ List.mem_cons_self)
  have bound := (List.getElem?_eq_some_iff.mp place).1
  have inside := (tracks.proper members (List.mem_of_getElem? place)).inside
  have each : ∀ member ∈ members, ∃ state, nfa.get member = .ok state ∧
      nfa.get? member = some state := by
    intro member listed
    obtain ⟨state, found⟩ := Arena.exists_get? (inside member listed)
    exact ⟨state, Arena.get_of_get? found, found⟩
  obtain ⟨states, gotten, related⟩ := Checked.mapM_eq_ok _ each
  have begun := tracks.start pending
  rcases fillRanges_eq formed budget inside begun (List.mem_of_getElem? place)
      (fun other busy => Option.some.inj busy ▸ bound) (sweeps_ceilings formed related) with
    ⟨exceeded, limited⟩ | ⟨after, runs, more, filled, grows, tracksAfter, full, named, count⟩
  · refine Or.inl ⟨?_, limited⟩
    simp only [fill, gotten, exceeded, bind, Except.bind]
    rfl
  · have fits : (together states runs).Fits after.arena.size :=
      .of_tabulates full (tracksAfter.size ▸ named) (by simp) _
    refine Or.inr ⟨_, more, ?_, grows,
      tracksAfter.finish (getElem?_of_isPrefix grows place) fits (fills_together related full), count⟩
    simp only [fill, gotten, filled, bind, Except.bind]
    rfl

/-! ## All sets -/

/-- Where no set is pending, more rounds change nothing. -/
theorem run_of_le {budget : Option Nat} {rounds more : Nat} {after : Subsets}
    (ran : run nfa budget rounds subsets = .ok (some after)) (settled : after.pending = [])
    (order : rounds ≤ more) : run nfa budget more subsets = .ok (some after) := by
  induction rounds generalizing subsets more with
  | zero =>
    cases ran
    cases more with
    | zero => rfl
    | succ more => simp only [run, settled]
  | succ rounds ih =>
    obtain ⟨more, rfl⟩ : ∃ later, more = later + 1 := ⟨more - 1, by omega⟩
    cases pending : subsets.pending with
    | nil =>
      simp only [run, pending] at ran ⊢
      exact ran
    | cons first rest =>
      simp only [run, pending] at ran ⊢
      obtain ⟨filled, done, ran⟩ := Checked.exists_of_bind_eq_ok ran
      rw [done]
      cases filled with
      | none => cases ran
      | some middle => exact ih ran (by omega)

/-- Between rounds the sets that are filled and the rounds to come are no fewer than all sets. Each set takes
one round. -/
theorem run_eq (formed : nfa.WellFormed) (budget : Option Nat) (rounds done : Nat)
    (tracks : Tracks nfa names none subsets) (count : names.length = done + subsets.pending.length)
    (enough : 2 ^ nfa.size ≤ done + rounds) :
    (run nfa budget rounds subsets = .ok none ∧ nfa.MayExceed budget) ∨
      ∃ after more used, run nfa budget used subsets = .ok (some after) ∧ used ≤ rounds ∧ names <+: more ∧
        Tracks nfa more none after ∧ after.pending = [] ∧ more.length = done + used := by
  induction rounds generalizing done names subsets with
  | zero =>
    have most := length_le_of_proper tracks.interns.distinct tracks.proper
    have settled : subsets.pending = [] := List.eq_nil_of_length_eq_zero (by omega)
    exact Or.inr ⟨subsets, names, 0, rfl, Nat.le_refl _, List.prefix_refl _, tracks, settled, by simpa [settled] using count⟩
  | succ rounds ih =>
    cases pending : subsets.pending with
    | nil =>
      exact Or.inr ⟨subsets, names, 0, rfl, Nat.zero_le _, List.prefix_refl _, tracks, pending, by simpa [pending] using count⟩
    | cons first rest =>
      obtain ⟨id, members⟩ := first
      rcases fill_eq formed budget tracks pending with
        ⟨exceeded, limited⟩ | ⟨after, more, filled, grows, tracksAfter, counted⟩
      · refine Or.inl ⟨?_, limited⟩
        simp only [run, pending, exceeded, bind, Except.bind]
        rfl
      · rw [pending, List.length_cons] at count
        have unfolded (rounds : Nat) : run nfa budget (rounds + 1) subsets = run nfa budget rounds after := by
          simp only [run, pending, filled, bind, Except.bind]
        rcases ih (done + 1) tracksAfter (by omega) (by omega) with
          ⟨exceeded, limited⟩ | ⟨last, all, used, ran, within, grown, tracksLast, settled, counts⟩
        · exact Or.inl ⟨(unfolded rounds).trans exceeded, limited⟩
        · exact Or.inr ⟨last, all, used + 1, (unfolded used).trans ran, Nat.succ_le_succ within, grows.trans grown,
            tracksLast, settled, by omega⟩

end Subsets

end ByteAutomata
