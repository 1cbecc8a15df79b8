import ByteAutomata.Proofs.Checked
import ByteAutomata.Proofs.UnionPairs

/-!
A union fills the pairs that it named.

The ranges of both tables are walked in lockstep and tabulate where the pair moves on each byte. A
round joins one pair for good and names those that its moves lead to, so there are rounds enough.
-/

namespace ByteAutomata

variable {size : Nat} {pairs more : List (StateId × StateId)}

namespace Joining

/-! ## One pair -/

/-- The ranges of a table that lie above `floor`. Before any range was passed the first may be empty. -/
structure Above (table : Table) (fresh : Prop) (floor : UInt8) (runs : List (UInt8 × Target)) :
    Prop where
  ascends : (runs.map (·.1)).Pairwise (· < ·)
  last : floor = byteCeiling ∨ byteCeiling ∈ runs.map (·.1)
  within : ∀ run ∈ runs, run.1 ≤ byteCeiling
  higher : ∀ run ∈ runs, floor < run.1 ∨ (fresh ∧ floor = 0)
  agrees : ∀ byte, floor ≤ byte → Table.targetAt runs byte = table.lookup byte

namespace Above

variable {table : Table} {fresh later : Prop} {floor ceiling : UInt8} {target : Target}
  {runs : List (UInt8 × Target)}

theorem start (formed : table.WellFormed) (begins : fresh) : Above table fresh 0 table.runs := by
  have ascends := ((Table.wellFormed_iff table).mp formed).2
  rw [← Table.ceilings_eq_runs formed] at ascends
  exact {
    ascends := ascends.1
    last := Or.inr (List.mem_of_getLast? ascends.2)
    within := fun run listed => ascends.le_byteCeiling run.1 (List.mem_map_of_mem listed)
    higher := fun _ _ => Or.inr ⟨begins, rfl⟩
    agrees := fun byte _ => (Table.lookup_eq_targetAt formed byte).symm }

/-- The first range is passed. -/
theorem tail (above : Above table fresh floor ((ceiling, target) :: runs)) (order : floor ≤ ceiling) :
    Above table later ceiling runs where
  ascends := above.ascends.of_cons
  last := by
    rcases above.last with ended | listed
    · have bound := above.within _ List.mem_cons_self
      exact Or.inl (UInt8.le_antisymm bound (ended ▸ order))
    · rcases List.mem_cons.mp listed with here | later
      · exact Or.inl here.symm
      · exact Or.inr later
  within := fun run listed => above.within run (List.mem_cons_of_mem _ listed)
  higher := fun run listed =>
    Or.inl (List.rel_of_pairwise_cons above.ascends (List.mem_map_of_mem listed))
  agrees := by
    intro byte high
    rw [← above.agrees byte (UInt8.le_trans order high), Table.targetAt_cons,
      if_neg (UInt8.not_lt.mpr high)]

/-- Some leading bytes of the first range are passed. -/
theorem raise (above : Above table fresh floor ((ceiling, target) :: runs)) {top : UInt8}
    (order : floor ≤ top) (less : top < ceiling) :
    Above table later top ((ceiling, target) :: runs) where
  ascends := above.ascends
  last := by
    rcases above.last with ended | listed
    · have bound := above.within _ List.mem_cons_self
      exact Or.inl (UInt8.le_antisymm (UInt8.le_trans (UInt8.le_of_lt less) bound) (ended ▸ order))
    · exact Or.inr listed
  within := above.within
  higher := by
    intro run listed
    rcases List.mem_cons.mp listed with here | later
    · exact Or.inl (here ▸ less)
    · exact Or.inl (UInt8.lt_trans less
        (List.rel_of_pairwise_cons above.ascends (List.mem_map_of_mem later)))
  agrees := fun byte high => above.agrees byte (UInt8.le_trans order high)

theorem le_ceiling (above : Above table fresh floor ((ceiling, target) :: runs)) :
    floor ≤ ceiling := by
  rcases above.higher _ List.mem_cons_self with less | ⟨_, zero⟩
  · exact UInt8.le_of_lt less
  · rw [zero]
    simp [UInt8.le_iff_toNat_le]

theorem lookup_eq (above : Above table fresh floor ((ceiling, target) :: runs)) {byte : UInt8}
    (order : floor ≤ byte) (below : byte < ceiling) : table.lookup byte = target := by
  rw [← above.agrees byte order, Table.targetAt_cons, if_pos below]

end Above

/-- Two tables are read up to `floor`. The ranges listed tabulate where their union moves on the bytes below,
and those that are left tell where the tables move from there on. -/
structure Walks (source : Arena) (pairs : List (StateId × StateId)) (left right : Table) (floor : UInt8)
    (runs as bs : List (UInt8 × Target)) : Prop where
  aboveLeft : Above left (runs = []) floor as
  aboveRight : Above right (runs = []) floor bs
  insideLeft : ∀ run ∈ as, source.TargetWithin run.2
  insideRight : ∀ run ∈ bs, source.TargetWithin run.2
  tabulates : Table.Tabulates runs floor fun byte =>
    Resolves source.size pairs (left.lookup byte) (right.lookup byte)
  named : ∀ id, some id ∈ runs.map (·.2) → id < source.size + pairs.length

namespace Walks

variable {source : Arena} {left right : Table} {floor ceilingA ceilingB : UInt8} {a b target : Target}
  {runs restA restB : List (UInt8 × Target)}

section

variable (walks : Walks source pairs left right floor runs ((ceilingA, a) :: restA) ((ceilingB, b) :: restB))
  (grows : pairs <+: more) (resolves : Resolves source.size more a b target)
include walks grows resolves

/-- One more range, up to a ceiling that lies above neither of the next two. -/
theorem tabulates_extend {top : UInt8} (above : floor < top ∨ runs = []) (underA : top ≤ ceilingA)
    (underB : top ≤ ceilingB) :
    Table.Tabulates (Table.extendRuns top target runs) top fun byte =>
      Resolves source.size more (left.lookup byte) (right.lookup byte) := by
  refine (walks.tabulates.mono fun _ _ old => old.mono grows).extend above fun byte low high => ?_
  rw [walks.aboveLeft.lookup_eq low (UInt8.lt_of_lt_of_le high underA),
    walks.aboveRight.lookup_eq low (UInt8.lt_of_lt_of_le high underB)]
  exact resolves

theorem named_extend {top : UInt8} {id : StateId}
    (listed : some id ∈ (Table.extendRuns top target runs).map (·.2)) : id < source.size + more.length := by
  rcases Table.mem_extendRuns listed with here | earlier
  · exact resolves.lt (walks.insideLeft _ List.mem_cons_self) (walks.insideRight _ List.mem_cons_self) here.symm
  · exact lt_of_lt_of_le (walks.named id earlier) (Nat.add_le_add_left grows.length_le _)

/-- The range of the left table ends first. -/
theorem passLeft (lower : ceilingA < ceilingB) :
    Walks source more left right ceilingA (Table.extendRuns ceilingA target runs) restA
      ((ceilingB, b) :: restB) where
  aboveLeft := walks.aboveLeft.tail walks.aboveLeft.le_ceiling
  aboveRight := walks.aboveRight.raise walks.aboveLeft.le_ceiling lower
  insideLeft := fun run listed => walks.insideLeft run (List.mem_cons_of_mem _ listed)
  insideRight := walks.insideRight
  tabulates := walks.tabulates_extend grows resolves
    ((walks.aboveLeft.higher _ List.mem_cons_self).imp_right And.left) (UInt8.le_refl _) (UInt8.le_of_lt lower)
  named := fun _ listed => walks.named_extend grows resolves listed

/-- The range of the right table ends first. -/
theorem passRight (lower : ceilingB < ceilingA) :
    Walks source more left right ceilingB (Table.extendRuns ceilingB target runs) ((ceilingA, a) :: restA)
      restB where
  aboveLeft := walks.aboveLeft.raise walks.aboveRight.le_ceiling lower
  aboveRight := walks.aboveRight.tail walks.aboveRight.le_ceiling
  insideLeft := walks.insideLeft
  insideRight := fun run listed => walks.insideRight run (List.mem_cons_of_mem _ listed)
  tabulates := walks.tabulates_extend grows resolves
    ((walks.aboveRight.higher _ List.mem_cons_self).imp_right And.left) (UInt8.le_of_lt lower) (UInt8.le_refl _)
  named := fun _ listed => walks.named_extend grows resolves listed

/-- Both ranges end at the same byte. -/
theorem passBoth (level : ceilingA = ceilingB) :
    Walks source more left right ceilingA (Table.extendRuns ceilingA target runs) restA restB where
  aboveLeft := walks.aboveLeft.tail walks.aboveLeft.le_ceiling
  aboveRight := level ▸ walks.aboveRight.tail walks.aboveRight.le_ceiling
  insideLeft := fun run listed => walks.insideLeft run (List.mem_cons_of_mem _ listed)
  insideRight := fun run listed => walks.insideRight run (List.mem_cons_of_mem _ listed)
  tabulates := walks.tabulates_extend grows resolves
    ((walks.aboveLeft.higher _ List.mem_cons_self).imp_right And.left) (UInt8.le_refl _) (UInt8.le_of_eq level)
  named := fun _ listed => walks.named_extend grows resolves listed

end

end Walks

section Filling

variable {source : Arena} {busy : Option StateId} {joining : Joining}

/-- Resolving the common ranges of two tables tabulates where their union moves. -/
theorem resolveRanges_eq {left right : Table} (tracks : Tracks source pairs busy joining)
    (known : ∀ id ∈ busy, id < joining.arena.size) {floor : UInt8} {runs as bs : List (UInt8 × Target)}
    (walks : Walks source pairs left right floor runs as bs) :
    ∃ after filled more, joining.resolveRanges runs as bs = .ok (after, filled) ∧
      Advances source busy pairs more joining after ∧
      Table.Tabulates filled byteCeiling (fun byte =>
        Resolves source.size more (left.lookup byte) (right.lookup byte)) ∧
      ∀ id, some id ∈ filled.map (·.2) → id < source.size + more.length := by
  induction length : as.length + bs.length using Nat.strong_induction_on
    generalizing joining pairs floor runs as bs with
  | _ length ih =>
  subst length
  match as, bs with
  | [], bs =>
    have top : floor = byteCeiling := by simpa using walks.aboveLeft.last
    subst top
    exact ⟨joining, runs, pairs, by rw [resolveRanges], .refl tracks, walks.tabulates, walks.named⟩
  | (ceilingA, a) :: restA, [] =>
    have top : floor = byteCeiling := by simpa using walks.aboveRight.last
    subst top
    exact ⟨joining, runs, pairs, by simp [resolveRanges], .refl tracks, walks.tabulates, walks.named⟩
  | (ceilingA, a) :: restA, (ceilingB, b) :: restB =>
    obtain ⟨middle, target, mid, resolved, advances, resolves⟩ :=
      resolve_eq tracks (walks.insideLeft _ List.mem_cons_self) (walks.insideRight _ List.mem_cons_self) known
    have knownNext := advances.known tracks known
    rw [resolveRanges, resolved]
    simp only [bind, Except.bind]
    by_cases lowerA : ceilingA < ceilingB
    · rw [if_pos lowerA]
      obtain ⟨after, filled, more, ran, later, full, inside⟩ := ih _ (by simp only [List.length_cons]; omega)
        advances.tracks knownNext (walks.passLeft advances.grows resolves lowerA) rfl
      exact ⟨after, filled, more, ran, advances.trans later, full, inside⟩
    · rw [if_neg lowerA]
      by_cases lowerB : ceilingB < ceilingA
      · rw [if_pos lowerB]
        obtain ⟨after, filled, more, ran, later, full, inside⟩ := ih _ (by simp only [List.length_cons]; omega)
          advances.tracks knownNext (walks.passRight advances.grows resolves lowerB) rfl
        exact ⟨after, filled, more, ran, advances.trans later, full, inside⟩
      · rw [if_neg lowerB]
        have level := UInt8.le_antisymm (UInt8.not_lt.mp lowerB) (UInt8.not_lt.mp lowerA)
        obtain ⟨after, filled, more, ran, later, full, inside⟩ := ih _ (by simp only [List.length_cons]; omega)
          advances.tracks knownNext (walks.passBoth advances.grows resolves level) rfl
        exact ⟨after, filled, more, ran, advances.trans later, full, inside⟩

theorem targetWithin_runs {state : State} (fits : state.Fits source.size) :
    ∀ run ∈ state.table.runs, source.TargetWithin run.2 := by
  intro run listed id leads
  refine fits.steps id ?_
  rw [← Table.steps_eq_runs fits.table, ← show run.2 = some id from leads]
  exact List.mem_map_of_mem listed

/-- The state for two states without epsilons, given its spinout and its ranges, the topmost first. -/
def combined (left right : State) (spinout : Target) (runs : List (UInt8 × Target)) : State where
  table := { Table.empty with spinout }.withRuns runs.reverse
  continuations := addMissing left.continuations right.continuations

theorem combines_combined {left right : State} {spinout : Target} {runs : List (UInt8 × Target)}
    (full : Table.Tabulates runs byteCeiling fun byte =>
      Resolves size pairs (left.table.lookup byte) (right.table.lookup byte))
    (leftFormed : left.table.WellFormed) (rightFormed : right.table.WellFormed)
    (leftSilent : left.table.epsilons = []) (rightSilent : right.table.epsilons = [])
    (spinouts : Resolves size pairs left.table.spinout right.table.spinout spinout) :
    State.Combines size pairs left right (combined left right spinout runs) where
  silentLeft := leftSilent
  silentRight := rightSilent
  epsilons := rfl
  continuations := fun x => mem_addMissing left.continuations right.continuations x
  lookup := by
    intro byte
    by_cases below : byte < byteCeiling
    · exact full.leads_lookup _ below
    · have high := UInt8.not_lt.mp below
      rw [combined, Table.lookup_of_ceiling_le leftFormed high, Table.lookup_of_ceiling_le rightFormed high,
        Table.lookup_of_ceiling_le (full.wellFormed_withRuns _) high]
      exact .left none
  spinout := spinouts

/-- A round joins the first pending pair. -/
theorem fill_eq (formed : source.WellFormed) {pairing : Pairing} {rest : List Pairing}
    (tracks : Tracks source pairs none joining) (pending : joining.pending = pairing :: rest) :
    ∃ after more, Joining.fill { joining with pending := rest } pairing = .ok after ∧
      pairs <+: more ∧ Tracks source more none after ∧
      pairs.length + after.pending.length ≤ more.length + rest.length := by
  obtain ⟨⟨place, joint, named⟩, ⟨left, leftFound, leftSilent⟩, ⟨right, rightFound, rightSilent⟩⟩ :=
    tracks.pending pairing (pending ▸ List.mem_cons_self)
  have bound := (List.getElem?_eq_some_iff.mp named).1
  have begun := tracks.start pending
  have known : ∀ id ∈ some pairing.joint, id < joining.arena.size := by
    intro id same
    rw [← Option.some.inj same, joint, tracks.size]
    exact Nat.add_lt_add_left bound source.size
  have leftFits := formed.fits leftFound
  have rightFits := formed.fits rightFound
  have leftHeld :=
    Arena.get_of_get? ((tracks.kept _ (Arena.lt_size_of_get? leftFound)).trans leftFound)
  have rightHeld :=
    Arena.get_of_get? ((tracks.kept _ (Arena.lt_size_of_get? rightFound)).trans rightFound)
  obtain ⟨spun, spinout, mid, spinoutEq, first, spinouts⟩ :=
    resolve_eq begun (fun id spins => leftFits.spinout id spins)
      (fun id spins => rightFits.spinout id spins) known
  obtain ⟨after, runs, more, ranged, second, full, inside⟩ :=
    resolveRanges_eq first.tracks (first.known begun known)
      ⟨Above.start leftFits.table rfl, Above.start rightFits.table rfl, targetWithin_runs leftFits,
        targetWithin_runs rightFits, Table.Tabulates.nil _, by simp⟩
  have advances := first.trans second
  have spinoutsLater := spinouts.mono second.grows
  have fits : (combined left right spinout runs).Fits after.arena.size := by
    rw [advances.tracks.size]
    exact .of_tabulates full inside (fun id spins => spinoutsLater.lt (fun id spins => leftFits.spinout id spins)
      (fun id spins => rightFits.spinout id spins) spins) _
  have joins : source.Joins more (orderedPair pairing.left pairing.right) (combined left right spinout runs) :=
    ⟨pairing.left, pairing.right, rfl, Or.inr ⟨left, right, leftFound, rightFound,
      combines_combined full leftFits.table rightFits.table leftSilent rightSilent spinoutsLater⟩⟩
  have tracksAfter := advances.tracks
  rw [joint] at tracksAfter
  refine ⟨_, more, ?_, advances.grows, tracksAfter.finish (getElem?_of_isPrefix advances.grows named) fits joins, advances.count⟩
  simp only [fill, leftHeld, rightHeld, spinoutEq, ranged, bind, Except.bind, joint]
  rfl

/-- Between rounds the pairs that are joined and the rounds to come are no fewer than all pairs. -/
theorem run_eq (formed : source.WellFormed) (rounds done : Nat)
    (tracks : Tracks source pairs none joining)
    (count : done + joining.pending.length ≤ pairs.length)
    (enough : source.size * (source.size - 1) / 2 ≤ done + rounds) :
    ∃ after more, run rounds joining = .ok after ∧ pairs <+: more ∧
      Tracks source more none after ∧ after.pending = [] := by
  induction rounds generalizing done pairs joining with
  | zero =>
    have most := length_le_of_pairs tracks.interns.distinct tracks.proper
    have settled : joining.pending = [] := List.eq_nil_of_length_eq_zero (by omega)
    exact ⟨joining, pairs, rfl, List.prefix_refl _, tracks, settled⟩
  | succ rounds ih =>
    cases pending : joining.pending with
    | nil =>
      refine ⟨joining, pairs, ?_, List.prefix_refl _, tracks, pending⟩
      simp only [run, pending]
    | cons pairing rest =>
      obtain ⟨after, more, filled, grows, tracksAfter, counted⟩ := fill_eq formed tracks pending
      rw [pending, List.length_cons] at count
      obtain ⟨last, all, ran, grown, tracksLast, settled⟩ :=
        ih (done + 1) tracksAfter (by omega) (by omega)
      refine ⟨last, all, ?_, grows.trans grown, tracksLast, settled⟩
      simp only [run, pending, filled, bind, Except.bind, ran]

end Filling

/-- Where no pair is left open, more rounds change nothing. -/
theorem run_of_le {joining after : Joining} {rounds more : Nat} (ran : run rounds joining = .ok after)
    (settled : after.pending = []) (order : rounds ≤ more) : run more joining = .ok after := by
  induction rounds generalizing joining more with
  | zero =>
    cases ran
    cases more with
    | zero => rfl
    | succ more => simp only [run, settled]
  | succ rounds ih =>
    obtain ⟨more, rfl⟩ : ∃ later, more = later + 1 := ⟨more - 1, by omega⟩
    cases open_ : joining.pending with
    | nil =>
      simp only [run, open_] at ran ⊢
      exact ran
    | cons pairing rest =>
      simp only [run, open_] at ran ⊢
      obtain ⟨middle, filled, ran⟩ := Checked.exists_of_bind_eq_ok ran
      rw [filled]
      exact ih ran (by omega)

end Joining

/-- The arena keeps another one's states, and behind these stand the states of the pairs. -/
structure Arena.Unites (source : Arena) (pairs : List (StateId × StateId)) (joined : Arena) : Prop where
  formed : joined.WellFormed
  size : joined.size = source.size + pairs.length
  proper : ∀ pair ∈ pairs, pair.1 < pair.2 ∧ pair.2 < source.size
  kept : ∀ id < source.size, joined.get? id = source.get? id
  joins : ∀ place pair, pairs[place]? = some pair →
    ∃ state, joined.get? (source.size + place) = some state ∧ source.Joins pairs pair state

theorem Arena.pairs_le_pairBound (source : Arena) :
    source.size * (source.size - 1) / 2 ≤ source.pairBound := by
  refine le_trans (Nat.div_le_self _ _) (le_trans ?_ (Nat.le_max_left _ _))
  exact Nat.mul_le_mul_left _ (Nat.sub_le _ _)

/-- As many rounds as there are pairs suffice: none is left open. -/
theorem Joining.settles {source : Arena} (formed : source.WellFormed) {a b : Target}
    (left : source.TargetWithin a) (right : source.TargetWithin b) :
    ∃ middle start after pairs, Joining.resolve { arena := source } a b = .ok (middle, start) ∧
      (∀ rounds, source.size * (source.size - 1) / 2 ≤ rounds → run rounds middle = .ok after) ∧
      after.pending = [] ∧ pairs.Nodup ∧ source.Unites pairs after.arena ∧
      Resolves source.size pairs a b start := by
  have blank : Tracks source [] none { arena := source } := {
    interns := .empty _
    size := rfl
    proper := by simp
    kept := fun _ _ => rfl
    formed := formed
    pending := by simp
    distinct := by simp
    idle := by simp
    joined := by simp }
  obtain ⟨middle, start, pairs, resolved, advances, resolves⟩ :=
    resolve_eq blank left right (by simp)
  have count := advances.count
  simp only [List.length_nil, Nat.zero_add, Nat.add_zero] at count
  obtain ⟨after, more, ran, grows, tracks, settled⟩ :=
    run_eq formed (source.size * (source.size - 1) / 2) 0 advances.tracks (by omega) (by omega)
  refine ⟨middle, start, after, more, resolved, fun rounds enough => run_of_le ran settled enough, settled,
    tracks.interns.distinct, ⟨tracks.formed, tracks.size, tracks.proper, tracks.kept, ?_⟩, resolves.mono grows⟩
  intro place pair named
  exact tracks.joined place pair named (by simp) (by simp [settled])

/-- A union never faults and writes no state of the arena. -/
theorem Arena.union_eq {source : Arena} (formed : source.WellFormed) {a b : Target}
    (left : source.TargetWithin a) (right : source.TargetWithin b) :
    ∃ joined start pairs, source.union a b = .ok (joined, start) ∧ source.Unites pairs joined ∧
      Resolves source.size pairs a b start := by
  obtain ⟨middle, start, after, pairs, resolved, ran, _, _, unites, resolves⟩ :=
    Joining.settles formed left right
  refine ⟨after.arena, start, pairs, ?_, unites, resolves⟩
  simp only [union, resolved, ran _ source.pairs_le_pairBound, bind, Except.bind]
  rfl

/-- Nothing need be made for a union with nothing. -/
theorem Arena.union_none (arena : Arena) (target : Target) : arena.union none target = .ok (arena, target) := by
  have settled (rounds : Nat) : Joining.run rounds { arena } = .ok { arena } := by
    cases rounds <;> rfl
  have resolved : Joining.resolve { arena } none target = .ok ({ arena }, target) := by
    cases target <;> rfl
  simp only [union, resolved, settled, bind, Except.bind]
  rfl

end ByteAutomata
