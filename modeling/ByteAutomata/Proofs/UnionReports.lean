import ByteAutomata.Proofs.OpenArenas
import ByteAutomata.Proofs.Publishing
import ByteAutomata.Proofs.UnionRounds

/-!
A union reports what either automaton reports.

The state of a pair accepts what one of its two states accepts. The argument looks at one state after
the other and needs to know only how the states of pairs and the states without epsilons accept; a
state with epsilons is forwarded to, whatever it does. A fragment whose loops are not closed yet can
therefore be joined all the same.
-/

namespace ByteAutomata

/-- A target accepts what the state that it names accepts. -/
def Target.Accepts (accepts : StateId → List UInt8 → Prop) (target : Target) (read : List UInt8) :
    Prop :=
  ∃ id, target = some id ∧ accepts id read

theorem Target.accepts_some (accepts : StateId → List UInt8 → Prop) (id : StateId)
    (read : List UInt8) : Target.Accepts accepts (some id) read ↔ accepts id read := by
  simp [Target.Accepts]

theorem Target.not_accepts_none (accepts : StateId → List UInt8 → Prop) (read : List UInt8) :
    ¬ Target.Accepts accepts none read := by
  simp [Target.Accepts]

variable {size : Nat} {pairs : List (StateId × StateId)} {x : Continuation}
  {accepts : StateId → List UInt8 → Prop} {read : List UInt8}

theorem orderedPair_or (a b : StateId) :
    accepts (orderedPair a b).1 read ∨ accepts (orderedPair a b).2 read ↔
      accepts a read ∨ accepts b read := by
  by_cases order : a < b
  · rw [orderedPair, if_pos order]
  · rw [orderedPair, if_neg order, or_comm]

theorem Resolves.accepts_iff {a b target : Target} (resolves : Resolves size pairs a b target)
    (joint : ∀ place pair, pairs[place]? = some pair →
      (accepts (size + place) read ↔ accepts pair.1 read ∨ accepts pair.2 read)) :
    Target.Accepts accepts target read ↔
      Target.Accepts accepts a read ∨ Target.Accepts accepts b read := by
  cases resolves with
  | left => simp [Target.not_accepts_none]
  | right => simp [Target.not_accepts_none]
  | same => simp
  | @pair a b place different named =>
    rw [Target.accepts_some, Target.accepts_some, Target.accepts_some, joint place _ named,
      orderedPair_or]

/-- A state without epsilons accepts by its byte step or its spinout. -/
theorem State.accepts_cons_of_silent {state : State} (silent : state.table.epsilons = [])
    (id : StateId) (byte : UInt8) (rest : List UInt8) :
    state.Accepts x id accepts (byte :: rest) ↔
      Target.Accepts accepts (state.table.lookup byte) rest ∨
        (byte ≠ valueTerminator ∧ Target.Accepts accepts state.table.spinout rest) := by
  simp only [State.Accepts, State.MovesTo, silent, List.not_mem_nil, false_and, exists_false, false_or,
    or_false, Target.Accepts]
  constructor
  · rintro ⟨next, led | ⟨early, spins⟩, later⟩
    · exact Or.inl ⟨next, led, later⟩
    · exact Or.inr ⟨early, next, spins, later⟩
  · rintro (⟨next, led, later⟩ | ⟨early, next, spins, later⟩)
    · exact ⟨next, Or.inl led, later⟩
    · exact ⟨next, Or.inr ⟨early, spins⟩, later⟩

/-- A state that only forwards to others accepts what one of these accepts. -/
theorem State.accepts_splice (id : StateId) {targets : List Target} (other : some id ∉ targets) :
    State.Accepts { table := { Table.empty with epsilons := targets } } x id accepts read ↔
      ∃ next, some next ∈ targets ∧ accepts next read := by
  cases read with
  | nil => simp [State.Accepts]
  | cons byte rest =>
    have stuck (next : StateId) : ¬ State.MovesTo
        { table := { Table.empty with epsilons := targets } } id byte next := by
      rintro (led | ⟨_, spins⟩ | ⟨listed, _⟩)
      · have nowhere : Table.empty.lookup byte = some next := led
        rw [Table.lookup_empty] at nowhere
        cases nowhere
      · cases spins
      · exact other listed
    simp only [State.Accepts, stuck, false_and, exists_false, or_false]

/-- How the states of pairs and the states without epsilons accept. -/
def Arena.SettlesUnion (source joined : Arena) (x : Continuation)
    (accepts : StateId → List UInt8 → Prop) : Prop :=
  ∀ id state, joined.get? id = some state → (source.size ≤ id ∨ state.table.epsilons = []) →
    ∀ read, accepts id read ↔ state.Accepts x id accepts read

namespace Arena.Unites

variable {source joined : Arena}

theorem lt_size (unites : source.Unites pairs joined) {place : Nat} {a b : StateId}
    (named : pairs[place]? = some (orderedPair a b)) : a < source.size ∧ b < source.size := by
  obtain ⟨order, inside⟩ := unites.proper _ (List.mem_of_getElem? named)
  by_cases less : a < b
  · rw [orderedPair, if_pos less] at order inside
    exact ⟨lt_trans order inside, inside⟩
  · rw [orderedPair, if_neg less] at order inside
    exact ⟨inside, lt_trans order inside⟩

theorem settles_source (unites : source.Unites pairs joined)
    (settles : source.SettlesUnion joined x accepts) {id : StateId} {state : State}
    (found : source.get? id = some state) (silent : state.table.epsilons = []) (read : List UInt8) :
    accepts id read ↔ state.Accepts x id accepts read :=
  settles id state ((unites.kept id (lt_size_of_get? found)).trans found) (Or.inr silent) read

/-- The state of a pair accepts what either state of the pair accepts. -/
theorem accepts_joint_iff (unites : source.Unites pairs joined)
    (settles : source.SettlesUnion joined x accepts) (read : List UInt8) {place : Nat}
    {pair : StateId × StateId} (named : pairs[place]? = some pair) :
    accepts (source.size + place) read ↔ accepts pair.1 read ∨ accepts pair.2 read := by
  induction read generalizing place pair with
  | nil =>
    obtain ⟨state, found, a, b, rfl, joins⟩ := unites.joins place pair named
    rw [settles _ state found (Or.inl (Nat.le_add_right _ _)), orderedPair_or]
    rcases joins with rfl | ⟨left, right, atLeft, atRight, combines⟩
    · simp [State.Accepts]
    · rw [unites.settles_source settles atLeft combines.silentLeft,
        unites.settles_source settles atRight combines.silentRight]
      simp only [State.Accepts, combines.silentLeft, combines.silentRight, combines.epsilons,
        List.not_mem_nil, false_and, exists_false, or_false]
      exact combines.continuations x
  | cons byte rest ih =>
    obtain ⟨state, found, a, b, rfl, joins⟩ := unites.joins place pair named
    rw [settles _ state found (Or.inl (Nat.le_add_right _ _)), orderedPair_or]
    rcases joins with rfl | ⟨left, right, atLeft, atRight, combines⟩
    · have other : some (source.size + place) ∉ [some a, some b] := by
        have bound := unites.lt_size named
        intro listed
        rcases List.mem_cons.mp listed with here | later
        · exact absurd (Option.some.inj here ▸ Nat.le_add_right _ _) (Nat.not_le.mpr bound.1)
        · exact absurd (Option.some.inj (List.mem_singleton.mp later) ▸ Nat.le_add_right _ _)
            (Nat.not_le.mpr bound.2)
      rw [State.accepts_splice _ other]
      simp
    · rw [unites.settles_source settles atLeft combines.silentLeft,
        unites.settles_source settles atRight combines.silentRight,
        State.accepts_cons_of_silent combines.epsilons,
        State.accepts_cons_of_silent combines.silentLeft,
        State.accepts_cons_of_silent combines.silentRight,
        (combines.lookup byte).accepts_iff fun _ _ => ih,
        combines.spinout.accepts_iff fun _ _ => ih]
      tauto

theorem accepts_iff (unites : source.Unites pairs joined)
    (settles : source.SettlesUnion joined x accepts) {a b start : Target}
    (resolves : Resolves source.size pairs a b start) (read : List UInt8) :
    Target.Accepts accepts start read ↔
      Target.Accepts accepts a read ∨ Target.Accepts accepts b read :=
  resolves.accepts_iff fun _ _ => unites.accepts_joint_iff settles read

end Arena.Unites

namespace Arena

variable {source joined : Arena}

theorem settlesUnion_yields (source joined : Arena) (x : Continuation) :
    source.SettlesUnion joined x (joined.Yields x) :=
  fun _ _ found _ => yields_iff found

theorem reports_iff_accepts (arena : Arena) (start : Target) (value : List UInt8) (x : Continuation) :
    arena.Reports start value x ↔
      ∃ read, read <+: terminated value ∧ Target.Accepts (arena.Yields x) start read := by
  simp only [Reports, Target.Accepts]
  constructor
  · rintro ⟨id, same, read, leading, yields⟩
    exact ⟨read, leading, id, same, yields⟩
  · rintro ⟨read, leading, id, same, yields⟩
    exact ⟨id, same, read, leading, yields⟩

theorem Unites.reports_iff (unites : source.Unites pairs joined) (formed : source.WellFormed)
    {a b start : Target} (left : source.TargetWithin a) (right : source.TargetWithin b)
    (resolves : Resolves source.size pairs a b start) (value : List UInt8) (x : Continuation) :
    joined.Reports start value x ↔ source.Reports a value x ∨ source.Reports b value x := by
  rw [reports_iff_of_kept formed unites.kept left, reports_iff_of_kept formed unites.kept right]
  simp only [reports_iff_accepts,
    unites.accepts_iff (settlesUnion_yields source joined x) resolves]
  grind

/-- A union reports on every value what either automaton reports. The arena stays well-formed and
keeps its states, and from each of its states it reports what it did before. -/
theorem matched_union (formed : source.WellFormed) {a b : Target} (left : source.TargetWithin a)
    (right : source.TargetWithin b) :
    ∃ joined start, source.union a b = .ok (joined, start) ∧ joined.WellFormed ∧
      joined.TargetWithin start ∧ source.size ≤ joined.size ∧
      (∀ id < source.size, joined.get? id = source.get? id) ∧
      (∀ value, ∃ fromLeft fromRight fromUnion,
        (Automaton.ofUnion source a).matched value = .ok fromLeft ∧
        (Automaton.ofUnion source b).matched value = .ok fromRight ∧
        (Automaton.ofUnion joined start).matched value = .ok fromUnion ∧
        ∀ x, x ∈ fromUnion ↔ x ∈ fromLeft ∨ x ∈ fromRight) ∧
      ∀ earlier, source.TargetWithin earlier → ∀ value, ∃ before after,
        (Automaton.ofUnion source earlier).matched value = .ok before ∧
        (Automaton.ofUnion joined earlier).matched value = .ok after ∧
        ∀ x, x ∈ after ↔ x ∈ before := by
  obtain ⟨joined, start, pairs, united, unites, resolves⟩ := union_eq formed left right
  have longer : source.size ≤ joined.size := unites.size ▸ Nat.le_add_right _ _
  have inside : joined.TargetWithin start := fun id leads => by
    rw [unites.size]
    exact resolves.lt (fun id leads => left id leads) (fun id leads => right id leads) leads
  refine ⟨joined, start, united, unites.formed, inside, longer, unites.kept, fun value => ?_,
    fun earlier within value => ?_⟩
  · obtain ⟨fromLeft, ranLeft, _, leftIff⟩ := Automaton.matched_ofUnion formed left value
    obtain ⟨fromRight, ranRight, _, rightIff⟩ := Automaton.matched_ofUnion formed right value
    obtain ⟨fromUnion, ranUnion, _, unionIff⟩ := Automaton.matched_ofUnion unites.formed inside value
    refine ⟨fromLeft, fromRight, fromUnion, ranLeft, ranRight, ranUnion, fun x => ?_⟩
    rw [unionIff x, leftIff x, rightIff x, unites.reports_iff formed left right resolves]
  · have withinAfter : joined.TargetWithin earlier :=
      fun id leads => lt_of_lt_of_le (within id leads) longer
    obtain ⟨before, ranBefore, _, beforeIff⟩ := Automaton.matched_ofUnion formed within value
    obtain ⟨after, ranAfter, _, afterIff⟩ :=
      Automaton.matched_ofUnion unites.formed withinAfter value
    refine ⟨before, after, ranBefore, ranAfter, fun x => ?_⟩
    rw [afterIff x, beforeIff x, reports_iff_of_kept formed unites.kept within]

/-- Two loops that share a state: one forwards to itself and to the shared state, the other spins. -/
def sharedLoops : Arena :=
  ⟨#[{ table := { Table.empty with epsilons := [some 0, some 2] } },
    { table := { Table.single 0x62 (some 2) with spinout := some 1 } },
    { table := Table.single 0x61 (some 3) }, { continuations := [7] }]⟩

theorem matched_union_sharedLoops :
    sharedLoops.WellFormed ∧ ∃ joined start,
      sharedLoops.union (some 0) (some 1) = .ok (joined, start) ∧ joined.WellFormed ∧
      ∃ fromLeft fromRight fromUnion,
        (Automaton.ofUnion sharedLoops (some 0)).matched [0x62, 0x61] = .ok fromLeft ∧
        (Automaton.ofUnion sharedLoops (some 1)).matched [0x62, 0x61] = .ok fromRight ∧
        (Automaton.ofUnion joined start).matched [0x62, 0x61] = .ok fromUnion ∧
        ∀ x, x ∈ fromUnion ↔ x ∈ fromLeft ∨ x ∈ fromRight := by
  have formed : sharedLoops.WellFormed := by decide
  obtain ⟨joined, start, united, after, _, _, _, agrees, _⟩ := matched_union formed
    (by decide : sharedLoops.TargetWithin (some 0)) (by decide : sharedLoops.TargetWithin (some 1))
  exact ⟨formed, joined, start, united, after, agrees [0x62, 0x61]⟩

end Arena

end ByteAutomata
