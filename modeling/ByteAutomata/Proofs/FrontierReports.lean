import ByteAutomata.Proofs.LeftoverFrontiers

/-!
Runs of an automaton, and what a run by frontier reports of them.

A run goes from state to state. It follows an epsilon without reading and moves on each byte that it
reads. What a frontier finds does not depend on its room, on what earlier values have left in it or on
which closures are known: it is what the states hold where such runs end.
-/

namespace ByteAutomata

namespace Arena

/-- Reading the bytes from the first state can end in the last one. -/
inductive Run (arena : Arena) : StateId → List UInt8 → StateId → Prop
  | stay {id : StateId} : Run arena id [] id
  | forward {id next last : StateId} {read : List UInt8} :
      arena.Forwards id next → Run arena next read last → Run arena id read last
  | move {id next last : StateId} {byte : UInt8} {rest : List UInt8} :
      arena.Moves byte id next → Run arena next rest last → Run arena id (byte :: rest) last

variable {arena : Arena} {id : StateId} {x : Continuation} {read : List UInt8}

/-- A state yields what the states hold in which a run from it can end. -/
theorem yields_iff_exists_run : arena.Yields x id read ↔ ∃ last, arena.Run id read last ∧ arena.Holds last x := by
  constructor
  · intro yields
    induction yields with
    | here holds => exact ⟨_, .stay, holds⟩
    | forward forwards _ ih =>
      obtain ⟨last, run, holds⟩ := ih
      exact ⟨last, .forward forwards run, holds⟩
    | read moves _ ih =>
      obtain ⟨last, run, holds⟩ := ih
      exact ⟨last, .move moves run, holds⟩
  · rintro ⟨last, run, holds⟩
    induction run with
    | stay => exact .here holds
    | forward forwards _ ih => exact .forward forwards (ih holds)
    | move moves _ ih => exact .read moves (ih holds)

theorem reports_iff_exists_run {start : Target} {value : List UInt8} :
    arena.Reports start value x ↔ ∃ first, start = some first ∧ ∃ read, read <+: terminated value ∧
      ∃ last, arena.Run first read last ∧ arena.Holds last x := by
  simp only [Reports, yields_iff_exists_run]

/-- A run that starts outside the arena faults: either the frontier has no room for its start, or the
closure of the start is not there to be looked up. -/
theorem exists_fault_sweep {closures : ClosureCache} (known : closures.ValidFor arena) {frontiers : Frontiers}
    (valid : frontiers.Valid) (outside : arena.size ≤ id) (value : List UInt8) (found : List Continuation) :
    ∃ fault, arena.sweep closures (some id) value frontiers found = .error fault := by
  have cleared := (valid.current.ensureCapacity arena.size).1.clear
  by_cases room : id < (frontiers.ensureCapacity arena.size).clear.current.capacity
  · obtain ⟨current, inserted, currentValid, _, members⟩ := cleared.insert_eq room
    have begins : (frontiers.ensureCapacity arena.size).clear.current.insert id = .ok (current, _) := inserted
    rw [SparseSet.toList_clear, if_neg List.not_mem_nil, List.nil_append] at members
    have active : current.isEmpty = false := by
      rw [Bool.eq_false_iff, ne_eq, SparseSet.isEmpty_iff currentValid, members]
      exact List.cons_ne_nil _ _
    have missing : closures.slots[id]? = none :=
      Array.getElem?_eq_none_iff.mpr (le_of_eq_of_le known.size outside)
    obtain ⟨byte, rest, first⟩ := List.exists_cons_of_ne_nil
      (List.append_ne_nil_of_right_ne_nil value (List.cons_ne_nil valueTerminator []))
    refine ⟨.noSuchState id, ?_⟩
    simp only [sweep, begins, terminated, first, Sweep.readAll, active, Sweep.readByte, members,
      List.foldlM_cons, Sweep.closure, ClosureCache.get, missing, bind, Except.bind, Bool.false_eq_true,
      ↓reduceIte]
  · obtain ⟨fault, refused⟩ := cleared.exists_fault_insert (Nat.not_lt.mp room)
    have begins : (frontiers.ensureCapacity arena.size).clear.current.insert id = .error fault := refused
    exact ⟨fault, by simp only [sweep, begins, bind, Except.bind]⟩

/-- Whatever earlier runs have left in the frontiers and in the cache, a run from a state of the arena
appends to what was found, once each, all that was not in it and is held where a run ends that has read a
leading part of the terminated value. Without a start it appends nothing, and a start outside the arena is a
fault. -/
theorem sweep_appends_runs (formed : arena.WellFormed) {closures : ClosureCache}
    (known : closures.ValidFor arena) {frontiers : Frontiers} (leftOver : frontiers.LeftOver) (start : Target)
    (value : List UInt8) (found : List Continuation) :
    (arena.TargetWithin start →
      ∃ more left learnt, arena.sweep closures start value frontiers found = .ok (found ++ more, left, learnt) ∧
        more.Nodup ∧ ∀ x, x ∈ more ↔ x ∉ found ∧ ∃ first, start = some first ∧
          ∃ read, read <+: terminated value ∧ ∃ last, arena.Run first read last ∧ arena.Holds last x) ∧
    (¬ arena.TargetWithin start →
      ∃ fault, arena.sweep closures start value frontiers found = .error fault) := by
  constructor
  · intro inside
    obtain ⟨more, left, learnt, ran, _, _, distinct, exactly⟩ :=
      sweep_eq formed inside known leftOver.valid value found
    refine ⟨more, left, learnt, ran, distinct, fun x => ?_⟩
    rw [exactly, reports_iff_exists_run]
  · intro outside
    cases start with
    | none => exact absurd (fun _ same => nomatch same) outside
    | some id =>
      refine exists_fault_sweep known leftOver.valid (Nat.not_lt.mp fun inside => ?_) value found
      exact outside (targetWithin_some inside)

/-- Two states forward to one another, a third stays where it is, and the fourth goes back to the third. -/
def forwardingLoop : Arena :=
  ⟨#[{ table := { Table.empty with epsilons := [some 1, some 2] } },
    { table := { Table.empty with epsilons := [some 0] }, continuations := [5] },
    { table := { Table.single 0x61 (some 3) with epsilons := [some 2] } },
    { table := { Table.empty with spinout := some 2 }, continuations := [7, 5] }]⟩

/-- Stays in the last of its six states. -/
def lastOfSix : Automaton where
  arena := ⟨Array.replicate 6 { table := { Table.empty with epsilons := [some 5] } }⟩
  start := some 5
  deterministic := false
  closures := ⟨Array.replicate 6 (some [5])⟩

/-- What a run of `lastOfSix` leaves behind. -/
def lastOfSixActive : Frontiers where
  current := { size := 1, dense := #[5, 0, 0, 0, 0, 0], sparse := #[0, 0, 0, 0, 0, 0] }
  next := { size := 0, dense := #[5, 0, 0, 0, 0, 0], sparse := #[0, 0, 0, 0, 0, 0] }

theorem sweep_appends_runs_forwardingLoop :
    forwardingLoop.WellFormed ∧ lastOfSixActive.LeftOver ∧
      ∃ more left learnt, forwardingLoop.sweep ⟨#[some [1, 2], none, none, none]⟩ (some 0) [0x62, 0x61]
        lastOfSixActive [7] = .ok ([7] ++ more, left, learnt) ∧ more.Nodup ∧ 5 ∈ more ∧ 7 ∉ more := by
  have formed : forwardingLoop.WellFormed := by decide
  have closed : forwardingLoop.closure 0 = [1, 2] := by
    simp [forwardingLoop, closure, epsilonClosure, closureFrom, EpsilonSearch.visit, get, get?, size, bind,
      Except.bind, pure, Except.pure, Table.empty, Table.always, Table.single, State.acts, Table.hasNoByteSteps]
  have known : ClosureCache.ValidFor ⟨#[some [1, 2], none, none, none]⟩ forwardingLoop := by
    refine ⟨rfl, fun id listed found => ?_⟩
    rcases id with _ | _ | _ | _ | id <;> simp at found
    exact found ▸ closed.symm
  have leftOver : lastOfSixActive.LeftOver :=
    .after .fresh (rfl : lastOfSix.matchInto [0x61] {} [] = .ok ([], lastOfSixActive))
  obtain ⟨more, left, learnt, ran, distinct, exactly⟩ :=
    (sweep_appends_runs formed known leftOver (some 0) [0x62, 0x61] [7]).1 (by decide)
  refine ⟨formed, leftOver, more, left, learnt, ran, distinct, ?_, fun listed => ?_⟩
  · have forwards : forwardingLoop.Forwards 0 1 := ⟨_, rfl, by decide⟩
    exact (exactly 5).mpr ⟨by decide, 0, rfl, [], List.nil_prefix, 1, .forward forwards .stay, _, rfl, by decide⟩
  · exact ((exactly 7).mp listed).1 (by decide)

end Arena

end ByteAutomata
