import ByteAutomata.Proofs.Publishing

/-!
Frontiers that earlier runs have left.

A run hands its frontiers on to the next one, which may be over another automaton. Whatever a run does that
does not fault, it leaves valid frontiers behind, and with these no run over a well-formed arena faults.
-/

namespace ByteAutomata

theorem Checked.foldlM_preserves {α β : Type} (holds : β → Prop) {step : β → α → Checked β}
    (kept : ∀ before item after, holds before → step before item = .ok after → holds after)
    {items : List α} {before after : β} (begins : holds before)
    (ran : items.foldlM step before = .ok after) : holds after := by
  induction items generalizing before with
  | nil =>
    cases ran
    exact begins
  | cons item rest ih =>
    rw [List.foldlM_cons] at ran
    obtain ⟨middle, stepped, ran⟩ := exists_of_bind_eq_ok ran
    exact ih (kept before item middle begins stepped) ran

theorem SparseSet.Valid.of_insert {set after : SparseSet} {id : StateId} {added : Bool} (valid : set.Valid)
    (inserted : set.insert id = .ok (after, added)) : after.Valid := by
  by_cases room : id < set.capacity
  · obtain ⟨made, insertedToo, validAfter, _⟩ := valid.insert_eq room
    rw [inserted, Except.ok.injEq, Prod.mk.injEq] at insertedToo
    exact insertedToo.1 ▸ validAfter
  · obtain ⟨fault, refused⟩ := valid.exists_fault_insert (Nat.not_lt.mp room)
    rw [refused] at inserted
    cases inserted

namespace Sweep

variable {arena : Arena} {sweep after : Sweep} {id : StateId}

theorem frontiers_report (sweep : Sweep) (x : Continuation) : (sweep.report x).frontiers = sweep.frontiers := by
  unfold report
  split <;> rfl

theorem frontiers_reportAll (continuations : List Continuation) (sweep : Sweep) :
    (continuations.foldl report sweep).frontiers = sweep.frontiers := by
  induction continuations generalizing sweep with
  | nil => rfl
  | cons x rest ih => rw [List.foldl_cons, ih, frontiers_report]

theorem frontiers_closure {members : List StateId} (ran : sweep.closure arena id = .ok (members, after)) :
    after.frontiers = sweep.frontiers := by
  obtain ⟨⟨found, closures⟩, _, ran⟩ := Checked.exists_of_bind_eq_ok ran
  cases ran
  rfl

theorem valid_enter (valid : sweep.frontiers.Valid) {target : Target}
    (ran : sweep.enter target = .ok after) : after.frontiers.Valid := by
  cases target with
  | none =>
    cases ran
    exact valid
  | some id =>
    obtain ⟨⟨next, added⟩, inserted, ran⟩ := Checked.exists_of_bind_eq_ok ran
    cases ran
    exact ⟨valid.current, valid.next.of_insert inserted⟩

theorem valid_expand (valid : sweep.frontiers.Valid) {byte : UInt8}
    (ran : expand arena byte sweep id = .ok after) : after.frontiers.Valid := by
  obtain ⟨state, _, ran⟩ := Checked.exists_of_bind_eq_ok ran
  obtain ⟨target, _, ran⟩ := Checked.exists_of_bind_eq_ok ran
  obtain ⟨stepped, entered, ran⟩ := Checked.exists_of_bind_eq_ok ran
  obtain ⟨spun, enteredToo, ran⟩ := Checked.exists_of_bind_eq_ok ran
  rw [← frontiers_reportAll state.continuations sweep] at valid
  have kept := valid_enter (valid_enter valid entered) enteredToo
  split at ran
  · exact valid_enter kept ran
  · cases ran
    exact kept

/-- Visiting the closures of active states keeps the frontiers valid if visiting one state does. -/
theorem valid_visit {step : Sweep → StateId → Checked Sweep}
    (steps : ∀ before member after, before.frontiers.Valid → step before member = .ok after →
      after.frontiers.Valid)
    (valid : sweep.frontiers.Valid) {active : List StateId}
    (ran : active.foldlM (fun sweep id => do
      let (members, sweep) ← Sweep.closure sweep arena id
      members.foldlM step sweep) sweep = .ok after) : after.frontiers.Valid := by
  refine Checked.foldlM_preserves (fun sweep : Sweep => sweep.frontiers.Valid)
    (fun before id after valid ran => ?_) valid ran
  obtain ⟨⟨members, middle⟩, closed, ran⟩ := Checked.exists_of_bind_eq_ok ran
  rw [← frontiers_closure closed] at valid
  exact Checked.foldlM_preserves (fun sweep : Sweep => sweep.frontiers.Valid)
    (fun before member after => steps before member after) valid ran

theorem valid_readAll (valid : sweep.frontiers.Valid) {rest : List UInt8}
    (ran : readAll arena rest sweep = .ok after) : after.frontiers.Valid := by
  induction rest generalizing sweep with
  | nil =>
    cases ran
    exact valid
  | cons byte rest ih =>
    rw [readAll] at ran
    split at ran
    · cases ran
      exact valid
    · obtain ⟨middle, read, ran⟩ := Checked.exists_of_bind_eq_ok ran
      obtain ⟨visited, visits, read⟩ := Checked.exists_of_bind_eq_ok read
      cases read
      have kept := valid_visit (fun _ _ _ valid ran => valid_expand valid ran) valid visits
      have advanced : ({ visited with frontiers := visited.frontiers.advance } : Sweep).frontiers.Valid :=
        ⟨kept.next, kept.current.clear⟩
      exact ih advanced ran

theorem frontiers_reportActive (valid : sweep.frontiers.Valid)
    (ran : reportActive arena sweep = .ok after) : after.frontiers.Valid := by
  refine valid_visit (fun before member after valid ran => ?_) valid ran
  obtain ⟨state, _, ran⟩ := Checked.exists_of_bind_eq_ok ran
  cases ran
  rwa [frontiers_reportAll]

end Sweep

/-- A run over any arena leaves valid frontiers behind. -/
theorem Frontiers.Valid.of_sweep {arena : Arena} {closures learnt : ClosureCache} {start : Target}
    {value : List UInt8} {frontiers left : Frontiers} {found all : List Continuation}
    (valid : frontiers.Valid)
    (ran : arena.sweep closures start value frontiers found = .ok (all, left, learnt)) : left.Valid := by
  cases start with
  | none =>
    cases ran
    exact valid
  | some id =>
    obtain ⟨⟨current, added⟩, inserted, ran⟩ := Checked.exists_of_bind_eq_ok ran
    obtain ⟨read, reads, ran⟩ := Checked.exists_of_bind_eq_ok ran
    obtain ⟨last, reports, ran⟩ := Checked.exists_of_bind_eq_ok ran
    cases ran
    have cleared := (valid.current.ensureCapacity arena.size).1.clear
    have begun : (Frontiers.mk current (frontiers.next.ensureCapacity arena.size).clear).Valid :=
      ⟨cleared.of_insert inserted, (valid.next.ensureCapacity arena.size).1.clear⟩
    exact Sweep.frontiers_reportActive (Sweep.valid_readAll begun reads) reports

/-- Frontiers as any runs over any automata leave them. -/
inductive Frontiers.LeftOver : Frontiers → Prop
  | fresh : LeftOver {}
  | after {automaton : Automaton} {value : List UInt8} {frontiers left : Frontiers}
      {found all : List Continuation} :
      LeftOver frontiers → automaton.matchInto value frontiers found = .ok (all, left) → LeftOver left

theorem Frontiers.LeftOver.valid {frontiers : Frontiers} (leftOver : frontiers.LeftOver) :
    frontiers.Valid := by
  induction leftOver with
  | fresh => exact valid_empty
  | @after automaton value frontiers left found all _ ran valid =>
    unfold Automaton.matchInto at ran
    split at ran
    · obtain ⟨walked, _, ran⟩ := Checked.exists_of_bind_eq_ok ran
      cases ran
      exact valid
    · obtain ⟨⟨swept, middle, learnt⟩, swept_, ran⟩ := Checked.exists_of_bind_eq_ok ran
      cases ran
      exact valid.of_sweep swept_

namespace Arena

variable {arena : Arena}

/-- A run with one active state never faults, whatever bytes it reads. -/
theorem exists_walkFrom (formed : arena.WellFormed) {current : StateId} (inside : current < arena.size)
    (bytes : List UInt8) (found : List Continuation) :
    ∃ all, arena.walkFrom current found bytes = .ok all := by
  induction bytes generalizing current found with
  | nil => exact ⟨found, rfl⟩
  | cons byte rest ih =>
    obtain ⟨state, stored⟩ := exists_get? inside
    have fits := formed.fits stored
    have looked := Table.step_eq_lookup fits.table byte
    cases led : state.table.lookup byte with
    | none =>
      refine ⟨found, ?_⟩
      simp only [walkFrom, get_of_get? stored, bind, Except.bind, looked, led]
      rfl
    | some next =>
      have within := fits.lookup_lt led
      obtain ⟨entered, held⟩ := exists_get? within
      obtain ⟨all, ran⟩ := ih within (addMissing found entered.continuations)
      refine ⟨all, ?_⟩
      simp only [walkFrom, get_of_get? stored, bind, Except.bind, looked, led, get_of_get? held, ran]

theorem exists_walk (formed : arena.WellFormed) {start : Target} (inside : arena.TargetWithin start)
    (value : List UInt8) (found : List Continuation) : ∃ all, arena.walk start value found = .ok all := by
  cases start with
  | none => exact ⟨found, rfl⟩
  | some id =>
    obtain ⟨state, stored⟩ := exists_get? (inside id rfl)
    obtain ⟨all, ran⟩ := exists_walkFrom formed (inside id rfl) (terminated value)
      (addMissing found state.continuations)
    exact ⟨all, by simp only [walk, get_of_get? stored, bind, Except.bind, ran]⟩

end Arena

/-- With frontiers as runs leave them, no automaton with a well-formed arena faults on any value. -/
theorem Automaton.exists_matchInto {automaton : Automaton} (formed : automaton.arena.WellFormed)
    (inside : automaton.arena.TargetWithin automaton.start)
    (known : automaton.deterministic = false → automaton.closures.ValidFor automaton.arena)
    {frontiers : Frontiers} (leftOver : frontiers.LeftOver) (value : List UInt8) (found : List Continuation) :
    ∃ all left, automaton.matchInto value frontiers found = .ok (all, left) := by
  unfold matchInto
  cases single : automaton.deterministic with
  | true =>
    obtain ⟨all, ran⟩ := Arena.exists_walk formed inside value found
    refine ⟨all, frontiers, ?_⟩
    simp only [↓reduceIte, ran, bind, Except.bind]
    rfl
  | false =>
    obtain ⟨more, left, learnt, ran, _⟩ :=
      Arena.sweep_eq formed inside (known single) leftOver.valid value found
    refine ⟨found ++ more, left, ?_⟩
    simp only [Bool.false_eq_true, ↓reduceIte, ran, bind, Except.bind]
    rfl

end ByteAutomata
