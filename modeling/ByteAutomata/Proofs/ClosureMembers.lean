import ByteAutomata.Proofs.EpsilonClosure

/-!
The members of a closure.

A closure of a state with epsilons lists the states that epsilons lead to and that act; every other state stands
alone in its closure. Either way each member is in its own closure and brings no further states with it, so taking
closures again gives nothing new.
-/

namespace ByteAutomata

/-- Some range of the table leads to a state, or the state spins out, reports, or lists itself among its epsilons. -/
def State.Active (state : State) (id : StateId) : Prop :=
  (∃ target ∈ state.table.steps, target ≠ none) ∨ state.table.spinout ≠ none ∨ state.continuations ≠ [] ∨
    some id ∈ state.table.epsilons

theorem State.acts_iff {state : State} {id : StateId} : state.acts id = true ↔ state.Active id := by
  simp only [acts, Active, Table.hasNoByteSteps, Bool.or_eq_true, Bool.not_eq_true', List.all_eq_false,
    Option.isSome_iff_ne_none, List.isEmpty_eq_false_iff, List.contains_iff_mem, or_assoc, Bool.not_eq_true,
    Option.isNone_eq_false_iff]

namespace Arena

variable {arena : Arena} {id member other : StateId} {state : State}

theorem acts_iff_active : arena.Acts id ↔ ∃ state, arena.get? id = some state ∧ state.Active id := by
  simp only [Acts, State.acts_iff]

/-- The closure of a state with epsilons lists nothing that does not act. -/
theorem mem_closure_of_forwarding (formed : arena.WellFormed) (found : arena.get? id = some state)
    (forwarding : state.table.epsilons ≠ []) :
    member ∈ arena.closure id ↔ arena.Reaches id member ∧ arena.Acts member := by
  obtain ⟨next, forwards⟩ := exists_forwards formed found forwarding
  rw [(epsilonClosure_eq formed (lt_size_of_get? found)).2.2 member]
  apply and_congr_right
  intro _
  exact or_iff_left fun alone => alone next forwards

/-- A search that is given more rounds than the arena has states ends by itself. -/
theorem closureFrom_eq_closure (formed : arena.WellFormed) (found : arena.get? id = some state)
    (forwarding : state.table.epsilons ≠ []) {rounds : Nat} (enough : arena.size < rounds) :
    arena.closureFrom rounds ⟨{some id}, [some id]⟩ = .ok (arena.closure id) := by
  have inside := lt_size_of_get? found
  obtain ⟨extra, rfl⟩ := Nat.exists_eq_add_of_lt enough
  calc
    _ = arena.closureFrom (arena.size + 1 + extra) ⟨{some id}, [some id]⟩ := by rw [Nat.add_right_comm]
    _ = arena.closureFrom (arena.size + 1) ⟨{some id}, [some id]⟩ :=
      closureFrom_add formed (arena.size + 1) extra (.start inside) (by simp)
    _ = arena.epsilonClosure id := (epsilonClosure_of_forwarding found forwarding).symm
    _ = .ok (arena.closure id) := (epsilonClosure_eq formed inside).1

theorem mem_closure_self (formed : arena.WellFormed) (inside : id < arena.size)
    (listed : member ∈ arena.closure id) : member ∈ arena.closure member := by
  obtain ⟨reaches, acts | alone⟩ := ((epsilonClosure_eq formed inside).2.2 member).mp listed
  · exact mem_closure_of_acts formed (formed.lt_of_reaches inside reaches) .refl acts
  · exact eq_of_reaches reaches alone ▸ listed

theorem closure_subset (formed : arena.WellFormed) (inside : id < arena.size)
    (listed : member ∈ arena.closure id) : arena.closure member ⊆ arena.closure id := by
  intro other further
  have reaches := reaches_of_mem_closure formed inside listed
  obtain ⟨later, acts | alone⟩ :=
    ((epsilonClosure_eq formed (formed.lt_of_reaches inside reaches)).2.2 other).mp further
  · exact mem_closure_of_acts formed inside (reaches.trans later) acts
  · exact eq_of_reaches later alone ▸ listed

/-- Whatever loops the epsilons form, a closure is computed, and every search with more rounds than there are states ends
with it. It lists, once each, the state alone if it has no epsilons, and else the active states that epsilons lead to.
Each member is in its own closure, and the closures of the members together are the closure. -/
theorem epsilonClosure_exact (formed : arena.WellFormed) (found : arena.get? id = some state) :
    ∃ closure, arena.epsilonClosure id = .ok closure ∧ closure.Nodup ∧
      (state.table.epsilons = [] → closure = [id]) ∧
      (state.table.epsilons ≠ [] →
        (∀ rounds, arena.size < rounds → arena.closureFrom rounds ⟨{some id}, [some id]⟩ = .ok closure) ∧
        ∀ member, member ∈ closure ↔
          arena.Reaches id member ∧ ∃ reached, arena.get? member = some reached ∧ reached.Active member) ∧
      (∀ member ∈ closure, ∃ own, arena.epsilonClosure member = .ok own ∧ member ∈ own) ∧
      ∀ other, other ∈ closure ↔
        ∃ member ∈ closure, ∃ own, arena.epsilonClosure member = .ok own ∧ other ∈ own := by
  have inside := lt_size_of_get? found
  obtain ⟨computed, distinct, _⟩ := epsilonClosure_eq formed inside
  have own {member : StateId} (listed : member ∈ arena.closure id) :
      arena.epsilonClosure member = .ok (arena.closure member) :=
    (epsilonClosure_eq formed (lt_of_mem_closure formed inside listed)).1
  refine ⟨arena.closure id, computed, distinct, ?_, ?_, ?_, ?_⟩
  · intro silent
    exact Except.ok.inj (computed.symm.trans (epsilonClosure_of_silent found silent))
  · intro forwarding
    constructor
    · intro rounds enough
      exact closureFrom_eq_closure formed found forwarding enough
    · intro member
      rw [mem_closure_of_forwarding formed found forwarding, acts_iff_active]
  · intro member listed
    exact ⟨_, own listed, mem_closure_self formed inside listed⟩
  · intro other
    constructor
    · intro listed
      exact ⟨other, listed, _, own listed, mem_closure_self formed inside listed⟩
    · rintro ⟨member, listed, closure, made, further⟩
      rw [own listed, Except.ok.injEq] at made
      exact closure_subset formed inside listed (made ▸ further)

/-- The first two states forward to one another; the second also forwards to a state that stays where it is, and the
first to one that leaves on a byte and forwards back. -/
def tangled : Arena :=
  ⟨#[{ table := { Table.empty with epsilons := [some 3, some 1] } },
    { table := { Table.empty with epsilons := [some 2, some 0] } },
    { table := { Table.empty with epsilons := [some 2] } },
    { table := { Table.single 0x61 (some 2) with epsilons := [some 0] } }]⟩

theorem epsilonClosure_exact_tangled :
    tangled.WellFormed ∧ ∃ closure own, tangled.epsilonClosure 1 = .ok closure ∧ closure.Nodup ∧
      (∀ rounds, 4 < rounds → tangled.closureFrom rounds ⟨{some 1}, [some 1]⟩ = .ok closure) ∧
      3 ∈ closure ∧ 0 ∉ closure ∧ tangled.epsilonClosure 3 = .ok own ∧ 3 ∈ own := by
  have formed : tangled.WellFormed := by decide
  obtain ⟨closure, computed, distinct, _, forwarding, owns, _⟩ := epsilonClosure_exact formed (rfl : tangled.get? 1 = _)
  obtain ⟨ends, members⟩ := forwarding (by decide)
  have back : tangled.Forwards 1 0 := ⟨_, rfl, by decide⟩
  have on : tangled.Forwards 0 3 := ⟨_, rfl, by decide⟩
  have listed : 3 ∈ closure := by
    apply (members 3).mpr
    exact ⟨.head back (.single on), _, rfl, Or.inl ⟨some 2, by decide +kernel, by decide⟩⟩
  have left : 0 ∉ closure := by
    intro member
    obtain ⟨_, state, found, active⟩ := (members 0).mp member
    cases found
    exact absurd (State.acts_iff.mpr active) (by decide)
  obtain ⟨own, made, self⟩ := owns 3 listed
  exact ⟨formed, closure, own, computed, distinct, ends, listed, left, made, self⟩

end Arena

end ByteAutomata
