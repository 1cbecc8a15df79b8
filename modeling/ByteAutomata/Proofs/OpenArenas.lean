import ByteAutomata.Proofs.Yields

/-!
Open arenas.

Of an open arena some states are known, and of the others it is only given what they accept. What a
known state yields is the least that its moves ask for. An arena is open with nothing given, and any
part of it is open with the rest given as it is. Copies are compared as open arenas.
-/

namespace ByteAutomata

structure OpenArena where
  states : StateId → Option State
  /-- What the states accept that are not known. -/
  given : StateId → List UInt8 → Prop

namespace OpenArena

/-- Reading the bytes from the state can end where the continuation is reported, or go on as given. -/
inductive Yields (parts : OpenArena) (x : Continuation) : StateId → List UInt8 → Prop
  | given {id : StateId} {read : List UInt8} :
      parts.states id = none → parts.given id read → Yields parts x id read
  | here {id : StateId} {state : State} :
      parts.states id = some state → x ∈ state.continuations → Yields parts x id []
  | forward {id next : StateId} {state : State} {read : List UInt8} :
      parts.states id = some state → some next ∈ state.table.epsilons → Yields parts x next read →
        Yields parts x id read
  | read {id next : StateId} {state : State} {byte : UInt8} {rest : List UInt8} :
      parts.states id = some state → state.MovesTo id byte next → Yields parts x next rest →
        Yields parts x id (byte :: rest)

variable {x : Continuation} {id : StateId}

section

variable {source target : OpenArena} {name : StateId → StateId} {inside boundary : StateId → Prop}
  (renamed : ∀ id, inside id → ∃ state copy, source.states id = some state ∧
    target.states (name id) = some copy ∧ state.RenamesTo name copy ∧
    ∀ next, state.LeadsTo next → (inside next ∨ boundary next) ∧ (name next = name id → next = id))
include renamed

theorem yields_of_original {read : List UInt8} (yields : source.Yields x id read)
    (kept : ∀ id, boundary id → ∀ read, source.Yields x id read → target.Yields x (name id) read)
    (member : inside id) : target.Yields x (name id) read := by
  induction yields with
  | given unknown _ =>
    obtain ⟨state, _, found, _⟩ := renamed _ member
    rw [unknown] at found
    cases found
  | @here id state found held =>
    obtain ⟨other, copy, found', stored, same, _⟩ := renamed id member
    rw [found, Option.some.injEq] at found'
    subst other
    exact .here stored (same.continuations ▸ held)
  | @forward id next state read found listed later ih =>
    obtain ⟨other, copy, found', stored, same, leads⟩ := renamed id member
    rw [found, Option.some.injEq] at found'
    subst other
    apply Yields.forward stored (same.mem_epsilons_iff.mpr ⟨next, listed, rfl⟩)
    rcases (leads next (Or.inr (Or.inr listed))).1 with within | outer
    · exact ih within
    · exact kept next outer read later
  | @read id next state byte rest found moves later ih =>
    obtain ⟨other, copy, found', stored, same, leads⟩ := renamed id member
    rw [found, Option.some.injEq] at found'
    subst other
    have apart := fun next behind => (leads next behind).2
    apply Yields.read stored ((same.movesTo_iff apart).mpr ⟨next, moves, rfl⟩)
    rcases (leads next moves.leadsTo).1 with within | outer
    · exact ih within
    · exact kept next outer rest later

theorem yields_of_copy {read : List UInt8} (yields : target.Yields x (name id) read)
    (kept : ∀ id, boundary id → ∀ read, target.Yields x (name id) read → source.Yields x id read)
    (member : inside id) : source.Yields x id read := by
  generalize named : name id = copyId at yields
  induction yields generalizing id with
  | given unknown _ =>
    obtain ⟨_, copy, _, stored, _⟩ := renamed id member
    rw [named, unknown] at stored
    cases stored
  | @here copyId copy stored held =>
    obtain ⟨state, other, found, stored', same, _⟩ := renamed id member
    rw [named, stored, Option.some.injEq] at stored'
    subst other
    exact .here found (same.continuations ▸ held)
  | @forward copyId copyNext copy read stored listed later ih =>
    obtain ⟨state, other, found, stored', same, leads⟩ := renamed id member
    rw [named, stored, Option.some.injEq] at stored'
    subst other
    obtain ⟨next, listed, renames⟩ := same.mem_epsilons_iff.mp listed
    apply Yields.forward found listed
    rcases (leads next (Or.inr (Or.inr listed))).1 with within | outer
    · exact ih within renames
    · exact kept next outer read (renames ▸ later)
  | @read copyId copyNext copy byte rest stored moves later ih =>
    obtain ⟨state, other, found, stored', same, leads⟩ := renamed id member
    rw [named, stored, Option.some.injEq] at stored'
    subst other
    subst named
    have apart := fun next behind => (leads next behind).2
    obtain ⟨next, moves, renames⟩ := (same.movesTo_iff apart).mp moves
    apply Yields.read found moves
    rcases (leads next moves.leadsTo).1 with within | outer
    · exact ih within renames
    · exact kept next outer rest (renames ▸ later)

end

/-- Copied states yield what the originals yield, if the states where the copy is left do so. A copy
may give two states one name only where no state refers to both. -/
theorem yields_iff_of_renamed {source target : OpenArena} (name : StateId → StateId)
    (inside boundary : StateId → Prop)
    (renamed : ∀ id, inside id → ∃ state copy, source.states id = some state ∧
      target.states (name id) = some copy ∧ state.RenamesTo name copy ∧
      ∀ next, state.LeadsTo next →
        (inside next ∨ boundary next) ∧ (name next = name id → next = id))
    (kept : ∀ id, boundary id → ∀ read, source.Yields x id read ↔ target.Yields x (name id) read)
    (member : inside id) (read : List UInt8) :
    source.Yields x id read ↔ target.Yields x (name id) read :=
  ⟨fun yields => yields_of_original renamed yields (fun id outer read => (kept id outer read).mp) member,
    fun yields => yields_of_copy renamed yields (fun id outer read => (kept id outer read).mpr) member⟩

end OpenArena

namespace Arena

variable {arena : Arena} {id : StateId} {x : Continuation}

/-- An arena with nothing given. -/
def opened (arena : Arena) : OpenArena where
  states := arena.get?
  given := fun _ _ => False

theorem yields_iff_opened (arena : Arena) (x : Continuation) (id : StateId) (read : List UInt8) :
    arena.Yields x id read ↔ arena.opened.Yields x id read := by
  constructor
  · intro yields
    induction yields with
    | here holds =>
      obtain ⟨state, found, held⟩ := holds
      exact .here found held
    | forward forwards _ ih =>
      obtain ⟨state, found, listed⟩ := forwards
      exact .forward found listed ih
    | read moves _ ih =>
      obtain ⟨state, found, move⟩ := moves
      exact .read found move ih
  · intro yields
    induction yields with
    | given _ nothing => exact nothing.elim
    | here found held => exact .here ⟨_, found, held⟩
    | forward found listed _ ih => exact .forward ⟨_, found, listed⟩ ih
    | read found moves _ ih => exact .read ⟨_, found, moves⟩ ih

/-- Copied states of an arena yield what the originals yield. -/
theorem yields_iff_of_renamed {source target : Arena} (name : StateId → StateId)
    (inside boundary : StateId → Prop)
    (renamed : ∀ id, inside id → ∃ state copy, source.get? id = some state ∧
      target.get? (name id) = some copy ∧ state.RenamesTo name copy ∧
      ∀ next, state.LeadsTo next →
        (inside next ∨ boundary next) ∧ (name next = name id → next = id))
    (kept : ∀ id, boundary id → ∀ read, source.Yields x id read ↔ target.Yields x (name id) read)
    (member : inside id) (read : List UInt8) :
    source.Yields x id read ↔ target.Yields x (name id) read := by
  simp only [yields_iff_opened] at kept ⊢
  exact OpenArena.yields_iff_of_renamed name inside boundary renamed kept member read

/-- States that refer only to one another yield the same in every arena that holds them. -/
theorem yields_iff_of_kept {source target : Arena} (formed : source.WellFormed)
    (kept : ∀ id < source.size, target.get? id = source.get? id)
    (inside : id < source.size) (read : List UInt8) :
    source.Yields x id read ↔ target.Yields x id read := by
  refine yields_iff_of_renamed (fun id => id) (· < source.size) (fun _ => False) ?_ ?_ inside read
  · intro other within
    obtain ⟨state, found⟩ := exists_get? within
    refine ⟨state, state, found, (kept other within).trans found, .refl state, ?_⟩
    intro next leads
    exact ⟨Or.inl ((formed.fits found).lt_of_leadsTo leads), fun same => same⟩
  · intro _ outside
    exact outside.elim

theorem reports_iff_of_kept {source target : Arena} (formed : source.WellFormed)
    (kept : ∀ id < source.size, target.get? id = source.get? id) {start : Target}
    (inside : source.TargetWithin start) (value : List UInt8) :
    source.Reports start value x ↔ target.Reports start value x := by
  cases start with
  | none => simp
  | some id =>
    simp only [reports_some_iff, yields_iff_of_kept formed kept (inside id rfl)]

end Arena

end ByteAutomata
