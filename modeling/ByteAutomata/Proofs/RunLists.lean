import ByteAutomata.Proofs.EpsilonClosure

/-!
What a run by frontier reports, as a list.

A run appends what it meets to a list and leaves out what the list holds. So the list that it returns is
settled by the states that are active before each byte, by the order of their closures, and by the order in
which the members of these hold continuations and move. Here all of this is said without frontiers and caches.
-/

namespace ByteAutomata

/-! ## One byte -/

/-- Where a state of this name can be after one byte, in the order in which a run enters these states. -/
def State.moves (state : State) (id : StateId) (byte : UInt8) : List StateId :=
  (state.table.lookup byte).toList
    ++ (if byte = valueTerminator then none else state.table.spinout).toList
    ++ if state.table.epsilons.contains (some id) then [id] else []

theorem State.mem_moves {state : State} {id next : StateId} {byte : UInt8} :
    next ∈ state.moves id byte ↔ state.MovesTo id byte next := by
  unfold moves MovesTo
  by_cases last : byte = valueTerminator <;> by_cases stays : some id ∈ state.table.epsilons <;>
    simp [last, stays]

namespace Arena

/-- What the state reports itself. -/
def heldBy (arena : Arena) (id : StateId) : List Continuation :=
  ((arena.get? id).getD {}).continuations

/-- Where the state can be after one byte. -/
def movesFrom (arena : Arena) (byte : UInt8) (id : StateId) : List StateId :=
  ((arena.get? id).getD {}).moves id byte

/-- What the closures of the active states report. -/
def heldByActive (arena : Arena) (active : List StateId) : List Continuation :=
  (active.flatMap arena.closure).flatMap arena.heldBy

/-- The states that are active after one byte. -/
def activeAfter (arena : Arena) (byte : UInt8) (active : List StateId) : List StateId :=
  addMissing [] ((active.flatMap arena.closure).flatMap (arena.movesFrom byte))

/-- All that a run reports on its way over the bytes, repetitions included. -/
def reportsAlong (arena : Arena) : (active : List StateId) → List UInt8 → List Continuation
  | active, [] => arena.heldByActive active
  | active, byte :: rest =>
    arena.heldByActive active ++ arena.reportsAlong (arena.activeAfter byte active) rest

variable {arena : Arena} {id next : StateId} {state : State} {byte : UInt8} {x : Continuation}
  {active : List StateId}

theorem heldBy_of_get? (found : arena.get? id = some state) : arena.heldBy id = state.continuations := by
  rw [heldBy, found, Option.getD_some]

theorem movesFrom_of_get? (found : arena.get? id = some state) (byte : UInt8) :
    arena.movesFrom byte id = state.moves id byte := by
  rw [movesFrom, found, Option.getD_some]

theorem mem_heldBy (inside : id < arena.size) : x ∈ arena.heldBy id ↔ arena.Holds id x := by
  obtain ⟨state, found⟩ := exists_get? inside
  simp [heldBy_of_get? found, Holds, found]

theorem mem_movesFrom (inside : id < arena.size) :
    next ∈ arena.movesFrom byte id ↔ arena.Moves byte id next := by
  obtain ⟨state, found⟩ := exists_get? inside
  simp [movesFrom_of_get? found, State.mem_moves, Moves, found]

@[simp] theorem heldByActive_nil (arena : Arena) : arena.heldByActive [] = [] := rfl

@[simp] theorem activeAfter_nil (arena : Arena) (byte : UInt8) : arena.activeAfter byte [] = [] := rfl

/-- Where nothing is active nothing is reported any more. -/
theorem reportsAlong_nil (arena : Arena) (rest : List UInt8) : arena.reportsAlong [] rest = [] := by
  induction rest with
  | nil => rfl
  | cons byte rest ih => rw [reportsAlong, heldByActive_nil, activeAfter_nil, ih, List.nil_append]

theorem mem_heldByActive (formed : arena.WellFormed) (inside : ∀ id ∈ active, id < arena.size) :
    x ∈ arena.heldByActive active ↔ ∃ id ∈ active, arena.Yields x id [] := by
  simp only [heldByActive, List.mem_flatMap]
  constructor
  · rintro ⟨member, ⟨id, listed, closed⟩, held⟩
    have bound := lt_of_mem_closure formed (inside id listed) closed
    exact ⟨id, listed, (yields_nil_iff formed (inside id listed)).mpr ⟨member, closed, (mem_heldBy bound).mp held⟩⟩
  · rintro ⟨id, listed, yields⟩
    obtain ⟨member, closed, holds⟩ := (yields_nil_iff formed (inside id listed)).mp yields
    have bound := lt_of_mem_closure formed (inside id listed) closed
    exact ⟨member, ⟨id, listed, closed⟩, (mem_heldBy bound).mpr holds⟩

theorem mem_activeAfter (formed : arena.WellFormed) (inside : ∀ id ∈ active, id < arena.size) :
    next ∈ arena.activeAfter byte active ↔
      ∃ id ∈ active, ∃ member ∈ arena.closure id, arena.Moves byte member next := by
  simp only [activeAfter, mem_addMissing, List.not_mem_nil, false_or, List.mem_flatMap]
  constructor
  · rintro ⟨member, ⟨id, listed, closed⟩, moves⟩
    have bound := lt_of_mem_closure formed (inside id listed) closed
    exact ⟨id, listed, member, closed, (mem_movesFrom bound).mp moves⟩
  · rintro ⟨id, listed, member, closed, moves⟩
    have bound := lt_of_mem_closure formed (inside id listed) closed
    exact ⟨member, ⟨id, listed, closed⟩, (mem_movesFrom bound).mpr moves⟩

theorem lt_of_mem_activeAfter (formed : arena.WellFormed) (inside : ∀ id ∈ active, id < arena.size) :
    ∀ next ∈ arena.activeAfter byte active, next < arena.size := by
  intro next listed
  obtain ⟨_, _, _, _, moves⟩ := (mem_activeAfter formed inside).mp listed
  exact formed.lt_of_moves moves

/-- A run reports what the active states yield on a leading part of the bytes. -/
theorem mem_reportsAlong (formed : arena.WellFormed) (rest : List UInt8)
    (inside : ∀ id ∈ active, id < arena.size) :
    x ∈ arena.reportsAlong active rest ↔ ∃ id ∈ active, ∃ read, read <+: rest ∧ arena.Yields x id read := by
  induction rest generalizing active with
  | nil => simp only [reportsAlong, mem_heldByActive formed inside, List.prefix_nil, exists_eq_left]
  | cons byte rest ih =>
    rw [reportsAlong, List.mem_append, mem_heldByActive formed inside,
      ih (lt_of_mem_activeAfter formed inside)]
    constructor
    · rintro (⟨id, listed, yields⟩ | ⟨next, listed, read, leading, yields⟩)
      · exact ⟨id, listed, [], List.nil_prefix, yields⟩
      · obtain ⟨id, current, member, closed, moves⟩ := (mem_activeAfter formed inside).mp listed
        refine ⟨id, current, byte :: read, (List.cons_prefix_cons.mpr ⟨rfl, leading⟩), ?_⟩
        rw [yields_cons_iff formed (inside id current)]
        exact ⟨member, closed, next, moves, yields⟩
    · rintro ⟨id, current, read, leading, yields⟩
      rcases List.prefix_cons_iff.mp leading with nothing | ⟨later, same, shorter⟩
      · exact Or.inl ⟨id, current, nothing ▸ yields⟩
      · rw [same, yields_cons_iff formed (inside id current)] at yields
        obtain ⟨member, closed, next, moves, yields⟩ := yields
        exact Or.inr ⟨next, (mem_activeAfter formed inside).mpr ⟨id, current, member, closed, moves⟩,
          later, shorter, yields⟩

end Arena

end ByteAutomata
