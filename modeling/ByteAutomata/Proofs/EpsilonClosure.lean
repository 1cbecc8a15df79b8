import ByteAutomata.Closure
import ByteAutomata.Proofs.Naming
import ByteAutomata.Proofs.Yields

/-!
Epsilon closures are exact.

The depth-first search visits each state that epsilons lead to, once, whatever loops they form. What
it keeps are the states that act, so a closure loses nothing that a state yields: the bytes are read,
and the continuations reported, by its members.
-/

namespace ByteAutomata

/-- `opened` are the stacked states and `done` those taken from the stack before; together they are
the states seen. -/
structure EpsilonSearch.Tracks (search : EpsilonSearch) (size : Nat) (done opened : List StateId) :
    Prop where
  stack : search.stack = opened.map some
  seen : ∀ id, search.seen.contains (some id) = true ↔ id ∈ done ∨ id ∈ opened
  distinct : (done ++ opened).Nodup
  inside : ∀ id ∈ done ++ opened, id < size

namespace EpsilonSearch.Tracks

variable {search : EpsilonSearch} {size : Nat} {done opened : List StateId}

theorem start {id : StateId} (inside : id < size) : Tracks ⟨{some id}, [some id]⟩ size [] [id] := by
  refine ⟨rfl, ?_, by simp, by simpa using inside⟩
  intro other
  simp only [Std.HashSet.singleton_eq_insert, Std.HashSet.contains_insert, beq_iff_eq, Option.some.injEq,
    Bool.or_eq_true, Std.HashSet.contains_empty, Bool.false_eq_true, or_false, List.not_mem_nil,
    List.mem_singleton, false_or]
  exact eq_comm

/-- Taking a state from the stack. -/
theorem pop {top : StateId} {rest : List StateId} (tracks : search.Tracks size done (top :: rest)) :
    Tracks ⟨search.seen, rest.map some⟩ size (top :: done) rest := by
  have shuffled : (done ++ top :: rest).Perm (top :: done ++ rest) := List.perm_middle
  refine ⟨rfl, ?_, shuffled.nodup_iff.mp tracks.distinct, ?_⟩
  · intro id
    rw [tracks.seen id]
    simp only [List.mem_cons]
    tauto
  · intro id member
    exact tracks.inside id (shuffled.mem_iff.mpr member)

theorem visit (tracks : search.Tracks size done opened) {id : StateId} (inside : id < size) :
    ∃ fresh, (search.visit (some id)).Tracks size done (fresh ++ opened) ∧
      id ∈ done ++ (fresh ++ opened) ∧ ∀ new ∈ fresh, new = id := by
  by_cases known : search.seen.contains (some id) = true
  · refine ⟨[], ?_, ?_, by simp⟩
    · simpa only [EpsilonSearch.visit, if_pos known, List.nil_append] using tracks
    · exact List.mem_append.mpr ((tracks.seen id).mp known)
  · have absent : id ∉ done ++ opened := fun member =>
      known ((tracks.seen id).mpr (List.mem_append.mp member))
    refine ⟨[id], ?_, by simp, by simp⟩
    rw [EpsilonSearch.visit, if_neg known]
    constructor
    · simp [tracks.stack]
    · intro other
      rw [Std.HashSet.contains_insert, Bool.or_eq_true, tracks.seen other]
      simp only [beq_iff_eq, Option.some.injEq, List.singleton_append, List.mem_cons]
      grind
    · have distinct := tracks.distinct
      rw [List.singleton_append, List.nodup_append'] at *
      simp only [List.mem_append, not_or] at absent
      refine ⟨distinct.1, List.nodup_cons.mpr ⟨absent.2, distinct.2.1⟩, ?_⟩
      rw [List.disjoint_cons_right]
      exact ⟨absent.1, distinct.2.2⟩
    · intro other member
      simp only [List.singleton_append, List.mem_append, List.mem_cons] at member
      rcases member with before | same | after
      · exact tracks.inside other (List.mem_append_left _ before)
      · exact same ▸ inside
      · exact tracks.inside other (List.mem_append_right _ after)

/-- Stacking the epsilons of a state makes each of them seen and stacks nothing else. -/
theorem visitAll (tracks : search.Tracks size done opened) {targets : List Target}
    (inside : ∀ target ∈ targets, ∃ id < size, target = some id) :
    ∃ fresh, (targets.foldr (fun target search => search.visit target) search).Tracks size done
        (fresh ++ opened) ∧
      (∀ id, some id ∈ targets → id ∈ done ++ (fresh ++ opened)) ∧
      ∀ new ∈ fresh, some new ∈ targets := by
  induction targets with
  | nil => exact ⟨[], tracks, by simp, by simp⟩
  | cons target targets ih =>
    obtain ⟨fresh, tracked, covered, drawn⟩ :=
      ih (fun other member => inside other (List.mem_cons_of_mem _ member))
    obtain ⟨id, bound, rfl⟩ := inside target List.mem_cons_self
    obtain ⟨first, tracked', here, only⟩ := tracked.visit bound
    refine ⟨first ++ fresh, ?_, ?_, ?_⟩
    · rw [List.foldr_cons, List.append_assoc]
      exact tracked'
    · intro other member
      rcases List.mem_cons.mp member with same | later
      · rw [Option.some.inj same, List.append_assoc]
        exact here
      · have listed := covered other later
        simp only [List.mem_append] at listed ⊢
        tauto
    · intro new member
      rcases List.mem_append.mp member with earlier | later
      · rw [only new earlier]
        exact List.mem_cons_self
      · exact List.mem_cons_of_mem _ (drawn new later)

theorem length_le (tracks : search.Tracks size done opened) :
    done.length + opened.length ≤ size := by
  have bound := length_le_of_nodup tracks.distinct tracks.inside
  simpa using bound

end EpsilonSearch.Tracks

namespace Arena

variable {arena : Arena} {id : StateId} {x : Continuation}

/-- Epsilons alone lead from one state to the other. -/
abbrev Reaches (arena : Arena) : StateId → StateId → Prop :=
  Relation.ReflTransGen arena.Forwards

/-- The state does something of its own. -/
def Acts (arena : Arena) (id : StateId) : Prop :=
  ∃ state, arena.get? id = some state ∧ state.acts id = true

theorem acts_of_holds (holds : arena.Holds id x) : arena.Acts id := by
  obtain ⟨state, found, held⟩ := holds
  refine ⟨state, found, ?_⟩
  cases listed : state.continuations with
  | nil => simp [listed] at held
  | cons first rest => simp [State.acts, listed]

theorem acts_of_moves (formed : arena.WellFormed) {byte : UInt8} {next : StateId}
    (moves : arena.Moves byte id next) : arena.Acts id := by
  obtain ⟨state, found, move⟩ := moves
  refine ⟨state, found, ?_⟩
  rcases move with led | ⟨_, spins⟩ | ⟨listed, _⟩
  · cases stuck : state.table.hasNoByteSteps with
    | false => simp [State.acts, stuck]
    | true =>
      rw [Table.lookup_of_hasNoByteSteps (formed.fits found).table stuck] at led
      cases led
  · simp [State.acts, spins]
  · simp [State.acts, listed]

theorem WellFormed.lt_of_reaches (formed : arena.WellFormed) {next : StateId} (inside : id < arena.size)
    (reaches : arena.Reaches id next) : next < arena.size := by
  induction reaches with
  | refl => exact inside
  | tail _ forwards _ => exact formed.lt_of_forwards forwards

/-- What a search from the `opened` states visits when those in `done` were followed before, and the
states among these that it lists. -/
structure Visits (arena : Arena) (done opened visited listed : List StateId) : Prop where
  distinct : (done ++ visited).Nodup
  stacked : ∀ id ∈ opened, id ∈ visited
  closed : ∀ id ∈ visited, ∀ next, arena.Forwards id next → next ∈ done ++ visited
  reached : ∀ id ∈ visited, ∃ top ∈ opened, arena.Reaches top id
  sublist : listed.Sublist visited
  acting : ∀ id, id ∈ listed ↔ id ∈ visited ∧ arena.Acts id

/-- Following one state first: its epsilons are stacked unless they were seen. -/
theorem Visits.follow {done fresh rest visited listed : List StateId} {top : StateId} {state : State}
    (visits : arena.Visits (top :: done) (fresh ++ rest) visited listed) (found : arena.get? top = some state)
    (covered : ∀ id, some id ∈ state.table.epsilons → id ∈ top :: done ++ (fresh ++ rest))
    (drawn : ∀ id ∈ fresh, some id ∈ state.table.epsilons) :
    arena.Visits done (top :: rest) (top :: visited) (if state.acts top then top :: listed else listed) := by
  have shuffled : (top :: done ++ visited).Perm (done ++ top :: visited) := List.perm_middle.symm
  have acts : arena.Acts top ↔ state.acts top = true := by simp [Acts, found]
  constructor
  case distinct => exact shuffled.nodup_iff.mp visits.distinct
  case stacked =>
    intro id member
    rcases List.mem_cons.mp member with rfl | later
    · exact List.mem_cons_self
    · exact List.mem_cons_of_mem _ (visits.stacked id (List.mem_append_right _ later))
  case closed =>
    intro id member next forwards
    rw [← shuffled.mem_iff]
    rcases List.mem_cons.mp member with rfl | later
    · obtain ⟨other, stored, epsilon⟩ := forwards
      rw [found, Option.some.injEq] at stored
      rcases List.mem_append.mp (covered next (stored ▸ epsilon)) with before | pending
      · exact List.mem_append_left _ before
      · exact List.mem_append_right _ (visits.stacked next pending)
    · exact visits.closed id later next forwards
  case reached =>
    intro id member
    rcases List.mem_cons.mp member with rfl | later
    · exact ⟨id, List.mem_cons_self, .refl⟩
    · obtain ⟨origin, pending, reaches⟩ := visits.reached id later
      rcases List.mem_append.mp pending with new | old
      · exact ⟨top, List.mem_cons_self, .head ⟨state, found, drawn origin new⟩ reaches⟩
      · exact ⟨origin, List.mem_cons_of_mem _ old, reaches⟩
  case sublist =>
    split
    · exact visits.sublist.cons_cons top
    · exact visits.sublist.cons top
  case acting =>
    intro id
    have others := visits.acting id
    split <;> grind

/-- Following the stacked states visits all that they lead to and lists those that act. A state is
taken from the stack at most once, so there are rounds enough. -/
theorem closureFrom_visits (formed : arena.WellFormed) (rounds : Nat) (search : EpsilonSearch)
    (done opened : List StateId) (tracks : search.Tracks arena.size done opened)
    (enough : arena.size < rounds + done.length) :
    ∃ visited result, arena.closureFrom rounds search = .ok result ∧
      arena.Visits done opened visited result := by
  induction rounds generalizing search done opened with
  | zero =>
    have bound := tracks.length_le
    omega
  | succ rounds ih =>
    cases opened with
    | nil =>
      refine ⟨[], [], ?_, tracks.distinct, by simp, by simp, by simp, List.Sublist.refl _, by simp⟩
      simp [closureFrom, tracks.stack]
    | cons top rest =>
      obtain ⟨state, found⟩ := exists_get? (tracks.inside top (by simp))
      obtain ⟨fresh, tracked, covered, drawn⟩ := tracks.pop.visitAll (formed.fits found).epsilons
      obtain ⟨visited, result, run, visits⟩ :=
        ih _ (top :: done) (fresh ++ rest) tracked (by simp only [List.length_cons]; omega)
      refine ⟨_, _, ?_, visits.follow found covered drawn⟩
      simp only [closureFrom, tracks.stack, List.map_cons, get_of_get? found]
      change (arena.closureFrom rounds _ >>= _) = _
      rw [run]
      rfl

/-- More rounds than are enough change nothing. -/
theorem closureFrom_add (formed : arena.WellFormed) (rounds extra : Nat) {search : EpsilonSearch}
    {done opened : List StateId} (tracks : search.Tracks arena.size done opened)
    (enough : arena.size < rounds + done.length) :
    arena.closureFrom (rounds + extra) search = arena.closureFrom rounds search := by
  induction rounds generalizing search done opened with
  | zero =>
    have bound := tracks.length_le
    omega
  | succ rounds ih =>
    rw [Nat.add_right_comm]
    cases opened with
    | nil => simp [closureFrom, tracks.stack]
    | cons top rest =>
      obtain ⟨state, found⟩ := exists_get? (tracks.inside top (by simp))
      obtain ⟨fresh, tracked, _⟩ := tracks.pop.visitAll (formed.fits found).epsilons
      have further := ih tracked (by simp only [List.length_cons]; omega)
      simp only [closureFrom, tracks.stack, List.map_cons, get_of_get? found, bind, Except.bind, further]

/-- The closure of a state, empty where it cannot be computed. -/
def closure (arena : Arena) (id : StateId) : List StateId :=
  match arena.epsilonClosure id with
  | .ok closure => closure
  | .error _ => []

theorem epsilonClosure_of_silent {state : State} (found : arena.get? id = some state)
    (silent : state.table.epsilons = []) : arena.epsilonClosure id = .ok [id] := by
  simp only [epsilonClosure, get_of_get? found, bind, Except.bind, silent, List.isEmpty_nil, ↓reduceIte, pure,
    Except.pure]

theorem epsilonClosure_of_forwarding {state : State} (found : arena.get? id = some state)
    (forwarding : state.table.epsilons ≠ []) :
    arena.epsilonClosure id = arena.closureFrom (arena.size + 1) ⟨{some id}, [some id]⟩ := by
  simp only [epsilonClosure, get_of_get? found, bind, Except.bind, List.isEmpty_eq_false_iff.mpr forwarding,
    Bool.false_eq_true, ↓reduceIte]

theorem closure_of_silent {state : State} (found : arena.get? id = some state)
    (silent : state.table.epsilons = []) : arena.closure id = [id] := by
  simp only [closure, epsilonClosure_of_silent found silent]

theorem exists_forwards {state : State} (formed : arena.WellFormed) (found : arena.get? id = some state)
    (forwarding : state.table.epsilons ≠ []) : ∃ next, arena.Forwards id next := by
  obtain ⟨target, listed⟩ := List.exists_mem_of_ne_nil _ forwarding
  obtain ⟨next, _, rfl⟩ := (formed.fits found).epsilons target listed
  exact ⟨next, state, found, listed⟩

theorem eq_of_reaches {member : StateId} (reaches : arena.Reaches id member)
    (alone : ∀ next, ¬ arena.Forwards id next) : id = member := by
  rcases reaches.cases_head with same | ⟨next, forwards, _⟩
  · exact same
  · exact absurd forwards (alone next)

/-- The closure lists without repetitions what epsilons lead to and what acts; a state without
epsilons is its own closure. -/
theorem epsilonClosure_eq (formed : arena.WellFormed) (inside : id < arena.size) :
    arena.epsilonClosure id = .ok (arena.closure id) ∧ (arena.closure id).Nodup ∧
      ∀ member, member ∈ arena.closure id ↔ arena.Reaches id member ∧
        (arena.Acts member ∨ ∀ next, ¬ arena.Forwards id next) := by
  obtain ⟨state, found⟩ := exists_get? inside
  by_cases silent : state.table.epsilons = []
  · have computed := epsilonClosure_of_silent found silent
    have alone : ∀ next, ¬ arena.Forwards id next := by
      rintro next ⟨other, found', listed⟩
      rw [found, Option.some.injEq] at found'
      subst found'
      rw [silent] at listed
      cases listed
    refine ⟨by simp only [closure, computed], by simp [closure, computed], ?_⟩
    intro member
    simp only [closure, computed, List.mem_singleton]
    constructor
    · rintro rfl
      exact ⟨.refl, Or.inr alone⟩
    · rintro ⟨reaches, _⟩
      exact (eq_of_reaches reaches alone).symm
  · obtain ⟨visited, result, run, visits⟩ :=
      closureFrom_visits formed (arena.size + 1) _ [] [id] (.start inside) (by simp)
    have computed := (epsilonClosure_of_forwarding found silent).trans run
    have complete (member : StateId) (reaches : arena.Reaches id member) : member ∈ visited := by
      induction reaches with
      | refl => exact visits.stacked id (by simp)
      | tail _ forwards ih => simpa using visits.closed _ ih _ forwards
    refine ⟨by simp only [closure, computed], ?_, ?_⟩
    · simp only [closure, computed]
      exact visits.sublist.nodup (by simpa using visits.distinct)
    · intro member
      simp only [closure, computed, visits.acting member]
      constructor
      · rintro ⟨seen, acts⟩
        obtain ⟨top, here, reaches⟩ := visits.reached member seen
        rw [List.mem_singleton] at here
        exact ⟨here ▸ reaches, Or.inl acts⟩
      · rintro ⟨reaches, acts | alone⟩
        · exact ⟨complete member reaches, acts⟩
        · obtain ⟨next, forwards⟩ := exists_forwards formed found silent
          exact absurd forwards (alone next)

theorem mem_closure_of_acts (formed : arena.WellFormed) (inside : id < arena.size)
    {member : StateId} (reaches : arena.Reaches id member) (acts : arena.Acts member) :
    member ∈ arena.closure id :=
  ((epsilonClosure_eq formed inside).2.2 member).mpr ⟨reaches, Or.inl acts⟩

theorem reaches_of_mem_closure (formed : arena.WellFormed) (inside : id < arena.size)
    {member : StateId} (listed : member ∈ arena.closure id) : arena.Reaches id member :=
  (((epsilonClosure_eq formed inside).2.2 member).mp listed).1

theorem lt_of_mem_closure (formed : arena.WellFormed) (inside : id < arena.size)
    {member : StateId} (listed : member ∈ arena.closure id) : member < arena.size :=
  formed.lt_of_reaches inside (reaches_of_mem_closure formed inside listed)

/-! ## Closures lose nothing -/

theorem Yields.of_reaches {next : StateId} {read : List UInt8} (reaches : arena.Reaches id next)
    (yields : arena.Yields x next read) : arena.Yields x id read := by
  induction reaches using Relation.ReflTransGen.head_induction_on with
  | refl => exact yields
  | head forwards _ ih => exact .forward forwards ih

/-- What a state yields on no byte is held by a member of its closure. -/
theorem yields_nil_iff (formed : arena.WellFormed) (inside : id < arena.size) :
    arena.Yields x id [] ↔ ∃ member ∈ arena.closure id, arena.Holds member x := by
  constructor
  · intro yields
    have held : ∃ member, arena.Reaches id member ∧ arena.Holds member x := by
      generalize nothing : ([] : List UInt8) = read at yields
      induction yields with
      | @here id holds => exact ⟨id, .refl, holds⟩
      | forward forwards _ ih =>
        obtain ⟨member, reaches, holds⟩ := ih (formed.lt_of_forwards forwards) nothing
        exact ⟨member, .head forwards reaches, holds⟩
      | read _ _ _ => cases nothing
    obtain ⟨member, reaches, holds⟩ := held
    exact ⟨member, mem_closure_of_acts formed inside reaches (acts_of_holds holds), holds⟩
  · rintro ⟨member, listed, holds⟩
    exact .of_reaches (reaches_of_mem_closure formed inside listed) (.here holds)

/-- What a state yields on a byte and more is yielded behind a move of a member of its closure. -/
theorem yields_cons_iff (formed : arena.WellFormed) (inside : id < arena.size) (byte : UInt8)
    (rest : List UInt8) :
    arena.Yields x id (byte :: rest) ↔
      ∃ member ∈ arena.closure id, ∃ next, arena.Moves byte member next ∧
        arena.Yields x next rest := by
  constructor
  · intro yields
    have moved : ∃ member, arena.Reaches id member ∧ ∃ next, arena.Moves byte member next ∧
        arena.Yields x next rest := by
      generalize begins : byte :: rest = read at yields
      induction yields with
      | here _ => cases begins
      | forward forwards _ ih =>
        obtain ⟨member, reaches, step⟩ := ih (formed.lt_of_forwards forwards) begins
        exact ⟨member, .head forwards reaches, step⟩
      | @read id next _ _ moves later _ =>
        injection begins with first second
        subst first second
        exact ⟨id, .refl, next, moves, later⟩
    obtain ⟨member, reaches, next, moves, later⟩ := moved
    exact ⟨member, mem_closure_of_acts formed inside reaches (acts_of_moves formed moves), next,
      moves, later⟩
  · rintro ⟨member, listed, next, moves, later⟩
    exact .of_reaches (reaches_of_mem_closure formed inside listed) (.read moves later)

end Arena

/-! ## Known closures -/

/-- The cache has room for each state of the arena, and the closures it knows are right. -/
structure ClosureCache.ValidFor (cache : ClosureCache) (arena : Arena) : Prop where
  size : cache.size = arena.size
  known : ∀ id closure, cache.slots[id]? = some (some closure) → closure = arena.closure id

theorem ClosureCache.validFor_ofSize (arena : Arena) :
    (ClosureCache.ofSize arena.size).ValidFor arena where
  size := by simp [ClosureCache.size, ofSize]
  known := by
    intro id closure found
    simp [ofSize, Array.getElem?_replicate] at found

theorem ClosureCache.ValidFor.get {cache : ClosureCache} {arena : Arena}
    (valid : cache.ValidFor arena) (formed : arena.WellFormed) {id : StateId}
    (inside : id < arena.size) :
    ∃ after, cache.get arena id = .ok (arena.closure id, after) ∧ after.ValidFor arena := by
  have room : id < cache.slots.size := lt_of_lt_of_eq inside valid.size.symm
  cases slot : cache.slots[id]? with
  | none => exact absurd room (Nat.not_lt.mpr (Array.getElem?_eq_none_iff.mp slot))
  | some content =>
    cases content with
    | some closure =>
      refine ⟨cache, ?_, valid⟩
      simp only [ClosureCache.get, slot, valid.known id closure slot]
    | none =>
      refine ⟨⟨cache.slots.setIfInBounds id (some (arena.closure id))⟩, ?_, ?_, ?_⟩
      · simp only [ClosureCache.get, slot, (Arena.epsilonClosure_eq formed inside).1]
        rfl
      · simpa [ClosureCache.size] using valid.size
      · intro other closure found
        simp only [Array.getElem?_setIfInBounds] at found
        by_cases same : id = other
        · subst same
          simp only [room, ↓reduceIte, Option.some.injEq] at found
          exact found.symm
        · simp only [same, ↓reduceIte] at found
          exact valid.known other closure found

end ByteAutomata
