import ByteAutomata.Proofs.LeftoverFrontiers

/-!
Runs over renamed states, step by step.

An arena mirrors a part of another one if every state of that part has a copy with all of its targets renamed
and no two of them share a copy. Runs from a state and from its copy then meet the same continuations in the
same order: closures, frontiers and what they report are the renamed ones at every byte. Closures alone can differ
by members that do nothing. A state with a step for an empty range counts as one that acts, and its copy does not
once its ranges are packed.
-/

namespace ByteAutomata

namespace Arena

/-- Each listed state has a copy of its own, in which its targets, listed as well, are renamed. -/
structure Mirrors (target source : Arena) (rename : StateId → StateId) (ids : List StateId) : Prop where
  apart : Set.InjOn rename {id | id ∈ ids}
  copies : ∀ id ∈ ids, ∃ state copy, source.get? id = some state ∧ target.get? (rename id) = some copy ∧
    state.RenamesTo rename copy ∧ ∀ next, state.LeadsTo next → next ∈ ids

/-- True if the state of this name acts by itself. -/
def actsBy (arena : Arena) (id : StateId) : Bool := ((arena.get? id).getD {}).acts id

variable {arena source target : Arena} {id : StateId} {state : State} {rename : StateId → StateId}
  {ids : List StateId}

theorem actsBy_of_get? (found : arena.get? id = some state) : arena.actsBy id = state.acts id := by
  rw [actsBy, found, Option.getD_some]

theorem heldBy_of_idle (idle : arena.actsBy id = false) : arena.heldBy id = [] := by
  simp only [actsBy, State.acts, Bool.or_eq_false_iff, Bool.not_eq_false', List.isEmpty_iff] at idle
  exact idle.1.2

theorem movesFrom_of_idle (formed : arena.WellFormed) (byte : UInt8) (idle : arena.actsBy id = false) :
    arena.movesFrom byte id = [] := by
  rw [List.eq_nil_iff_forall_not_mem]
  intro next member
  cases found : arena.get? id with
  | none =>
    rw [movesFrom, found, Option.getD_none, State.mem_moves] at member
    rcases member with led | ⟨_, spins⟩ | ⟨listed, _⟩
    · cases (Table.lookup_empty byte).symm.trans led
    · cases spins
    · cases listed
  | some state =>
    rw [movesFrom_of_get? found, State.mem_moves] at member
    obtain ⟨other, stored, acts⟩ := acts_of_moves formed ⟨state, found, member⟩
    rw [found, Option.some.injEq] at stored
    rw [actsBy_of_get? found, stored, acts] at idle
    cases idle

end Arena

/-- Leaving out members that contribute nothing changes nothing. -/
theorem flatMap_filter_of_idle {acts : StateId → Bool} {contribute : StateId → List Nat} (visited : List StateId)
    (idle : ∀ id, acts id = false → contribute id = []) :
    (visited.filter acts).flatMap contribute = visited.flatMap contribute := by
  induction visited with
  | nil => rfl
  | cons id rest ih =>
    rw [List.flatMap_cons, ← ih]
    cases known : acts id with
    | true => rw [List.filter_cons_of_pos known, List.flatMap_cons]
    | false =>
      rw [List.filter_cons_of_neg (by simp [known]), idle id known, List.nil_append]

/-! ## Searches -/

/-- Both searches have seen and stacked the same states, one of them the copies. -/
structure EpsilonSearch.MirroredBy (search copy : EpsilonSearch) (rename : StateId → StateId)
    (ids opened : List StateId) : Prop where
  inside : ∀ id ∈ opened, id ∈ ids
  stack : search.stack = opened.map some
  stackCopy : copy.stack = (opened.map rename).map some
  seen : ∀ id ∈ ids, copy.seen.contains (some (rename id)) = search.seen.contains (some id)

namespace EpsilonSearch.MirroredBy

variable {search copy : EpsilonSearch} {rename : StateId → StateId} {ids opened : List StateId}

theorem start (apart : Set.InjOn rename {id | id ∈ ids}) {id : StateId} (listed : id ∈ ids) :
    MirroredBy ⟨{some id}, [some id]⟩ ⟨{some (rename id)}, [some (rename id)]⟩ rename ids [id] where
  inside := by simpa using listed
  stack := rfl
  stackCopy := rfl
  seen := by
    intro other member
    rw [Bool.eq_iff_iff]
    simp only [Std.HashSet.singleton_eq_insert, Std.HashSet.contains_insert, Std.HashSet.contains_empty,
      Bool.or_false, beq_iff_eq, Option.some.injEq]
    exact apart.eq_iff listed member

theorem visit (mirrored : search.MirroredBy copy rename ids opened) (apart : Set.InjOn rename {id | id ∈ ids})
    {id : StateId} (listed : id ∈ ids) :
    ∃ pending, (search.visit (some id)).MirroredBy (copy.visit (some (rename id))) rename ids pending := by
  have same := mirrored.seen id listed
  by_cases known : search.seen.contains (some id) = true
  · rw [EpsilonSearch.visit, if_pos known, EpsilonSearch.visit, if_pos (same.trans known)]
    exact ⟨opened, mirrored⟩
  · rw [EpsilonSearch.visit, if_neg known, EpsilonSearch.visit, if_neg (same ▸ known)]
    refine ⟨id :: opened, List.forall_mem_cons.mpr ⟨listed, mirrored.inside⟩, ?_, ?_, fun other member => ?_⟩
    · simp only [mirrored.stack, List.map_cons]
    · simp only [mirrored.stackCopy, List.map_cons]
    · rw [Std.HashSet.contains_insert, Std.HashSet.contains_insert, mirrored.seen other member]
      congr 1
      rw [Bool.eq_iff_iff, beq_iff_eq, beq_iff_eq, Option.some.injEq, Option.some.injEq]
      exact apart.eq_iff listed member

theorem visitAll (mirrored : search.MirroredBy copy rename ids opened) (apart : Set.InjOn rename {id | id ∈ ids})
    (targets : List Target) (listed : ∀ target ∈ targets, ∃ id ∈ ids, target = some id) :
    ∃ pending, (targets.foldr (fun target search => search.visit target) search).MirroredBy
      ((targets.map (Option.map rename)).foldr (fun target search => search.visit target) copy)
        rename ids pending := by
  induction targets with
  | nil => exact ⟨opened, mirrored⟩
  | cons target rest ih =>
    obtain ⟨pending, before⟩ := ih fun other member => listed other (List.mem_cons_of_mem _ member)
    obtain ⟨id, member, rfl⟩ := listed target List.mem_cons_self
    exact before.visit apart member

end EpsilonSearch.MirroredBy

namespace Arena.Mirrors

variable {source target : Arena} {rename : StateId → StateId} {ids : List StateId} {id : StateId}

theorem lt_size (mirrors : target.Mirrors source rename ids) (listed : id ∈ ids) : id < source.size := by
  obtain ⟨_, _, stored, _⟩ := mirrors.copies id listed
  exact lt_size_of_get? stored

theorem rename_lt_size (mirrors : target.Mirrors source rename ids) (listed : id ∈ ids) :
    rename id < target.size := by
  obtain ⟨_, _, _, copied, _⟩ := mirrors.copies id listed
  exact lt_size_of_get? copied

/-- The search for a closure and the one among the copies visit the same states in the same order. -/
theorem closureFrom_eq (mirrors : target.Mirrors source rename ids) (formed : source.WellFormed) (rounds : Nat)
    {search copy : EpsilonSearch} {opened : List StateId}
    (mirrored : search.MirroredBy copy rename ids opened) :
    ∃ visited : List StateId, (∀ id ∈ visited, id ∈ ids) ∧
      source.closureFrom rounds search = .ok (visited.filter source.actsBy) ∧
      target.closureFrom rounds copy = .ok ((visited.map rename).filter target.actsBy) := by
  induction rounds generalizing search copy opened with
  | zero => exact ⟨[], by simp, rfl, rfl⟩
  | succ rounds ih =>
    cases opened with
    | nil =>
      refine ⟨[], by simp, ?_, ?_⟩
      · simp only [closureFrom, mirrored.stack, List.map_nil, List.filter_nil]
      · simp only [closureFrom, mirrored.stackCopy, List.map_nil, List.filter_nil]
    | cons top rest =>
      obtain ⟨state, twin, stored, copied, renames, leads⟩ := mirrors.copies top (mirrored.inside top List.mem_cons_self)
      have popped : EpsilonSearch.MirroredBy ⟨search.seen, rest.map some⟩
          ⟨copy.seen, (rest.map rename).map some⟩ rename ids rest :=
        ⟨fun id later => mirrored.inside id (List.mem_cons_of_mem _ later), rfl, rfl, mirrored.seen⟩
      obtain ⟨pending, further⟩ := popped.visitAll mirrors.apart state.table.epsilons (by
        intro target listed
        obtain ⟨next, _, rfl⟩ := (formed.fits stored).epsilons target listed
        exact ⟨next, leads next (Or.inr (Or.inr listed)), rfl⟩)
      obtain ⟨visited, inside, ran, ranCopy⟩ := ih further
      refine ⟨top :: visited, ?_, ?_, ?_⟩
      · exact List.forall_mem_cons.mpr ⟨mirrored.inside top List.mem_cons_self, inside⟩
      · simp only [closureFrom, mirrored.stack, List.map_cons, get_of_get? stored, bind, Except.bind, ran,
          List.filter_cons, actsBy_of_get? stored]
        rfl
      · simp only [closureFrom, mirrored.stackCopy, List.map_cons, get_of_get? copied, bind, Except.bind,
          renames.epsilons, ranCopy, List.filter_cons, actsBy_of_get? copied]
        rfl

/-- What the members of a closure contribute in turn, the members of the closure of the copy contribute renamed,
as long as members that do not act contribute nothing. -/
theorem closure_flatMap (mirrors : target.Mirrors source rename ids) (formed : source.WellFormed)
    (targetFormed : target.WellFormed) (listed : id ∈ ids) {give giveCopy : StateId → List Nat}
    (translate : Nat → Nat) (idle : ∀ id, source.actsBy id = false → give id = [])
    (idleCopy : ∀ id, target.actsBy id = false → giveCopy id = [])
    (same : ∀ id ∈ ids, giveCopy (rename id) = (give id).map translate) :
    (target.closure (rename id)).flatMap giveCopy = ((source.closure id).flatMap give).map translate := by
  obtain ⟨state, copy, stored, copied, renames, _⟩ := mirrors.copies id listed
  by_cases silent : state.table.epsilons = []
  · have silentCopy : copy.table.epsilons = [] := by simpa [renames.epsilons] using silent
    rw [closure_of_silent stored silent, closure_of_silent copied silentCopy, List.flatMap_singleton,
      List.flatMap_singleton]
    exact same id listed
  · have silentCopy : copy.table.epsilons ≠ [] := by simpa [renames.epsilons] using silent
    -- Both searches get the rounds of both, which are more than enough for each.
    obtain ⟨visited, inside, ran, ranCopy⟩ := mirrors.closureFrom_eq formed (source.size + 1 + target.size)
      (.start mirrors.apart listed)
    rw [closureFrom_add formed _ _ (.start (mirrors.lt_size listed)) (by simp)] at ran
    rw [show source.size + 1 + target.size = target.size + 1 + source.size by omega,
      closureFrom_add targetFormed _ _ (.start (mirrors.rename_lt_size listed)) (by simp)] at ranCopy
    have followed : source.closure id = visited.filter source.actsBy := by
      simp only [closure, epsilonClosure_of_forwarding stored silent, ran]
    have followedCopy : target.closure (rename id) = (visited.map rename).filter target.actsBy := by
      simp only [closure, epsilonClosure_of_forwarding copied silentCopy, ranCopy]
    rw [followed, followedCopy, flatMap_filter_of_idle visited idle,
      flatMap_filter_of_idle (visited.map rename) idleCopy, List.flatMap_map, List.map_flatMap]
    exact List.flatMap_congr fun other member => same other (inside other member)

/-! ## Runs -/

theorem heldBy_eq (mirrors : target.Mirrors source rename ids) (listed : id ∈ ids) :
    target.heldBy (rename id) = source.heldBy id := by
  obtain ⟨state, copy, stored, copied, renames, _⟩ := mirrors.copies id listed
  rw [heldBy_of_get? stored, heldBy_of_get? copied, renames.continuations]

theorem movesFrom_eq (mirrors : target.Mirrors source rename ids) (byte : UInt8) (listed : id ∈ ids) :
    target.movesFrom byte (rename id) = (source.movesFrom byte id).map rename := by
  obtain ⟨state, copy, stored, copied, renames, leads⟩ := mirrors.copies id listed
  have stays : some (rename id) ∈ copy.table.epsilons ↔ some id ∈ state.table.epsilons :=
    renames.self_mem_epsilons_iff fun next behind named => mirrors.apart (leads next behind) listed named
  rw [movesFrom_of_get? stored, movesFrom_of_get? copied, State.moves, State.moves, renames.lookup, renames.spinout,
    List.map_append, List.map_append]
  congr 1
  · congr 1
    · cases state.table.lookup byte <;> rfl
    · by_cases last : byte = valueTerminator
      · rw [if_pos last, if_pos last]
        rfl
      · rw [if_neg last, if_neg last]
        cases state.table.spinout <;> rfl
  · simp only [List.contains_iff_mem, stays]
    by_cases member : some id ∈ state.table.epsilons
    · rw [if_pos member, if_pos member, List.map_singleton]
    · rw [if_neg member, if_neg member, List.map_nil]

theorem mem_of_moves (mirrors : target.Mirrors source rename ids) {byte : UInt8} (listed : id ∈ ids) {next : StateId}
    (moves : source.Moves byte id next) : next ∈ ids := by
  obtain ⟨state, _, stored, _, _, leads⟩ := mirrors.copies id listed
  obtain ⟨other, found, move⟩ := moves
  rw [stored, Option.some.injEq] at found
  exact leads next (found ▸ move.leadsTo)

theorem mem_of_reaches (mirrors : target.Mirrors source rename ids) (listed : id ∈ ids) {member : StateId}
    (reaches : source.Reaches id member) : member ∈ ids := by
  induction reaches with
  | refl => exact listed
  | tail _ forwards ih =>
    obtain ⟨state, _, stored, _, _, leads⟩ := mirrors.copies _ ih
    obtain ⟨other, found, epsilon⟩ := forwards
    rw [stored, Option.some.injEq] at found
    exact leads _ (Or.inr (Or.inr (found ▸ epsilon)))

variable {active : List StateId}

theorem heldByActive_eq (mirrors : target.Mirrors source rename ids) (formed : source.WellFormed)
    (targetFormed : target.WellFormed) (inside : ∀ id ∈ active, id ∈ ids) :
    target.heldByActive (active.map rename) = source.heldByActive active := by
  rw [heldByActive, heldByActive, List.flatMap_assoc, List.flatMap_assoc, List.flatMap_map]
  refine List.flatMap_congr fun id member => ?_
  have whole := mirrors.closure_flatMap formed targetFormed (inside id member) (fun x => x)
    (fun _ => heldBy_of_idle) (fun _ => heldBy_of_idle) fun other listed => by
      rw [mirrors.heldBy_eq listed, List.map_id']
  rwa [List.map_id'] at whole

theorem activeAfter_eq (mirrors : target.Mirrors source rename ids) (formed : source.WellFormed)
    (targetFormed : target.WellFormed) (byte : UInt8) (inside : ∀ id ∈ active, id ∈ ids) :
    target.activeAfter byte (active.map rename) = (source.activeAfter byte active).map rename := by
  have entered : ((active.map rename).flatMap target.closure).flatMap (target.movesFrom byte) =
      ((active.flatMap source.closure).flatMap (source.movesFrom byte)).map rename := by
    rw [List.flatMap_assoc, List.flatMap_assoc, List.flatMap_map, List.map_flatMap]
    exact List.flatMap_congr fun id member => mirrors.closure_flatMap formed targetFormed (inside id member)
      rename (fun _ => movesFrom_of_idle formed byte) (fun _ => movesFrom_of_idle targetFormed byte)
      fun other => mirrors.movesFrom_eq byte
  have listed : ∀ next ∈ (active.flatMap source.closure).flatMap (source.movesFrom byte), next ∈ ids := by
    intro next member
    obtain ⟨between, closed, moves⟩ := List.mem_flatMap.mp member
    obtain ⟨id, current, closed⟩ := List.mem_flatMap.mp closed
    have known := mirrors.mem_of_reaches (inside id current)
      (reaches_of_mem_closure formed (mirrors.lt_size (inside id current)) closed)
    exact mirrors.mem_of_moves known ((mem_movesFrom (mirrors.lt_size known)).mp moves)
  rw [activeAfter, activeAfter, entered, ← addMissing_map mirrors.apart (by simp) listed, List.map_nil]

theorem mem_of_mem_activeAfter (mirrors : target.Mirrors source rename ids) (formed : source.WellFormed)
    {byte : UInt8} (inside : ∀ id ∈ active, id ∈ ids) : ∀ next ∈ source.activeAfter byte active, next ∈ ids := by
  intro next member
  obtain ⟨id, current, between, closed, moves⟩ :=
    (mem_activeAfter formed fun id member => mirrors.lt_size (inside id member)).mp member
  have bound := mirrors.lt_size (inside id current)
  exact mirrors.mem_of_moves (mirrors.mem_of_reaches (inside id current) (reaches_of_mem_closure formed bound closed))
    moves

/-- A run over the copies reports the same, in the same order and as often. -/
theorem reportsAlong_eq (mirrors : target.Mirrors source rename ids) (formed : source.WellFormed)
    (targetFormed : target.WellFormed) (bytes : List UInt8) (inside : ∀ id ∈ active, id ∈ ids) :
    target.reportsAlong (active.map rename) bytes = source.reportsAlong active bytes := by
  induction bytes generalizing active with
  | nil => exact mirrors.heldByActive_eq formed targetFormed inside
  | cons byte rest ih =>
    rw [reportsAlong, reportsAlong, mirrors.heldByActive_eq formed targetFormed inside,
      mirrors.activeAfter_eq formed targetFormed byte inside, ih (mirrors.mem_of_mem_activeAfter formed inside)]

/-- Whatever was known and left over before, runs by frontier from a state and from its copy give the same list. -/
theorem sweep_eq (mirrors : target.Mirrors source rename ids) (formed : source.WellFormed)
    (targetFormed : target.WellFormed) (listed : id ∈ ids) {closures closuresCopy : ClosureCache}
    (known : closures.ValidFor source) (knownCopy : closuresCopy.ValidFor target) {frontiers frontiersCopy : Frontiers}
    (valid : frontiers.Valid) (validCopy : frontiersCopy.Valid) (value : List UInt8) (found : List Continuation) :
    ∃ all left learnt leftCopy learntCopy,
      source.sweep closures (some id) value frontiers found = .ok (all, left, learnt) ∧
      target.sweep closuresCopy (some (rename id)) value frontiersCopy found = .ok (all, leftCopy, learntCopy) := by
  obtain ⟨left, learnt, ran, _⟩ := sweep_some_eq formed (mirrors.lt_size listed) known valid value found
  obtain ⟨leftCopy, learntCopy, ranCopy, _⟩ :=
    sweep_some_eq targetFormed (mirrors.rename_lt_size listed) knownCopy validCopy value found
  have alone : ∀ other ∈ [id], other ∈ ids := by simpa using listed
  have same := mirrors.reportsAlong_eq formed targetFormed (terminated value) alone
  rw [List.map_singleton] at same
  exact ⟨_, left, learnt, leftCopy, learntCopy, ran, same ▸ ranCopy⟩

theorem walkFrom_eq (mirrors : target.Mirrors source rename ids) (formed : source.WellFormed)
    (targetFormed : target.WellFormed) (listed : id ∈ ids) (bytes : List UInt8) (found : List Continuation) :
    target.walkFrom (rename id) found bytes = source.walkFrom id found bytes := by
  induction bytes generalizing id found with
  | nil => rfl
  | cons byte rest ih =>
    obtain ⟨state, copy, stored, copied, renames, leads⟩ := mirrors.copies id listed
    have step := Table.step_eq_lookup (formed.fits stored).table byte
    have stepCopy := Table.step_eq_lookup (targetFormed.fits copied).table byte
    rw [renames.lookup] at stepCopy
    cases led : state.table.lookup byte with
    | none =>
      rw [led] at step stepCopy
      simp only [walkFrom, get_of_get? stored, get_of_get? copied, bind, Except.bind, step, stepCopy, Option.map_none]
    | some next =>
      rw [led] at step stepCopy
      have known := leads next (Or.inl ⟨byte, led⟩)
      obtain ⟨entered, twin, held, heldCopy, same, _⟩ := mirrors.copies next known
      simp only [walkFrom, get_of_get? stored, get_of_get? copied, get_of_get? held, get_of_get? heldCopy, bind,
        Except.bind, step, stepCopy, Option.map_some, same.continuations, ih known]

/-- Runs with one active state from a state and from its copy give the same list. -/
theorem walk_eq (mirrors : target.Mirrors source rename ids) (formed : source.WellFormed)
    (targetFormed : target.WellFormed) (listed : id ∈ ids) (value : List UInt8) (found : List Continuation) :
    ∃ all, source.walk (some id) value found = .ok all ∧ target.walk (some (rename id)) value found = .ok all := by
  obtain ⟨all, ran⟩ := exists_walk formed (targetWithin_some (mirrors.lt_size listed)) value found
  obtain ⟨state, copy, stored, copied, renames, _⟩ := mirrors.copies id listed
  refine ⟨all, ran, ?_⟩
  rw [← ran]
  simp only [walk, get_of_get? stored, get_of_get? copied, bind, Except.bind, renames.continuations,
    mirrors.walkFrom_eq formed targetFormed listed]

end Arena.Mirrors

end ByteAutomata
