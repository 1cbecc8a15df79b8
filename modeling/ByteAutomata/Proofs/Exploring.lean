import ByteAutomata.Exploration
import ByteAutomata.Proofs.ArenaStates
import ByteAutomata.Proofs.Naming

/-!
What an exploration finds.

The states discovered so far are a list without repetitions in which each has its position. Those
before the position `next` are expanded: all their targets are in the list or to be avoided. A round
expands one more, and the list is never longer than the arena, so at the end all are. `Explores` is the
same without rounds and positions: a list that grows by what each of its states leads to.
-/

namespace ByteAutomata

/-- The discovery lists these states and knows where each stands. -/
structure Discovery.Lists (found : Discovery) (ids : List StateId) : Prop where
  order : found.order.toList = ids
  interns : Interns found.position 0 ids

namespace Discovery.Lists

variable {found : Discovery} {ids : List StateId} {id : StateId}

theorem add (lists : found.Lists ids) (absent : id ∉ ids) : (found.add id).Lists (ids ++ [id]) where
  order := by simp [Discovery.add, lists.order]
  interns := by
    have size : found.order.size = 0 + ids.length := by
      rw [← lists.order, Array.length_toList, Nat.zero_add]
    simp only [Discovery.add, size]
    exact lists.interns.insert absent

theorem contains_iff (lists : found.Lists ids) : found.position.contains id = true ↔ id ∈ ids := by
  rw [Std.HashMap.contains_eq_isSome_getElem?]
  cases known : found.position[id]? with
  | none => simpa using lists.interns.unnamed_iff.mp known
  | some place =>
    obtain ⟨_, listed, _⟩ := (lists.interns.named_iff id place).mp known
    simpa using List.mem_of_getElem? listed

theorem place_iff (lists : found.Lists ids) (place : Nat) :
    found.position[id]? = some place ↔ ids[place]? = some id := by
  rw [lists.interns.named_iff]
  simp

/-- Noting targets adds, in their order, those that are missing and not to be avoided. -/
theorem visitAll (lists : found.Lists ids) (avoid : Target) (targets : List Target) :
    (targets.foldl (Discovery.visit avoid) found).Lists
      (addMissing ids (targets.filter (· ≠ avoid)).reduceOption) := by
  induction targets generalizing found ids with
  | nil => exact lists
  | cons target rest ih =>
    rw [List.foldl_cons]
    cases target with
    | none =>
      have same : ((none :: rest).filter (· ≠ avoid)).reduceOption = (rest.filter (· ≠ avoid)).reduceOption := by
        by_cases skipped : none = avoid <;> simp [List.reduceOption_cons_of_none, skipped]
      rw [same]
      exact ih lists
    | some id =>
      by_cases skipped : some id = avoid
      · rw [Discovery.visit, if_pos (Or.inl skipped), List.filter_cons_of_neg (by simpa using skipped)]
        exact ih lists
      · rw [List.filter_cons_of_pos (by simpa using skipped), List.reduceOption_cons_of_some,
          ← List.singleton_append, addMissing_append, addMissing_singleton]
        by_cases known : id ∈ ids
        · rw [Discovery.visit, if_pos (Or.inr (lists.contains_iff.mpr known)), if_pos known]
          exact ih lists
        · rw [Discovery.visit, if_neg (not_or.mpr ⟨skipped, mt lists.contains_iff.mp known⟩), if_neg known]
          exact ih (lists.add known)

end Discovery.Lists

/-- What a state leads to past `avoid`, in the order in which it is noted. -/
def State.successors (state : State) (avoid : Target) : List StateId :=
  (state.targets.filter (· ≠ avoid)).reduceOption

theorem State.mem_successors {state : State} {avoid : Target} {next : StateId} :
    next ∈ state.successors avoid ↔ some next ∈ state.targets ∧ some next ≠ avoid := by
  simp [successors, List.reduceOption_mem_iff]

theorem State.Fits.lt_of_mem_targets {size : Nat} {state : State}
    (fits : state.Fits size) {id : StateId} (listed : some id ∈ state.targets) : id < size := by
  simp only [State.targets, List.mem_append, List.mem_singleton] at listed
  rcases listed with (steps | epsilons) | spinout
  · exact fits.steps id steps
  · exact fits.epsilon_lt epsilons
  · exact fits.spinout id spinout.symm

namespace Arena

/-- One state is a target of the other and is not to be avoided. -/
def Leads (arena : Arena) (avoid : Target) (id next : StateId) : Prop :=
  ∃ state, arena.get? id = some state ∧ some next ∈ state.targets ∧ some next ≠ avoid

/-- The list holds, without repetitions, what can be reached from `start` past `avoid`, and `start`
first. -/
structure Explored (arena : Arena) (start : StateId) (avoid : Target) (ids : List StateId) : Prop where
  first : ids[0]? = some start
  distinct : ids.Nodup
  mem_iff : ∀ id, id ∈ ids ↔ Relation.ReflTransGen (arena.Leads avoid) start id
  inside : ∀ id ∈ ids, id < arena.size

variable {arena : Arena} {start : StateId} {avoid : Target}

/-- Once all states of the list are expanded, it holds all that can be reached. -/
theorem explored_of_expanded {ids : List StateId} (distinct : ids.Nodup)
    (first : ids[0]? = some start) (inside : ∀ id ∈ ids, id < arena.size)
    (reached : ∀ id ∈ ids, Relation.ReflTransGen (arena.Leads avoid) start id)
    (expanded : ∀ id ∈ ids, ∀ other, arena.Leads avoid id other → other ∈ ids) :
    arena.Explored start avoid ids := by
  refine ⟨first, distinct, fun id => ⟨reached id, fun reaches => ?_⟩, inside⟩
  induction reaches with
  | refl => exact List.mem_of_getElem? first
  | tail _ leads ih => exact expanded _ ih _ leads

/-- The course of an exploration: the states listed are expanded one after the other, from position `next` on. -/
inductive Explores (arena : Arena) (avoid : Target) : (next : Nat) → (ids all : List StateId) → Prop
  | done {next : Nat} {ids : List StateId} : ids.length ≤ next → Explores arena avoid next ids ids
  | expand {next : Nat} {ids all : List StateId} {id : StateId} {state : State} :
      ids[next]? = some id → arena.get? id = some state →
        Explores arena avoid (next + 1) (addMissing ids (state.successors avoid)) all →
          Explores arena avoid next ids all

/-- There are rounds enough to expand all states that are listed on the way. -/
theorem exploreFrom_explores (formed : arena.WellFormed) (rounds next : Nat) {found : Discovery}
    {ids : List StateId} (lists : found.Lists ids) (inside : ∀ id ∈ ids, id < arena.size)
    (enough : arena.size < next + rounds) :
    ∃ after all, arena.exploreFrom avoid rounds next found = .ok after ∧ after.Lists all ∧
      arena.Explores avoid next ids all := by
  induction rounds generalizing next found ids with
  | zero =>
    have bound := length_le_of_nodup lists.interns.distinct inside
    exact ⟨found, ids, rfl, lists, .done (by omega)⟩
  | succ rounds ih =>
    cases place : found.order[next]? with
    | none =>
      have whole : ids.length ≤ next := by
        rw [← lists.order, Array.length_toList]
        exact Array.getElem?_eq_none_iff.mp place
      exact ⟨found, ids, by simp only [exploreFrom, place], lists, .done whole⟩
    | some id =>
      have listed : ids[next]? = some id := by
        rw [← lists.order, Array.getElem?_toList]
        exact place
      obtain ⟨state, stored⟩ := exists_get? (inside id (List.mem_of_getElem? listed))
      have insideMore : ∀ other ∈ addMissing ids (state.successors avoid), other < arena.size := by
        intro other member
        rcases (mem_addMissing _ _ _).mp member with early | led
        · exact inside other early
        · exact (formed.fits stored).lt_of_mem_targets (State.mem_successors.mp led).1
      obtain ⟨after, all, ran, listsAll, explores⟩ :=
        ih (next + 1) (lists.visitAll avoid state.targets) insideMore (by omega)
      refine ⟨after, all, ?_, listsAll, .expand listed stored explores⟩
      simp only [exploreFrom, place, get_of_get? stored, bind, Except.bind, ran]

/-- What was listed stays where it is, all that is listed was reached, and at the end all is expanded. -/
theorem Explores.explored {next : Nat} {ids all : List StateId} (explores : arena.Explores avoid next ids all)
    (formed : arena.WellFormed) (distinct : ids.Nodup) (first : ids[0]? = some start)
    (inside : ∀ id ∈ ids, id < arena.size)
    (reached : ∀ id ∈ ids, Relation.ReflTransGen (arena.Leads avoid) start id)
    (expanded : ∀ place < next, ∀ id, ids[place]? = some id →
      ∀ other, arena.Leads avoid id other → other ∈ ids) :
    arena.Explored start avoid all := by
  induction explores with
  | @done next ids whole =>
    refine explored_of_expanded distinct first inside reached fun id listed => ?_
    obtain ⟨place, at_⟩ := List.mem_iff_getElem?.mp listed
    exact expanded place (lt_of_lt_of_le (List.getElem?_eq_some_iff.mp at_).1 whole) id at_
  | @expand next ids all id state listed stored _ ih =>
    have member := List.mem_of_getElem? listed
    have kept {place : Nat} {other : StateId} (before : ids[place]? = some other) :
        (addMissing ids (state.successors avoid))[place]? = some other := by
      obtain ⟨extra, same, _⟩ := exists_append_addMissing ids (state.successors avoid)
      exact getElem?_of_isPrefix (same ▸ List.prefix_append _ _) before
    refine ih (nodup_addMissing distinct _) (kept first) ?_ ?_ ?_
    · intro other member
      rcases (mem_addMissing _ _ _).mp member with early | led
      · exact inside other early
      · exact (formed.fits stored).lt_of_mem_targets (State.mem_successors.mp led).1
    · intro other further
      rcases (mem_addMissing _ _ _).mp further with early | led
      · exact reached other early
      · exact (reached id member).tail ⟨state, stored, State.mem_successors.mp led⟩
    · intro place below other at_ aim leads
      rw [mem_addMissing]
      rcases Nat.lt_succ_iff_lt_or_eq.mp below with early | rfl
      · have bound : place < ids.length := lt_trans early (List.getElem?_eq_some_iff.mp listed).1
        have before := List.getElem?_eq_getElem bound
        rw [kept before] at at_
        exact Or.inl (expanded place early other (before.trans at_) aim leads)
      · rw [kept listed, Option.some.injEq] at at_
        subst at_
        obtain ⟨same, found, led⟩ := leads
        rw [stored, Option.some.injEq] at found
        exact Or.inr (State.mem_successors.mpr (found ▸ led))

theorem Explores.explored_start {ids : List StateId} (explores : arena.Explores avoid 0 [start] ids)
    (formed : arena.WellFormed) (within : start < arena.size) : arena.Explored start avoid ids :=
  explores.explored formed (List.nodup_singleton start) rfl (by simpa using within)
    (by simpa using Relation.ReflTransGen.refl) (by simp)

/-- An exploration of a well-formed arena never faults and lists what it notes in the course of it. -/
theorem explore_explores (formed : arena.WellFormed) (within : start < arena.size) (avoid : Target) :
    ∃ found ids, arena.explore start avoid = .ok found ∧ found.Lists ids ∧
      arena.Explores avoid 0 [start] ids := by
  have blank : Discovery.Lists {} [] := ⟨rfl, .empty 0⟩
  have begun := blank.add (List.not_mem_nil : start ∉ [])
  exact exploreFrom_explores formed (arena.size + 1) 0 begun (by simpa using within) (by omega)

/-- An exploration finds what can be reached. -/
theorem explore_eq (formed : arena.WellFormed) (within : start < arena.size) (avoid : Target) :
    ∃ found ids, arena.explore start avoid = .ok found ∧ found.Lists ids ∧
      arena.Explored start avoid ids := by
  obtain ⟨found, ids, ran, lists, explores⟩ := explore_explores formed within avoid
  exact ⟨found, ids, ran, lists, explores.explored_start formed within⟩

end Arena

end ByteAutomata
