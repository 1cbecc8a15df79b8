import ByteAutomata.Proofs.FoldedFragment
import ByteAutomata.Proofs.UnionReports

/-!
Paths of byte steps.

A path follows byte steps up to a goal, which it does not leave again. Leading some bytes of one state
elsewhere redirects the paths that go through this state and no others, and where a single path leads
to the state these are the ones that continue it. States that have byte steps only accept what paths
to the goal read, followed by what the goal accepts.
-/

namespace ByteAutomata

section Redirecting

variable {State : Type} {step stepAfter : State → UInt8 → State} {node : State}

/-- Paths that do not meet the changed state stay. -/
theorem foldl_eq_of_apart (others : ∀ state, state ≠ node → ∀ byte, stepAfter state byte = step state byte)
    {state : State} (apart : ∀ bytes : List UInt8, bytes.foldl step state ≠ node) (bytes : List UInt8) :
    bytes.foldl stepAfter state = bytes.foldl step state := by
  induction bytes generalizing state with
  | nil => rfl
  | cons byte rest ih =>
    rw [List.foldl_cons, List.foldl_cons, others state (apart []) byte]
    exact ih fun more => apart (byte :: more)

/-- A path is redirected if it leads through the changed state and goes on with one of the bytes that
lead elsewhere now. -/
theorem foldl_redirected {moved : UInt8 → Prop} {target : State}
    (others : ∀ state, state ≠ node → ∀ byte, stepAfter state byte = step state byte)
    (here : ∀ byte, moved byte → stepAfter node byte = target)
    (elsewhere : ∀ byte, ¬ moved byte → stepAfter node byte = step node byte)
    (apart : ∀ bytes : List UInt8, bytes.foldl step target ≠ node) {path : List UInt8} {state : State}
    (sole : ∀ bytes : List UInt8, bytes.foldl step state = node ↔ bytes = path) (bytes : List UInt8) :
    (∃ byte rest, bytes = path ++ byte :: rest ∧ moved byte ∧
        bytes.foldl stepAfter state = rest.foldl step target) ∨
      (∀ byte rest, bytes = path ++ byte :: rest → ¬ moved byte) ∧
        bytes.foldl stepAfter state = bytes.foldl step state := by
  induction path generalizing state bytes with
  | nil =>
    have same : state = node := (sole []).mpr rfl
    subst same
    cases bytes with
    | nil => exact Or.inr ⟨by simp, rfl⟩
    | cons byte rest =>
      by_cases moves : moved byte
      · refine Or.inl ⟨byte, rest, rfl, moves, ?_⟩
        rw [List.foldl_cons, here byte moves]
        exact foldl_eq_of_apart others apart rest
      · refine Or.inr ⟨?_, ?_⟩
        · intro other more same
          exact (List.cons.inj same).1 ▸ moves
        · rw [List.foldl_cons, List.foldl_cons, elsewhere byte moves]
          refine foldl_eq_of_apart others (fun more back => ?_) rest
          exact List.cons_ne_nil byte more ((sole (byte :: more)).mp back)
  | cons first path ih =>
    have different : state ≠ node := fun same => List.cons_ne_nil first path ((sole []).mp same).symm
    cases bytes with
    | nil => exact Or.inr ⟨by simp, rfl⟩
    | cons byte rest =>
      rw [List.foldl_cons, List.foldl_cons, others state different byte]
      by_cases same : byte = first
      · subst same
        have soleBehind (more : List UInt8) :
            more.foldl step (step state byte) = node ↔ more = path := by
          rw [← List.foldl_cons, sole, List.cons.injEq, and_iff_right rfl]
        rcases ih soleBehind rest with ⟨other, more, reads, moves, leads⟩ | ⟨stays, leads⟩
        · exact Or.inl ⟨other, more, congrArg (byte :: ·) reads, moves, leads⟩
        · refine Or.inr ⟨fun other more reads => ?_, leads⟩
          exact stays other more (List.cons.inj reads).2
      · refine Or.inr ⟨?_, ?_⟩
        · intro other more reads
          exact absurd (List.cons.inj reads).1 same
        · refine foldl_eq_of_apart others (fun more back => ?_) rest
          exact same (List.cons.inj ((sole (byte :: more)).mp back)).1

end Redirecting

/-! ## Following byte steps -/

namespace Arena

/-- Where a byte step leads from a target. The goal is not left again. -/
def stepFrom (arena : Arena) (goal target : Target) (byte : UInt8) : Target :=
  if target = goal then none
  else (target.bind arena.get?).elim none fun state => state.table.lookup byte

/-- Where byte steps lead from a target. -/
def follow (arena : Arena) (goal target : Target) (bytes : List UInt8) : Target :=
  bytes.foldl (arena.stepFrom goal) target

variable {arena : Arena} {goal target : Target} {kept : Nat} {id : StateId} {state : State}
  {x : Continuation}

theorem stepFrom_of_get? (other : some id ≠ goal) (found : arena.get? id = some state) (byte : UInt8) :
    arena.stepFrom goal (some id) byte = state.table.lookup byte := by
  simp [stepFrom, other, found]

@[simp] theorem stepFrom_none (arena : Arena) (goal : Target) (byte : UInt8) :
    arena.stepFrom goal none byte = none := by
  simp [stepFrom]

@[simp] theorem stepFrom_goal (arena : Arena) (goal : Target) (byte : UInt8) :
    arena.stepFrom goal goal byte = none := by
  simp [stepFrom]

@[simp] theorem follow_nil (arena : Arena) (goal target : Target) :
    arena.follow goal target [] = target := rfl

theorem follow_cons (arena : Arena) (goal target : Target) (byte : UInt8) (rest : List UInt8) :
    arena.follow goal target (byte :: rest) = arena.follow goal (arena.stepFrom goal target byte) rest :=
  rfl

theorem follow_append (arena : Arena) (goal target : Target) (first second : List UInt8) :
    arena.follow goal target (first ++ second) =
      arena.follow goal (arena.follow goal target first) second :=
  List.foldl_append

@[simp] theorem follow_none (arena : Arena) (goal : Target) (bytes : List UInt8) :
    arena.follow goal none bytes = none := by
  induction bytes with
  | nil => rfl
  | cons byte rest ih => rw [follow_cons, stepFrom_none, ih]

theorem follow_goal_cons (arena : Arena) (goal : Target) (byte : UInt8) (rest : List UInt8) :
    arena.follow goal goal (byte :: rest) = none := by
  rw [follow_cons, stepFrom_goal, follow_none]

end Arena

/-! ## States with byte steps only -/

/-- The state moves by its byte steps and reports nothing. -/
structure State.StepsOnly (state : State) : Prop where
  epsilons : state.table.epsilons = []
  spinout : state.table.spinout = none
  continuations : state.continuations = []

namespace State.StepsOnly

variable {state : State} {id : StateId} {x : Continuation} {accepts : StateId → List UInt8 → Prop}

theorem not_accepts_nil (only : state.StepsOnly) : ¬ state.Accepts x id accepts [] := by
  simp [State.Accepts, only.epsilons, only.continuations]

theorem accepts_cons_iff (only : state.StepsOnly) (byte : UInt8) (rest : List UInt8) :
    state.Accepts x id accepts (byte :: rest) ↔
      Target.Accepts accepts (state.table.lookup byte) rest := by
  rw [State.accepts_cons_of_silent only.epsilons, only.spinout]
  simp [Target.not_accepts_none]

end State.StepsOnly

namespace Arena

variable {arena future : Arena} {target : Target} {kept : Nat} {goal : StateId} {x : Continuation}

/-- At the goal only the empty path leads to the goal. -/
theorem exists_follow_goal_iff (arena : Arena) (goal : StateId) (bytes : List UInt8) (accepts : List UInt8 → Prop) :
    (∃ first second, bytes = first ++ second ∧ arena.follow (some goal) (some goal) first = some goal ∧
      accepts second) ↔ accepts bytes := by
  constructor
  · rintro ⟨_ | ⟨byte, more⟩, second, rfl, reads, later⟩
    · exact later
    · rw [follow_goal_cons] at reads
      cases reads
  · intro later
    exact ⟨[], bytes, rfl, rfl, later⟩

/-- Elsewhere a path to the goal takes a byte step first. -/
theorem exists_follow_cons_iff (other : target ≠ some goal) (byte : UInt8) (rest : List UInt8)
    (accepts : List UInt8 → Prop) :
    (∃ first second, byte :: rest = first ++ second ∧ arena.follow (some goal) target first = some goal ∧
      accepts second) ↔
      ∃ first second, rest = first ++ second ∧
        arena.follow (some goal) (arena.stepFrom (some goal) target byte) first = some goal ∧ accepts second := by
  constructor
  · rintro ⟨_ | ⟨first, more⟩, second, split, reads, later⟩
    · exact absurd reads other
    · rw [List.cons_append, List.cons.injEq] at split
      obtain ⟨rfl, rfl⟩ := split
      exact ⟨more, second, rfl, reads, later⟩
  · rintro ⟨first, second, rfl, reads, later⟩
    exact ⟨byte :: first, second, rfl, reads, later⟩

/-- The states from `kept` on have byte steps only, and these lead to such states or to the goal. -/
structure StepsTo (arena : Arena) (kept : Nat) (goal : StateId) : Prop where
  only : ∀ id state, kept ≤ id → arena.get? id = some state → state.StepsOnly
  leads : arena.LeadsBack kept (some goal)

/-- The target is the goal or a state from `kept` on. -/
def Owns (arena : Arena) (kept : Nat) (goal : StateId) (target : Target) : Prop :=
  ∀ id, target = some id → kept ≤ id ∧ id < arena.size ∨ id = goal

theorem owns_goal (arena : Arena) (kept : Nat) (goal : StateId) : arena.Owns kept goal (some goal) :=
  fun _ same => Or.inr (Option.some.inj same).symm

theorem Owns.lt_size {id : StateId} (owns : arena.Owns kept goal (some id)) (inside : goal < arena.size) :
    id < arena.size := by
  rcases owns id rfl with ⟨_, bound⟩ | same
  · exact bound
  · exact same ▸ inside

namespace StepsTo

theorem owns_stepFrom (steps : arena.StepsTo kept goal) (formed : arena.WellFormed)
    (owns : arena.Owns kept goal target) (byte : UInt8) :
    arena.Owns kept goal (arena.stepFrom (some goal) target byte) := by
  intro next leads
  cases target with
  | none => simp at leads
  | some id =>
    by_cases last : some id = some goal
    · rw [last, stepFrom_goal] at leads
      cases leads
    · obtain ⟨new, inside⟩ := (owns id rfl).resolve_right fun same => last (congrArg some same)
      obtain ⟨state, found⟩ := exists_get? inside
      have fits := formed.fits found
      rw [stepFrom_of_get? last found] at leads
      have back := steps.leads id state new found next (Table.lookup_mem_steps fits.table leads)
      exact back.imp (fun later => ⟨later, fits.lookup_lt leads⟩) Option.some.inj

theorem owns_follow (steps : arena.StepsTo kept goal) (formed : arena.WellFormed)
    (owns : arena.Owns kept goal target) (bytes : List UInt8) :
    arena.Owns kept goal (arena.follow (some goal) target bytes) := by
  induction bytes generalizing target with
  | nil => exact owns
  | cons byte rest ih => exact ih (steps.owns_stepFrom formed owns byte)

/-- Where all states move as before, paths stay. -/
theorem follow_eq_of_agrees (steps : arena.StepsTo kept goal) (formed : arena.WellFormed)
    (agrees : ∀ id < arena.size, ∀ byte, future.stepFrom (some goal) (some id) byte =
      arena.stepFrom (some goal) (some id) byte)
    (owns : arena.Owns kept goal target) (bytes : List UInt8) :
    future.follow (some goal) target bytes = arena.follow (some goal) target bytes := by
  induction bytes generalizing target with
  | nil => rfl
  | cons byte rest ih =>
    have same : future.stepFrom (some goal) target byte = arena.stepFrom (some goal) target byte := by
      cases target with
      | none => simp
      | some id =>
        rcases owns id rfl with ⟨_, inside⟩ | rfl
        · exact agrees id inside byte
        · simp
    rw [follow_cons, same, ih (steps.owns_stepFrom formed owns byte), follow_cons]

/-- What states with byte steps only accept is a path to the goal and behind it what the goal
accepts. -/
theorem accepts_iff (steps : arena.StepsTo kept goal) (formed : arena.WellFormed)
    {accepts : StateId → List UInt8 → Prop}
    (obeys : ∀ id, kept ≤ id → id < arena.size → id ≠ goal → arena.Obeys x accepts id)
    (owns : arena.Owns kept goal target) (read : List UInt8) :
    Target.Accepts accepts target read ↔ ∃ first second, read = first ++ second ∧
      arena.follow (some goal) target first = some goal ∧ accepts goal second := by
  induction read generalizing target with
  | nil =>
    cases target with
    | none => simp [Target.not_accepts_none]
    | some id =>
      by_cases last : id = goal
      · subst last
        rw [Target.accepts_some, exists_follow_goal_iff]
      · obtain ⟨new, bound⟩ := (owns id rfl).resolve_right last
        obtain ⟨state, found, settles⟩ := obeys id new bound last
        rw [Target.accepts_some, settles]
        simp [(steps.only id state new found).not_accepts_nil, last]
  | cons byte rest ih =>
    cases target with
    | none => simp [Target.not_accepts_none]
    | some id =>
      by_cases last : id = goal
      · subst last
        rw [Target.accepts_some, exists_follow_goal_iff]
      · obtain ⟨new, bound⟩ := (owns id rfl).resolve_right last
        obtain ⟨state, found, settles⟩ := obeys id new bound last
        have other : some id ≠ some goal := fun same => last (Option.some.inj same)
        rw [Target.accepts_some, settles, (steps.only id state new found).accepts_cons_iff, ← stepFrom_of_get? other found,
          ih (steps.owns_stepFrom formed owns byte), exists_follow_cons_iff other]

/-- A new state with byte steps only, which lead to other such states, is one of them. -/
theorem pushTable (steps : arena.StepsTo kept goal) {table : Table} (only : State.StepsOnly { table })
    (leads : ∀ next, some next ∈ table.steps → kept ≤ next ∨ some next = some goal) :
    (arena.pushTable table).1.StepsTo kept goal where
  only := by
    intro id state new found
    change (arena.push { table }).1.get? id = some state at found
    rw [get?_push] at found
    by_cases last : id = arena.size
    · rw [if_pos last, Option.some.injEq] at found
      exact found ▸ only
    · rw [if_neg last] at found
      exact steps.only id state new found
  leads := steps.leads.pushTable leads

end StepsTo

theorem stepFrom_pushTable (arena : Arena) (goal : Target) (table : Table) {id : StateId}
    (inside : id < arena.size) (byte : UInt8) :
    (arena.pushTable table).1.stepFrom goal (some id) byte = arena.stepFrom goal (some id) byte := by
  simp only [stepFrom, Option.bind_some]
  rw [Arena.pushTable, get?_push_of_lt inside]

end Arena

/-! ## Leading bytes elsewhere -/

section

variable {arena : Arena} {target : Target} {kept : Nat} {goal node root : StateId} {path : List UInt8}
  {moved : UInt8 → Prop} {state : State}

/-- Leads the bytes that `moved` tells from a state to a target; all else stays. -/
structure Redirects (node : StateId) (moved : UInt8 → Prop) (target : Target) (state : State)
    (table : Table) : Prop where
  epsilons : table.epsilons = state.table.epsilons
  spinout : table.spinout = state.table.spinout
  here : ∀ byte, moved byte → table.lookup byte = target
  elsewhere : ∀ byte, ¬ moved byte → table.lookup byte = state.table.lookup byte
  listed : ∀ next, some next ∈ table.steps → some next = target ∨ some next ∈ state.table.steps
  formed : table.WellFormed

theorem Redirects.fits {size : Nat} {moved : UInt8 → Prop} {target : Target} {state : State}
    {table : Table} (redirects : Redirects node moved target state table) (fits : state.Fits size)
    (inside : ∀ id, target = some id → id < size) :
    State.Fits size { state with table } where
  table := redirects.formed
  steps := by
    intro id listed
    rcases redirects.listed id listed with here | earlier
    · exact inside id here.symm
    · exact fits.steps id earlier
  spinout := by
    rw [redirects.spinout]
    exact fits.spinout
  epsilons := by
    rw [redirects.epsilons]
    exact fits.epsilons

theorem Redirects.overrideRange {size : Nat} {state : State} (fits : state.Fits size) {lo hi : UInt8}
    (order : lo ≤ hi) (below : hi < byteCeiling) (target : Target) :
    Redirects node (fun byte => lo ≤ byte ∧ byte ≤ hi) target state
      (state.table.overrideRange lo hi target) where
  epsilons := rfl
  spinout := rfl
  here := fun byte between => by
    rw [Table.lookup_overrideRange fits.table target order below, if_pos between]
  elsewhere := fun byte outside => by
    rw [Table.lookup_overrideRange fits.table target order below, if_neg outside]
  listed := fun _ member => Table.mem_steps_overrideRange fits.table lo hi target member
  formed := Table.wellFormed_overrideRange fits.table target order below

theorem Redirects.override {size : Nat} {state : State} (fits : state.Fits size) {byte : UInt8}
    (below : byte < byteCeiling) (target : Target) :
    Redirects node (· = byte) target state (state.table.override byte target) where
  epsilons := rfl
  spinout := rfl
  here := fun other same => by
    rw [Table.lookup_override fits.table below, if_pos same]
  elsewhere := fun other different => by
    rw [Table.lookup_override fits.table below, if_neg different]
  listed := fun _ member => Table.mem_steps_override fits.table byte target member
  formed := Table.wellFormed_override fits.table byte target

theorem Redirects.stepsOnly {table : Table} (redirects : Redirects node moved target state table)
    (only : state.StepsOnly) : State.StepsOnly { state with table } :=
  ⟨redirects.epsilons.trans only.epsilons, redirects.spinout.trans only.spinout, only.continuations⟩

/-- Leading bytes of a state to such a state or to the goal keeps all states as they have to be. -/
theorem Arena.StepsTo.modifyTable (steps : arena.StepsTo kept goal) (new : kept ≤ node)
    (found : arena.get? node = some state) (change : Table → Table)
    (redirects : Redirects node moved target state (change state.table))
    (owns : arena.Owns kept goal target) : (arena.modifyTable node change).StepsTo kept goal where
  only := by
    intro id original later listed
    by_cases same : id = node
    · subst same
      rw [Arena.get?_modifyTable_self change found, Option.some.injEq] at listed
      exact listed ▸ redirects.stepsOnly (steps.only id state new found)
    · rw [Arena.get?_modifyTable_of_ne _ _ (Ne.symm same)] at listed
      exact steps.only id original later listed
  leads := by
    apply steps.leads.modifyTable
    intro original listed next member absent
    rw [found, Option.some.injEq] at listed
    subst original
    rcases redirects.listed next member with here | earlier
    · exact (owns next here.symm).imp (fun later => later.1) (congrArg some)
    · exact absurd earlier absent

/-- Leading bytes of a state elsewhere keeps all paths but those that continue the one to that state. -/
theorem Arena.StepsTo.redirect (steps : arena.StepsTo kept goal) (formed : arena.WellFormed)
    (bound : goal < arena.size) (new : kept ≤ node) (other : node ≠ goal)
    (found : arena.get? node = some state) (change : Table → Table)
    (redirects : Redirects node moved target state (change state.table))
    (owns : arena.Owns kept goal target)
    (apart : ∀ bytes, arena.follow (some goal) target bytes ≠ some node)
    (sole : ∀ bytes, arena.follow (some goal) (some root) bytes = some node ↔ bytes = path) :
    let changed := arena.modifyTable node change
    Extends kept arena changed ∧ changed.StepsTo kept goal ∧
      (∀ id, id ≠ node → ∀ byte, changed.stepFrom (some goal) (some id) byte =
        arena.stepFrom (some goal) (some id) byte) ∧
      ∀ bytes, (∃ byte rest, bytes = path ++ byte :: rest ∧ moved byte ∧
          changed.follow (some goal) (some root) bytes = arena.follow (some goal) target rest) ∨
        (∀ byte rest, bytes = path ++ byte :: rest → ¬ moved byte) ∧
          changed.follow (some goal) (some root) bytes = arena.follow (some goal) (some root) bytes := by
  intro changed
  have fits := formed.fits found
  have targetInside (id : StateId) (same : target = some id) : id < arena.size := by
    rcases owns id same with ⟨_, inside⟩ | here
    · exact inside
    · exact here ▸ bound
  have extends_ := formed.extends_modify new change fun original stored => by
    rw [found, Option.some.injEq] at stored
    exact stored ▸ redirects.fits fits targetInside
  have others (id : StateId) (different : id ≠ node) (byte : UInt8) :
      changed.stepFrom (some goal) (some id) byte = arena.stepFrom (some goal) (some id) byte := by
    simp only [Arena.stepFrom, changed, Option.bind_some]
    rw [Arena.get?_modifyTable_of_ne _ _ (Ne.symm different)]
  have notGoal : some node ≠ some goal := fun same => other (Option.some.inj same)
  have stored : changed.get? node = some { state with table := change state.table } :=
    Arena.get?_modifyTable_self change found
  refine ⟨extends_, steps.modifyTable new found change redirects owns, others, fun bytes => ?_⟩
  refine foldl_redirected (fun target different byte => ?_) (fun byte moves => ?_)
    (fun byte stays => ?_) apart sole bytes
  · cases target with
    | none => simp
    | some id => exact others id (fun same => different (congrArg some same)) byte
  · rw [Arena.stepFrom_of_get? notGoal stored]
    exact redirects.here byte moves
  · rw [Arena.stepFrom_of_get? notGoal stored, Arena.stepFrom_of_get? notGoal found]
    exact redirects.elsewhere byte stays

end

end ByteAutomata
