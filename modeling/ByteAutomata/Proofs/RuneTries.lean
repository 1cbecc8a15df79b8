import ByteAutomata.Fragment.RuneTrie
import ByteAutomata.Proofs.BytePaths
import ByteAutomata.Proofs.RuneBytes

/-!
Tries for the bytes of runes.

A trie is read by following bytes from its root to the goal. States that the trie may change are
reached by one path only, all others are tails that read continuation bytes alone. So leading bytes of
such a state to a tail adds what begins with the path to the state, and nothing is lost: what was read
behind these bytes before has the shape of a rune and is read by the tail as well.
-/

namespace ByteAutomata.RuneTrie

variable {origin : Arena} {goal root node : StateId} {trie middle after : RuneTrie}
  {path bytes : List UInt8} {length : Nat}

/-- The target that reads so many continuation bytes, if there is one yet. -/
def tailTarget (trie : RuneTrie) : (length : Nat) → Target
  | 0 => trie.goal
  | length + 1 => trie.tails[length]?

/-- Where bytes lead from a target. -/
def follow (trie : RuneTrie) (target : Target) (bytes : List UInt8) : Target :=
  trie.arena.follow trie.goal target bytes

theorem isShared_eq_false_iff {id : StateId} :
    trie.isShared (some id) = false ↔ some id ≠ trie.goal ∧ id ∉ trie.tails := by
  simp only [isShared, Bool.or_eq_false_iff, beq_eq_false_iff_ne, List.any_eq_false, beq_iff_eq,
    Option.some.injEq, and_congr_right_iff]
  grind

/-- The trie extends the arena that it was begun in by states of its own, and reads bytes of the shape
of a rune. -/
structure Grown (origin : Arena) (goal root : StateId) (trie : RuneTrie) : Prop where
  extends_ : Arena.Extends origin.size origin trie.arena
  aims : trie.goal = some goal
  below : goal < origin.size
  new : origin.size ≤ root
  inside : root < trie.arena.size
  apart : root ∉ trie.tails
  steps : trie.arena.StepsTo origin.size goal
  tails : ∀ place id, trie.tails[place]? = some id → origin.size ≤ id ∧ id < trie.arena.size ∧
    ∀ byte, trie.arena.stepFrom trie.goal (some id) byte =
      if Utf8.IsContinuation byte then trie.tailTarget place else none
  sole : ∀ first second id, trie.follow (some root) first = some id →
    trie.follow (some root) second = some id → trie.isShared (some id) = false → first = second
  shaped : ∀ bytes, trie.follow (some root) bytes = trie.goal → ∃ length, Utf8.Shaped length bytes

/-- A target of the trie is the goal or one of its own states. -/
def Owns (origin : Arena) (goal : StateId) (trie : RuneTrie) (target : Target) : Prop :=
  trie.arena.Owns origin.size goal target

namespace Grown

theorem owns_stepFrom (grown : trie.Grown origin goal root) {target : Target}
    (owns : trie.Owns origin goal target) (byte : UInt8) :
    trie.Owns origin goal (trie.arena.stepFrom trie.goal target byte) :=
  grown.aims.symm ▸ grown.steps.owns_stepFrom grown.extends_.formed owns byte

theorem owns_follow (grown : trie.Grown origin goal root) {target : Target}
    (owns : trie.Owns origin goal target) (bytes : List UInt8) :
    trie.Owns origin goal (trie.follow target bytes) := by
  rw [follow, grown.aims]
  exact grown.steps.owns_follow grown.extends_.formed owns bytes

theorem owns_root (grown : trie.Grown origin goal root) : trie.Owns origin goal (some root) :=
  fun _ same => Option.some.inj same ▸ Or.inl ⟨grown.new, grown.inside⟩

theorem owns_tailTarget (grown : trie.Grown origin goal root) (length : Nat) :
    trie.Owns origin goal (trie.tailTarget length) := by
  intro id same
  cases length with
  | zero => exact Or.inr (Option.some.inj (same.symm.trans grown.aims))
  | succ place =>
    obtain ⟨new, inside, _⟩ := grown.tails place id same
    exact Or.inl ⟨new, inside⟩

theorem goal_ne_none (grown : trie.Grown origin goal root) : trie.goal ≠ none := by
  rw [grown.aims]
  exact Option.some_ne_none goal

theorem size_ne_goal (grown : trie.Grown origin goal root) : some trie.arena.size ≠ trie.goal := by
  rw [grown.aims, ne_eq, Option.some.injEq]
  exact Nat.ne_of_gt (grown.extends_.lt grown.below)

theorem tail_ne_goal (grown : trie.Grown origin goal root) {place : Nat} {id : StateId}
    (listed : trie.tails[place]? = some id) : some id ≠ trie.goal := by
  rw [grown.aims, ne_eq, Option.some.injEq]
  exact Nat.ne_of_gt (lt_of_lt_of_le grown.below (grown.tails place id listed).1)

/-- A tail reads as many continuation bytes as its number tells. -/
theorem follow_tailTarget (grown : trie.Grown origin goal root) (present : trie.tailTarget length ≠ none)
    (bytes : List UInt8) : trie.follow (trie.tailTarget length) bytes =
      if bytes.length ≤ length ∧ ∀ byte ∈ bytes, Utf8.IsContinuation byte
        then trie.tailTarget (length - bytes.length) else none := by
  induction bytes generalizing length with
  | nil => simp [follow]
  | cons byte rest ih =>
    rw [follow, Arena.follow_cons]
    cases length with
    | zero => simp [tailTarget]
    | succ place =>
      obtain ⟨id, listed⟩ := Option.ne_none_iff_exists'.mp present
      obtain ⟨_, _, leads⟩ := grown.tails place id listed
      have shorter : trie.tailTarget place ≠ none := by
        cases place with
        | zero => exact grown.goal_ne_none
        | succ before =>
          have bound : before < trie.tails.length :=
            Nat.lt_of_succ_lt (List.getElem?_eq_some_iff.mp listed).1
          simp [tailTarget, bound]
      rw [listed, leads byte]
      by_cases continues : Utf8.IsContinuation byte
      · rw [if_pos continues]
        have behind := ih shorter
        rw [follow] at behind
        rw [behind]
        simp [continues]
      · rw [if_neg continues]
        simp [continues]

theorem follow_tailTarget_eq_goal (grown : trie.Grown origin goal root)
    (present : trie.tailTarget length ≠ none) (bytes : List UInt8) :
    trie.follow (trie.tailTarget length) bytes = trie.goal ↔
      bytes.length = length ∧ ∀ byte ∈ bytes, Utf8.IsContinuation byte := by
  rw [grown.follow_tailTarget present]
  constructor
  · intro reads
    by_cases continues : bytes.length ≤ length ∧ ∀ byte ∈ bytes, Utf8.IsContinuation byte
    · rw [if_pos continues] at reads
      refine ⟨?_, continues.2⟩
      cases left : length - bytes.length with
      | zero => exact le_antisymm continues.1 (Nat.sub_eq_zero_iff_le.mp left)
      | succ place =>
        rw [left, grown.aims] at reads
        exact absurd grown.aims.symm (grown.tail_ne_goal reads)
    · rw [if_neg continues] at reads
      exact absurd reads.symm grown.goal_ne_none
  · rintro ⟨rfl, continues⟩
    rw [if_pos ⟨Nat.le_refl _, continues⟩, Nat.sub_self]
    rfl

/-- Tails lead to nothing but tails and the goal. -/
theorem isShared_of_follow_tailTarget (grown : trie.Grown origin goal root)
    (present : trie.tailTarget length ≠ none) {id : StateId}
    (leads : trie.follow (trie.tailTarget length) bytes = some id) : trie.isShared (some id) = true := by
  rw [grown.follow_tailTarget present] at leads
  split at leads
  · rw [← leads]
    cases left : length - bytes.length with
    | zero => simp [tailTarget, isShared]
    | succ place =>
      rw [left] at leads
      have member := List.mem_of_getElem? leads
      by_contra own
      exact (isShared_eq_false_iff.mp (by simpa [leads] using own)).2 member
  · cases leads

theorem lt_size_of_follow (grown : trie.Grown origin goal root) {id : StateId}
    (leads : trie.follow (some root) bytes = some id) : id < trie.arena.size := by
  rcases grown.owns_follow grown.owns_root bytes id leads with ⟨_, inside⟩ | same
  · exact inside
  · exact same ▸ grown.extends_.lt grown.below

end Grown

/-- A state that the trie may change and the path to it. -/
structure Placed (root : StateId) (trie : RuneTrie) (path : List UInt8) (node : StateId) : Prop where
  reached : trie.follow (some root) path = some node
  own : trie.isShared (some node) = false

namespace Placed

variable (grown : trie.Grown origin goal root) (placed : trie.Placed root path node)
include grown placed

theorem new : origin.size ≤ node := by
  rcases grown.owns_follow grown.owns_root path node placed.reached with ⟨new, _⟩ | same
  · exact new
  · exact absurd (same ▸ grown.aims.symm) (isShared_eq_false_iff.mp placed.own).1

theorem inside : node < trie.arena.size :=
  grown.lt_size_of_follow placed.reached

theorem sole (bytes : List UInt8) : trie.follow (some root) bytes = some node ↔ bytes = path := by
  constructor
  · intro leads
    exact grown.sole bytes path node leads placed.reached placed.own
  · rintro rfl
    exact placed.reached

end Placed

/-- Tails do not lead back to a state that the trie may change. -/
theorem Grown.follow_tailTarget_ne (grown : trie.Grown origin goal root) (placed : trie.Placed root path node)
    (present : trie.tailTarget length ≠ none) (bytes : List UInt8) :
    trie.follow (trie.tailTarget length) bytes ≠ some node := by
  intro leads
  have shared := grown.isShared_of_follow_tailTarget present leads
  rw [placed.own] at shared
  cases shared

/-! ## Leading bytes elsewhere -/

/-- Words that continue the path by a byte that was moved go on from the target. All others lead where
they did. -/
def Reroutes (root : StateId) (path : List UInt8) (moved : UInt8 → Prop) (target : Target)
    (trie changed : RuneTrie) : Prop :=
  ∀ bytes, (∃ byte rest, bytes = path ++ byte :: rest ∧ moved byte ∧
      changed.follow (some root) bytes = trie.follow target rest) ∨
    (∀ byte rest, bytes = path ++ byte :: rest → ¬ moved byte) ∧
      changed.follow (some root) bytes = trie.follow (some root) bytes

theorem Reroutes.kept {moved : UInt8 → Prop} {target : Target}
    (reroutes : Reroutes root path moved target trie after)
    (other : ∀ byte rest, bytes = path ++ byte :: rest → ¬ moved byte) :
    after.follow (some root) bytes = trie.follow (some root) bytes := by
  rcases reroutes bytes with ⟨byte, rest, same, here, _⟩ | ⟨_, stays⟩
  · exact absurd here (other byte rest same)
  · exact stays

/-- Leading bytes of a state elsewhere keeps all of the trie but the paths that continue the one to
that state. -/
theorem Grown.redirect (grown : trie.Grown origin goal root) (placed : trie.Placed root path node)
    (moved : UInt8 → Prop) {target : Target} (change : Table → Table)
    (redirects : ∀ state, trie.arena.get? node = some state →
      Redirects node moved target state (change state.table))
    (owns : trie.Owns origin goal target) (apart : ∀ bytes, trie.follow target bytes ≠ some node) :
    let changed := { trie with arena := trie.arena.modifyTable node change }
    Arena.Extends origin.size origin changed.arena ∧ changed.arena.StepsTo origin.size goal ∧
      (∀ id, id ≠ node → ∀ byte, changed.arena.stepFrom trie.goal (some id) byte =
        trie.arena.stepFrom trie.goal (some id) byte) ∧
      Reroutes root path moved target trie changed := by
  intro changed
  have sole := placed.sole grown
  have notGoal := (isShared_eq_false_iff.mp placed.own).1
  simp only [Reroutes, follow, changed, grown.aims] at sole notGoal apart ⊢
  obtain ⟨state, found⟩ := Arena.exists_get? (placed.inside grown)
  obtain ⟨extends_, steps, others, paths⟩ := grown.steps.redirect grown.extends_.formed
    (grown.extends_.lt grown.below) (placed.new grown) (fun same => notGoal (congrArg some same)) found
    change (redirects state found) owns apart sole
  exact ⟨grown.extends_.trans extends_, steps, others, paths⟩

/-! ## Adding bytes -/

/-- Behind a path the trie reads more words now. Paths that do not continue this one lead where they
did. -/
structure Adds (origin : Arena) (goal root : StateId) (path : List UInt8)
    (words : List UInt8 → Prop) (trie after : RuneTrie) : Prop where
  grown : after.Grown origin goal root
  size : trie.arena.size ≤ after.arena.size
  tails : ∀ id ∈ after.tails, id ∈ trie.tails ∨ trie.arena.size ≤ id
  kept : ∀ bytes, (∀ byte rest, bytes ≠ path ++ byte :: rest) →
    after.follow (some root) bytes = trie.follow (some root) bytes
  reads : ∀ bytes, after.follow (some root) bytes = some goal ↔
    trie.follow (some root) bytes = some goal ∨ words bytes

namespace Adds

variable {words more : List UInt8 → Prop}

theorem refl (grown : trie.Grown origin goal root) (path : List UInt8) :
    Adds origin goal root path (fun _ => False) trie trie :=
  ⟨grown, Nat.le_refl _, fun _ => Or.inl, fun _ _ => rfl, by simp⟩

theorem trans (first : Adds origin goal root path words trie middle)
    (second : Adds origin goal root path more middle after) :
    Adds origin goal root path (fun bytes => words bytes ∨ more bytes) trie after where
  grown := second.grown
  size := Nat.le_trans first.size second.size
  tails := by
    intro id listed
    rcases second.tails id listed with earlier | later
    · exact first.tails id earlier
    · exact Or.inr (Nat.le_trans first.size later)
  kept := fun bytes other => (second.kept bytes other).trans (first.kept bytes other)
  reads := fun bytes => by rw [second.reads, first.reads, or_assoc]

theorem congr (adds : Adds origin goal root path words trie after)
    (same : ∀ bytes, words bytes ↔ more bytes) : Adds origin goal root path more trie after :=
  { adds with reads := fun bytes => by rw [adds.reads, same] }

theorem trans_of_none (first : Adds origin goal root path (fun _ => False) trie middle)
    (second : Adds origin goal root path words middle after) :
    Adds origin goal root path words trie after :=
  (first.trans second).congr fun _ => or_iff_right not_false

/-- What is added behind a longer path is added behind a shorter one. -/
theorem shorten {further : List UInt8} (adds : Adds origin goal root (path ++ further) words trie after) :
    Adds origin goal root path words trie after :=
  { adds with
    kept := by
      intro bytes other
      refine adds.kept bytes fun byte rest same => ?_
      cases further with
      | nil => exact other byte rest (by simpa using same)
      | cons first more => exact other first (more ++ byte :: rest) (by simpa using same) }

theorem placed (adds : Adds origin goal root path words trie after) (grown : trie.Grown origin goal root)
    {other : List UInt8} (placed : trie.Placed root other node)
    (apart : ∀ byte rest, other ≠ path ++ byte :: rest) : after.Placed root other node where
  reached := (adds.kept other apart).trans placed.reached
  own := by
    rw [isShared_eq_false_iff]
    obtain ⟨notGoal, notTail⟩ := isShared_eq_false_iff.mp placed.own
    refine ⟨adds.grown.aims.trans grown.aims.symm ▸ notGoal, fun listed => ?_⟩
    rcases adds.tails node listed with earlier | later
    · exact notTail earlier
    · exact absurd (placed.inside grown) (Nat.not_lt.mpr later)

end Adds

/-- Where a range of bytes leads to a tail, words are read that were read before, and those that go on with
one of these bytes and have the shape that the tail completes. What was read behind these bytes before is
read still, for it has the same shape. -/
theorem Grown.follow_eq_goal_iff_of_reroutes (grown : trie.Grown origin goal root) {count : Nat}
    (present : trie.tailTarget count ≠ none) {lo hi : UInt8}
    (reroutes : Reroutes root path (fun byte => lo ≤ byte ∧ byte ≤ hi) (trie.tailTarget count) trie after)
    (opens : Utf8.Opens length path)
    (allows : ∀ byte, lo ≤ byte → byte ≤ hi → Utf8.Allows length path.length byte)
    (whole : path.length + 1 + count = length) (bytes : List UInt8) :
    after.follow (some root) bytes = some goal ↔
      trie.follow (some root) bytes = some goal ∨ ∃ byte rest, bytes = path ++ byte :: rest ∧
        lo ≤ byte ∧ byte ≤ hi ∧ Utf8.Shaped length bytes := by
  rcases reroutes bytes with ⟨byte, rest, rfl, ⟨above, most⟩, leads⟩ | ⟨stays, leads⟩
  · have allowed := allows byte above most
    rw [leads, ← grown.aims, grown.follow_tailTarget_eq_goal present,
      ← Utf8.shaped_append_cons_iff opens allowed whole]
    constructor
    · intro shaped
      exact Or.inr ⟨byte, rest, rfl, above, most, shaped⟩
    · rintro (earlier | ⟨_, _, _, _, _, shaped⟩)
      · obtain ⟨other, shaped⟩ := grown.shaped _ earlier
        exact opens.length_eq allowed shaped.opens ▸ shaped
      · exact shaped
  · rw [leads]
    refine (or_iff_left ?_).symm
    rintro ⟨byte, rest, same, above, most, _⟩
    exact stays byte rest same ⟨above, most⟩

/-- Leading a range of bytes to a tail adds what the tail reads behind them. -/
theorem Grown.setRange_adds (grown : trie.Grown origin goal root)
    (placed : trie.Placed root path node) (count : Nat) (present : trie.tailTarget count ≠ none)
    {lo hi : UInt8} (order : lo ≤ hi) (below : hi < byteCeiling) (opens : Utf8.Opens length path)
    (allows : ∀ byte, lo ≤ byte → byte ≤ hi → Utf8.Allows length path.length byte)
    (whole : path.length + 1 + count = length) :
    Adds origin goal root path (fun bytes => ∃ byte rest, bytes = path ++ byte :: rest ∧ lo ≤ byte ∧
      byte ≤ hi ∧ Utf8.Shaped length bytes) trie (trie.setRange node lo hi (trie.tailTarget count)) := by
  obtain ⟨extends_, steps, others, reroutes⟩ := grown.redirect placed
    (fun byte => lo ≤ byte ∧ byte ≤ hi) (·.overrideRange lo hi (trie.tailTarget count))
    (fun state found => .overrideRange (grown.extends_.formed.fits found) order below _)
    (grown.owns_tailTarget count) (grown.follow_tailTarget_ne placed present)
  have reads := grown.follow_eq_goal_iff_of_reroutes present reroutes opens allows whole
  have size : (trie.setRange node lo hi (trie.tailTarget count)).arena.size = trie.arena.size :=
    Arena.size_modifyTable _ _ _
  -- the tail leads to shared states only, so the paths to all others are those from before
  have earlier (bytes : List UInt8) (id : StateId) (own : trie.isShared (some id) = false)
      (leads : (trie.setRange node lo hi (trie.tailTarget count)).follow (some root) bytes = some id) :
      trie.follow (some root) bytes = some id := by
    rcases reroutes bytes with ⟨_, _, _, _, redirected⟩ | ⟨_, stays⟩
    · have shared := grown.isShared_of_follow_tailTarget present (redirected.symm.trans leads)
      exact absurd (own.symm.trans shared) Bool.false_ne_true
    · exact stays.symm.trans leads
  refine ⟨⟨extends_, grown.aims, grown.below, grown.new, size.symm ▸ grown.inside, grown.apart, steps,
    fun place id listed => ?_, fun first second id leads again own => ?_, fun bytes read => ?_⟩,
    ge_of_eq size, fun _ => Or.inl, fun bytes other => ?_, reads⟩
  · obtain ⟨new, inside, leads⟩ := grown.tails place id listed
    have different : id ≠ node := fun same =>
      (isShared_eq_false_iff.mp placed.own).2 (same ▸ List.mem_of_getElem? listed)
    exact ⟨new, size.symm ▸ inside, fun byte => (others id different byte).trans (leads byte)⟩
  · exact grown.sole first second id (earlier first id own leads) (earlier second id own again) own
  · rcases (reads bytes).mp (read.trans grown.aims) with earlier | ⟨_, _, _, _, _, shaped⟩
    · exact grown.shaped bytes (earlier.trans grown.aims.symm)
    · exact ⟨length, shaped⟩
  · exact reroutes.kept fun byte rest same => absurd same (other byte rest)

/-! ## New states -/

/-- Where all old states move as before, paths stay. -/
theorem Grown.follow_eq_of_agrees (grown : trie.Grown origin goal root) {arena : Arena}
    (agrees : ∀ id < trie.arena.size, ∀ byte, arena.stepFrom trie.goal (some id) byte =
      trie.arena.stepFrom trie.goal (some id) byte) {target : Target}
    (owns : trie.Owns origin goal target) (bytes : List UInt8) :
    arena.follow trie.goal target bytes = trie.follow target bytes := by
  rw [follow]
  rw [grown.aims] at agrees ⊢
  exact grown.steps.follow_eq_of_agrees grown.extends_.formed agrees owns bytes

/-- A new state changes nothing as long as no state leads to it. -/
theorem Grown.pushTable_adds (grown : trie.Grown origin goal root) {table : Table}
    (fits : State.Fits (trie.arena.size + 1) { table }) (only : State.StepsOnly { table })
    (leads : ∀ next, some next ∈ table.steps → origin.size ≤ next ∨ some next = some goal)
    (path : List UInt8) :
    let pushed := { trie with arena := (trie.arena.pushTable table).1 }
    Adds origin goal root path (fun _ => False) trie pushed ∧
      (∀ id < trie.arena.size, ∀ byte, pushed.arena.stepFrom trie.goal (some id) byte =
        trie.arena.stepFrom trie.goal (some id) byte) ∧
      pushed.arena.get? trie.arena.size = some { table } := by
  intro pushed
  have extends_ := grown.extends_.formed.extends_push fits
  have agrees (id : StateId) (inside : id < trie.arena.size) (byte : UInt8) :=
    trie.arena.stepFrom_pushTable trie.goal table inside byte
  have same (bytes : List UInt8) : pushed.follow (some root) bytes = trie.follow (some root) bytes :=
    grown.follow_eq_of_agrees agrees grown.owns_root bytes
  refine ⟨⟨⟨grown.extends_.trans (extends_.mono grown.extends_.size), grown.aims, grown.below, grown.new,
    extends_.lt grown.inside, grown.apart, grown.steps.pushTable only leads, ?_, ?_, ?_⟩,
    extends_.size, fun _ => Or.inl, fun bytes _ => same bytes, ?_⟩, agrees, Arena.get?_push_self _⟩
  · intro place id listed
    obtain ⟨new, inside, leads⟩ := grown.tails place id listed
    exact ⟨new, extends_.lt inside, fun byte => (agrees id inside byte).trans (leads byte)⟩
  · intro first second id leads again own
    exact grown.sole first second id ((same first).symm.trans leads) ((same second).symm.trans again) own
  · intro bytes reads
    exact grown.shaped bytes ((same bytes).symm.trans reads)
  · intro bytes
    rw [same, or_false]

/-! ## Tails -/

/-- Reads a continuation byte and then goes on. -/
def tailTable (below : Target) : Table :=
  Table.empty.overrideRange leastContinuation greatestContinuation below

/-- The trie with one more tail. -/
def withTail (trie : RuneTrie) (below : Target) : RuneTrie where
  arena := (trie.arena.pushTable (tailTable below)).1
  goal := trie.goal
  tails := trie.tails ++ [trie.arena.size]

theorem modifyTable_pushEmpty (arena : Arena) (change : Table → Table) :
    arena.pushEmpty.1.modifyTable arena.size change = (arena.pushTable (change Table.empty)).1 := by
  apply Arena.ext_get?
  intro id
  unfold Arena.pushEmpty Arena.pushTable
  rw [Arena.get?_modifyTable, Arena.get?_push, Arena.get?_push]
  by_cases last : arena.size = id
  · subst last
    simp
  · simp [last, Ne.symm last]

theorem tail_eq_of_known {count : Nat} {id : StateId} (known : trie.tails[count]? = some id) :
    trie.tail (count + 1) = (trie, some id) := by
  rw [tail, known]

theorem tail_eq_of_unknown {count : Nat} {below : Target} (unknown : trie.tails[count]? = none)
    (shorter : trie.tail count = (middle, below)) :
    trie.tail (count + 1) = (middle.withTail below, some middle.arena.size) := by
  rw [tail, unknown, shorter]
  have built := modifyTable_pushEmpty middle.arena
    (·.overrideRange leastContinuation greatestContinuation below)
  exact congrArg (fun arena => (RuneTrie.mk arena middle.goal (middle.tails ++ [middle.arena.size]),
    some middle.arena.size)) built

theorem tailTarget_withTail {below : Target} {count : Nat} (inside : count ≤ trie.tails.length) :
    (trie.withTail below).tailTarget count = trie.tailTarget count := by
  cases count with
  | zero => rfl
  | succ place => exact List.getElem?_append_left inside

theorem lookup_tailTable (below : Target) (byte : UInt8) :
    (tailTable below).lookup byte = if Utf8.IsContinuation byte then below else none := by
  rw [tailTable, Table.lookup_overrideRange Table.wellFormed_empty below (by decide) (by decide),
    Table.lookup_empty]
  rfl

theorem Grown.withTail_adds (grown : trie.Grown origin goal root) (path : List UInt8) :
    Adds origin goal root path (fun _ => False) trie
      (trie.withTail (trie.tailTarget trie.tails.length)) := by
  have owns := grown.owns_tailTarget trie.tails.length
  have fits : State.Fits (trie.arena.size + 1)
      { table := tailTable (trie.tailTarget trie.tails.length) } := by
    apply (State.Fits.of_idle (trie.arena.size + 1) []).overrideRange (by decide) (by decide)
    intro id same
    rcases owns id same with ⟨_, inside⟩ | here
    · exact Nat.lt_succ_of_lt inside
    · exact Nat.lt_succ_of_lt (here ▸ grown.extends_.lt grown.below)
  have leads (next : StateId)
      (listed : some next ∈ (tailTable (trie.tailTarget trie.tails.length)).steps) :
      origin.size ≤ next ∨ some next = some goal := by
    rcases Table.mem_steps_overrideRange Table.wellFormed_empty _ _ _ listed with here | nowhere
    · exact (owns next here.symm).imp (fun later => later.1) (congrArg some)
    · simp [Table.empty, Table.always] at nowhere
  obtain ⟨pushed, _, stored⟩ := grown.pushTable_adds fits ⟨rfl, rfl, rfl⟩ leads path
  have wide := pushed.grown
  have new : origin.size ≤ trie.arena.size := grown.extends_.size
  have bound := Arena.lt_size_of_get? stored
  refine ⟨⟨wide.extends_, grown.aims, grown.below, grown.new, wide.inside, ?_, wide.steps, ?_, ?_,
    wide.shaped⟩, pushed.size, ?_, pushed.kept, pushed.reads⟩
  · intro listed
    rcases List.mem_append.mp listed with earlier | here
    · exact grown.apart earlier
    · exact Nat.ne_of_lt grown.inside (List.mem_singleton.mp here)
  · intro place id listed
    rcases getElem?_concat_eq_some_iff.mp listed with known | ⟨rfl, rfl⟩
    · rw [tailTarget_withTail (le_of_lt (List.getElem?_eq_some_iff.mp known).1)]
      exact wide.tails place id known
    · refine ⟨new, bound, fun byte => ?_⟩
      rw [tailTarget_withTail (Nat.le_refl _)]
      exact (Arena.stepFrom_of_get? grown.size_ne_goal stored byte).trans (lookup_tailTable _ byte)
  · intro first second id leads again own
    obtain ⟨notGoal, notTail⟩ := isShared_eq_false_iff.mp own
    exact wide.sole first second id leads again
      (isShared_eq_false_iff.mpr ⟨notGoal, fun listed => notTail (List.mem_append_left _ listed)⟩)
  · intro id listed
    rcases List.mem_append.mp listed with earlier | here
    · exact Or.inl earlier
    · exact Or.inr (ge_of_eq (List.mem_singleton.mp here))

/-- The tails that are missing are added. -/
theorem Grown.tail_adds (grown : trie.Grown origin goal root) (count : Nat) (path : List UInt8) :
    Adds origin goal root path (fun _ => False) trie (trie.tail count).1 ∧
      (trie.tail count).2 = (trie.tail count).1.tailTarget count ∧
      (trie.tail count).1.tailTarget count ≠ none ∧
      (trie.tail count).1.tails.length = max trie.tails.length count := by
  induction count with
  | zero => exact ⟨.refl grown path, rfl, grown.goal_ne_none, (Nat.max_zero _).symm⟩
  | succ count ih =>
    cases known : trie.tails[count]? with
    | some id =>
      have bound : count < trie.tails.length := (List.getElem?_eq_some_iff.mp known).1
      have present : trie.tailTarget (count + 1) = some id := known
      rw [tail_eq_of_known known]
      exact ⟨.refl grown path, present.symm, present ▸ Option.some_ne_none id,
        (Nat.max_eq_left bound).symm⟩
    | none =>
      obtain ⟨before, leads, present, size⟩ := ih
      cases shorter : trie.tail count with
      | mk middle below =>
        rw [shorter] at before leads present size
        rw [tail_eq_of_unknown known shorter]
        rw [Nat.max_eq_right (List.getElem?_eq_none_iff.mp known)] at size
        dsimp only at leads present size before ⊢
        subst size leads
        have added := before.grown.withTail_adds path
        have last : (middle.withTail (middle.tailTarget middle.tails.length)).tailTarget
            (middle.tails.length + 1) = some middle.arena.size := by
          simp [tailTarget, withTail]
        refine ⟨(before.trans added).congr (by simp), last.symm, last ▸ Option.some_ne_none _, ?_⟩
        have absent : trie.tails.length ≤ middle.tails.length := List.getElem?_eq_none_iff.mp known
        simp only [withTail, List.length_append, List.length_singleton]
        omega

/-! ## Children -/

/-- The trie with a new state behind `node` that `byte` leads to. -/
def withChild (trie : RuneTrie) (node : StateId) (byte : UInt8) (table : Table) : RuneTrie :=
  { trie with arena :=
      (trie.arena.pushTable table).1.modifyTable node (·.override byte (some trie.arena.size)) }

/-- A table that can take the place of what `byte` leads to: it moves as the state there does, or nowhere if
there is none, and behind it stand shared states only. -/
structure Replaces (origin : Arena) (goal root : StateId) (trie : RuneTrie) (path : List UInt8) (node : StateId)
    (byte : UInt8) (table : Table) : Prop where
  fits : State.Fits (trie.arena.size + 1) { table }
  only : State.StepsOnly { table }
  leads : ∀ next, some next ∈ table.steps → origin.size ≤ next ∨ some next = some goal
  shared : ∀ rest id, trie.follow (some root) (path ++ byte :: rest) = some id → trie.isShared (some id) = true
  same : ∀ next, table.lookup next =
    trie.arena.stepFrom trie.goal (trie.arena.stepFrom trie.goal (some node) byte) next

/-- Paths go on behind the new state as they did behind what it replaces. -/
theorem Grown.follow_replacement (grown : trie.Grown origin goal root) (placed : trie.Placed root path node)
    {byte : UInt8} {table : Table} (replaces : Replaces origin goal root trie path node byte table)
    (next : UInt8) (rest : List UInt8) :
    RuneTrie.follow { trie with arena := (trie.arena.pushTable table).1 } (some trie.arena.size) (next :: rest) =
      trie.follow (some root) (path ++ byte :: next :: rest) := by
  obtain ⟨_, agrees, stored⟩ := grown.pushTable_adds replaces.fits replaces.only replaces.leads path
  have ownsNode : trie.Owns origin goal (some node) :=
    fun id here => Option.some.inj here ▸ Or.inl ⟨placed.new grown, placed.inside grown⟩
  have owns := grown.owns_stepFrom (grown.owns_stepFrom ownsNode byte) next
  have reached := placed.reached
  rw [follow] at reached
  rw [follow, follow, Arena.follow_append, Arena.follow_cons, reached, Arena.follow_cons, Arena.follow_cons,
    Arena.stepFrom_of_get? grown.size_ne_goal stored, replaces.same next]
  exact grown.follow_eq_of_agrees agrees owns rest

/-- With the new state in its place, all paths lead where they did, save the one to it. -/
theorem Grown.withChild_redirects (grown : trie.Grown origin goal root)
    (placed : trie.Placed root path node) {byte : UInt8} (below : byte < byteCeiling) {table : Table}
    (replaces : Replaces origin goal root trie path node byte table) :
    Arena.Extends origin.size origin (trie.withChild node byte table).arena ∧
      (trie.withChild node byte table).arena.StepsTo origin.size goal ∧
      (∀ id, id ≠ node → ∀ next, (trie.withChild node byte table).arena.stepFrom trie.goal (some id) next =
        (trie.arena.pushTable table).1.stepFrom trie.goal (some id) next) ∧
      ∀ bytes, (trie.withChild node byte table).follow (some root) bytes =
        if bytes = path ++ [byte] then some trie.arena.size else trie.follow (some root) bytes := by
  obtain ⟨pushed, agrees, stored⟩ := grown.pushTable_adds replaces.fits replaces.only replaces.leads path
  have behind := grown.follow_replacement placed replaces
  have apart (bytes : List UInt8) :
      RuneTrie.follow { trie with arena := (trie.arena.pushTable table).1 } (some trie.arena.size)
        bytes ≠ some node := by
    intro back
    cases bytes with
    | nil => exact Nat.ne_of_gt (placed.inside grown) (Option.some.inj back)
    | cons next rest =>
      have ended := replaces.shared (next :: rest) node ((behind next rest).symm.trans back)
      exact absurd (placed.own.symm.trans ended) Bool.false_ne_true
  obtain ⟨extends_, steps, others, reroutes⟩ := pushed.grown.redirect (pushed.placed grown placed (by simp))
    (· = byte) (·.override byte (some trie.arena.size))
    (fun state found => .override (pushed.grown.extends_.formed.fits found) below _)
    (fun id here => Option.some.inj here ▸ Or.inl ⟨grown.extends_.size, Arena.lt_size_of_get? stored⟩) apart
  refine ⟨extends_, steps, others, fun bytes => ?_⟩
  rcases reroutes bytes with ⟨_, rest, rfl, rfl, leads⟩ | ⟨stays, leads⟩
  · cases rest with
    | nil => exact leads.trans (if_pos rfl).symm
    | cons next rest => exact (leads.trans (behind next rest)).trans (if_neg (by simp)).symm
  · rw [if_neg fun same => stays byte [] same rfl]
    exact leads.trans (grown.follow_eq_of_agrees agrees grown.owns_root bytes)

/-- A new state that moves as a tail, or nowhere, takes the place of what `byte` leads to. -/
theorem Grown.withChild_adds (grown : trie.Grown origin goal root)
    (placed : trie.Placed root path node) {byte : UInt8} (below : byte < byteCeiling)
    (unread : trie.follow (some root) (path ++ [byte]) ≠ some goal) {table : Table}
    (replaces : Replaces origin goal root trie path node byte table) :
    Adds origin goal root path (fun _ => False) trie (trie.withChild node byte table) ∧
      (trie.withChild node byte table).Placed root (path ++ [byte]) trie.arena.size := by
  obtain ⟨pushed, _, _⟩ := grown.pushTable_adds replaces.fits replaces.only replaces.leads path
  obtain ⟨extends_, steps, others, paths⟩ := grown.withChild_redirects placed below replaces
  have wide := pushed.grown
  have size : (trie.withChild node byte table).arena.size = (trie.arena.pushTable table).1.size :=
    Arena.size_modifyTable _ _ _
  have freshNotTail : trie.arena.size ∉ trie.tails := by
    intro listed
    obtain ⟨place, there⟩ := List.mem_iff_getElem?.mp listed
    exact Nat.lt_irrefl _ (grown.tails place _ there).2.1
  have reads (bytes : List UInt8) :
      (trie.withChild node byte table).follow (some root) bytes = some goal ↔
        trie.follow (some root) bytes = some goal := by
    rw [paths]
    split
    · rename_i same
      exact iff_of_false (grown.aims ▸ grown.size_ne_goal) (same ▸ unread)
    · rfl
  refine ⟨⟨⟨extends_, grown.aims, grown.below, grown.new, size.symm ▸ wide.inside, grown.apart, steps,
    fun place id listed => ?_, fun first second id leads again own => ?_, fun bytes read => ?_⟩,
    size.symm ▸ pushed.size, fun _ => Or.inl, fun bytes other => ?_, fun bytes => ?_⟩, ?_, ?_⟩
  · obtain ⟨newTail, inside, leads⟩ := wide.tails place id listed
    have different : id ≠ node := fun same =>
      (isShared_eq_false_iff.mp placed.own).2 (same ▸ List.mem_of_getElem? listed)
    exact ⟨newTail, size.symm ▸ inside, fun next => (others id different next).trans (leads next)⟩
  · -- what was reached before lies below the new state
    have old {bytes : List UInt8} (leads : trie.follow (some root) bytes = some trie.arena.size) : False :=
      Nat.lt_irrefl _ (grown.lt_size_of_follow leads)
    rw [paths] at leads again
    split at leads <;> split at again
    · simp [*]
    · exact (old (again.trans leads.symm)).elim
    · exact (old (leads.trans again.symm)).elim
    · exact grown.sole first second id leads again own
  · exact grown.shaped bytes (((reads bytes).mp (read.trans grown.aims)).trans grown.aims.symm)
  · rw [paths, if_neg (other byte [])]
  · rw [reads, or_false]
  · rw [paths, if_pos rfl]
  · exact isShared_eq_false_iff.mpr ⟨grown.size_ne_goal, freshNotTail⟩

theorem child_eq (trie : RuneTrie) (node : StateId) (byte : UInt8) :
    trie.child node byte =
      match (trie.arena.get? node).bind (·.table.lookup byte) with
      | none => (trie.withChild node byte Table.empty, trie.arena.size)
      | some existing =>
        if trie.isShared (some existing) then
          (trie.withChild node byte ((trie.arena.get? existing).getD {}).table, trie.arena.size)
        else (trie, existing) :=
  rfl

/-- A child is there to be changed: it was or is a copy of what was shared. -/
theorem Grown.child_adds (grown : trie.Grown origin goal root) (placed : trie.Placed root path node)
    {byte : UInt8} (below : byte < byteCeiling)
    (unread : trie.follow (some root) (path ++ [byte]) ≠ some goal) :
    Adds origin goal root path (fun _ => False) trie (trie.child node byte).1 ∧
      (trie.child node byte).1.Placed root (path ++ [byte]) (trie.child node byte).2 := by
  obtain ⟨state, found⟩ := Arena.exists_get? (placed.inside grown)
  have led : trie.arena.stepFrom trie.goal (some node) byte = state.table.lookup byte :=
    Arena.stepFrom_of_get? (isShared_eq_false_iff.mp placed.own).1 found byte
  have leads (rest : List UInt8) :
      trie.follow (some root) (path ++ byte :: rest) = trie.follow (state.table.lookup byte) rest := by
    have reached := placed.reached
    rw [follow] at reached
    rw [follow, Arena.follow_append, reached, Arena.follow_cons, led]
    rfl
  rw [child_eq, found, Option.bind_some]
  cases lookup : state.table.lookup byte with
  | none =>
    refine grown.withChild_adds placed below unread ⟨.of_idle _ [], ⟨rfl, rfl, rfl⟩,
      by simp [Table.empty, Table.always], ?_, ?_⟩
    · intro rest id reads
      rw [leads, lookup, follow, Arena.follow_none] at reads
      cases reads
    · intro next
      rw [led, lookup, Arena.stepFrom_none, Table.lookup_empty]
  | some existing =>
    cases shared : trie.isShared (some existing) with
    | false =>
      simp only [shared, Bool.false_eq_true, ↓reduceIte]
      exact ⟨.refl grown path, (leads []).trans lookup, shared⟩
    | true =>
      simp only [shared, ↓reduceIte]
      have notGoal : some existing ≠ trie.goal := by
        intro same
        exact unread ((leads []).trans (lookup.trans (same.trans grown.aims)))
      obtain ⟨place, listed⟩ : ∃ place, trie.tails[place]? = some existing := by
        apply List.mem_iff_getElem?.mp
        by_contra absent
        rw [isShared_eq_false_iff.mpr ⟨notGoal, absent⟩] at shared
        cases shared
      obtain ⟨new, inside, _⟩ := grown.tails place existing listed
      obtain ⟨original, stored⟩ := Arena.exists_get? inside
      have present : trie.tailTarget (place + 1) = some existing := listed
      rw [stored, Option.getD_some]
      have fits := (grown.extends_.formed.fits stored).mono (Nat.le_succ _)
      have only := grown.steps.only existing original new stored
      refine grown.withChild_adds placed below unread
        ⟨⟨fits.table, fits.steps, fits.spinout, fits.epsilons⟩, ⟨only.epsilons, only.spinout, rfl⟩,
          grown.steps.leads existing original new stored, ?_, ?_⟩
      · intro rest id reads
        rw [leads, lookup, ← present] at reads
        exact grown.isShared_of_follow_tailTarget (present ▸ Option.some_ne_none existing) reads
      · intro next
        rw [led, lookup, Arena.stepFrom_of_get? notGoal stored]

end ByteAutomata.RuneTrie
