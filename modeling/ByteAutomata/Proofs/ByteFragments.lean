import ByteAutomata.Fragment.Complement
import ByteAutomata.Fragment.Glob
import ByteAutomata.Proofs.Growth
import ByteAutomata.Proofs.Relocation

/-!
Fragments for byte patterns.

Each builder extends the arena by states of its own, and behind another arena it builds the same.
-/

namespace ByteAutomata.Arena

variable {arena base : Arena} {next : Target}

/-! ## Texts -/

theorem pushChain_cons (arena : Arena) (byte : UInt8) (rest : List UInt8) (last : StateId) :
    arena.pushChain (byte :: rest) last =
      (arena.pushChain rest last).1.pushTable (.single byte (some (arena.pushChain rest last).2)) :=
  rfl

theorem pushChain_grows (formed : arena.WellFormed) (bytes : List UInt8) {last : StateId}
    (inside : last < arena.size) : arena.Grows (arena.pushChain bytes last) := by
  induction bytes with
  | nil => exact ⟨.refl _ formed, inside⟩
  | cons byte rest ih =>
    have step := ih.extends_.formed.grows_pushTable
      (State.Fits.of_single byte fun id leads => Option.some.inj leads ▸ Nat.lt_succ_of_lt ih.entry)
    rw [pushChain_cons]
    exact ⟨ih.extends_.append step.extends_, step.entry⟩

theorem pushChain_above (base arena : Arena) (bytes : List UInt8) (last : StateId) :
    (base.above arena).pushChain bytes (base.size + last) =
      base.raised (arena.pushChain bytes last) := by
  induction bytes with
  | nil => rfl
  | cons byte rest ih =>
    rw [pushChain_cons, ih, pushChain_cons]
    change (base.above _).pushTable (.single byte (Target.raise base.size (some _))) = _
    rw [Table.single_raise, pushTable_above]

theorem pushExact_grows (formed : arena.WellFormed) (bytes : List UInt8)
    (inside : arena.TargetWithin next) : arena.Grows (arena.pushExact bytes next) := by
  have first := formed.grows_pushTable
    (State.Fits.of_single valueTerminator fun id leads => Nat.lt_succ_of_lt (inside id leads))
  have chain := pushChain_grows first.extends_.formed bytes first.entry
  exact ⟨first.extends_.append chain.extends_, chain.entry⟩

theorem pushExact_above (base arena : Arena) (bytes : List UInt8) (next : Target) :
    (base.above arena).pushExact bytes (next.raise base.size) =
      base.raised (arena.pushExact bytes next) := by
  unfold pushExact
  rw [Table.single_raise, pushTable_above]
  exact pushChain_above base _ bytes _

theorem WellFormed.grows_always (formed : arena.WellFormed) (inside : arena.TargetWithin next) :
    arena.Grows (arena.pushTable (.always next)) :=
  formed.grows_pushTable (State.Fits.of_always fun id leads => Nat.lt_succ_of_lt (inside id leads))

theorem pushLeading_grows (formed : arena.WellFormed) (bytes : List UInt8)
    (inside : arena.TargetWithin next) : arena.Grows (arena.pushLeading bytes next) := by
  have first := formed.grows_always inside
  have chain := pushChain_grows first.extends_.formed bytes first.entry
  exact ⟨first.extends_.append chain.extends_, chain.entry⟩

theorem pushLeading_above (base arena : Arena) (bytes : List UInt8) (next : Target) :
    (base.above arena).pushLeading bytes (next.raise base.size) =
      base.raised (arena.pushLeading bytes next) := by
  unfold pushLeading
  rw [← Table.raise_always, pushTable_above]
  exact pushChain_above base _ bytes _

/-! ## Globs -/

/-- A byte step to a new state that waits. -/
theorem WellFormed.extends_stepped {kept current : StateId} (formed : arena.WellFormed) (new : kept ≤ current)
    (inside : current < arena.size) (byte : UInt8) :
    let stepped := arena.pushEmpty.1.modifyTable current (·.override byte (some arena.size))
    Extends kept arena stepped ∧ arena.size < stepped.size ∧ stepped.get? arena.size = some {} := by
  have pushed := formed.grows_pushEmpty
  have modified := pushed.extends_.formed.extends_modify new (·.override byte (some arena.size))
    fun state found => (pushed.extends_.formed.fits found).override byte (targetWithin_some pushed.entry)
  exact ⟨(pushed.extends_.mono (le_trans new (le_of_lt inside))).trans modified, modified.lt pushed.entry,
    (get?_modifyTable_of_ne _ _ (Nat.ne_of_lt inside)).trans (get?_push_self _)⟩

theorem fillGlob_extends {kept current : StateId} (formed : arena.WellFormed) (new : kept ≤ current)
    (inside : current < arena.size) (leads : arena.TargetWithin next) (tokens : List GlobToken) :
    Extends kept arena (arena.fillGlob current next tokens) := by
  induction tokens generalizing arena current with
  | nil =>
    exact formed.extends_modify new _ fun state found => (formed.fits found).override _ leads
  | cons token rest ih =>
    cases token with
    | literal byte =>
      obtain ⟨grown, fresh, _⟩ := formed.extends_stepped new inside byte
      exact grown.trans (ih grown.formed (le_trans new (le_of_lt inside)) fresh (grown.within leads))
    | any =>
      by_cases closes : rest = [.literal GlobToken.quote]
      · rw [fillGlob, if_pos closes]
        exact formed.extends_modify new _ fun state found => (formed.fits found).setDefault leads
      · rw [fillGlob, if_neg closes]
        have spun : Extends kept arena (arena.setSpinout current (some current)) :=
          formed.extends_modify new _ fun state found => (formed.fits found).setSpinout
            (targetWithin_some inside)
        exact spun.trans (ih spun.formed new (spun.lt inside) (spun.within leads))

theorem fillGlob_above (base arena : Arena) (current : StateId) (next : Target)
    (tokens : List GlobToken) :
    (base.above arena).fillGlob (base.size + current) (next.raise base.size) tokens =
      base.above (arena.fillGlob current next tokens) := by
  induction tokens generalizing arena current with
  | nil => exact modifyTable_above base arena current fun table => Table.override_raise table _ _
  | cons token rest ih =>
    cases token with
    | literal byte =>
      simp only [fillGlob, pushEmpty_above, raised]
      rw [modifyTable_above base _ current fun table => Table.override_raise table byte (some _), ih]
    | any =>
      by_cases closes : rest = [.literal GlobToken.quote]
      · rw [fillGlob, fillGlob, if_pos closes, if_pos closes]
        exact modifyTable_above base arena current fun _ => rfl
      · rw [fillGlob, fillGlob, if_neg closes, if_neg closes, ← ih]
        exact congrArg
          (fun arena : Arena => arena.fillGlob (base.size + current) (next.raise base.size) rest)
          (setSpinout_above base arena current (some current))

theorem pushGlob_grows (formed : arena.WellFormed) (tokens : List GlobToken)
    (inside : arena.TargetWithin next) : arena.Grows (arena.pushGlob tokens next) := by
  have pushed := formed.grows_pushEmpty
  have filled := fillGlob_extends pushed.extends_.formed (Nat.le_refl arena.size) pushed.entry
    (pushed.extends_.within inside) tokens
  exact ⟨pushed.extends_.trans filled, filled.lt pushed.entry⟩

theorem pushGlob_above (base arena : Arena) (tokens : List GlobToken) (next : Target) :
    (base.above arena).pushGlob tokens (next.raise base.size) =
      base.raised (arena.pushGlob tokens next) := by
  unfold pushGlob
  rw [pushEmpty_above]
  exact congrArg (·, base.size + arena.size) (fillGlob_above base _ arena.size next tokens)

/-! ## Anything but -/

/-- Adds the child for one first byte to an arena and to the children made so far. -/
def addChild (next : Target) (depth : Nat) (built : Arena × List (UInt8 × Target))
    (group : UInt8 × List (List UInt8)) : Arena × List (UInt8 × Target) :=
  let longer := group.2.filter (!·.isEmpty)
  let made :=
    if longer.isEmpty then built.1.pushTable (.always next)
    else pushExcluding next depth built.1 longer
  let marked :=
    if group.2.contains [] then made.1.modifyTable made.2 (·.override valueTerminator none)
    else made.1
  (marked, (group.1, some made.2) :: built.2)

theorem pushExcluding_succ (next : Target) (depth : Nat) (arena : Arena)
    (values : List (List UInt8)) :
    pushExcluding next (depth + 1) arena values =
      let built := (groupByFirst values).foldl (addChild next depth) (arena, [])
      built.1.pushTable (.mapping next built.2) :=
  rfl

/-- Lets no value end at the entry if that is asked for. -/
def closeEnd (closes : Bool) (made : Arena × StateId) : Arena × StateId :=
  (if closes then made.1.modifyTable made.2 (·.override valueTerminator none) else made.1, made.2)

/-- The child for what remains of the values behind one first byte. -/
def pushChild (next : Target) (depth : Nat) (arena : Arena) (rests : List (List UInt8)) :
    Arena × StateId :=
  closeEnd (rests.contains [])
    (if (rests.filter (!·.isEmpty)).isEmpty then arena.pushTable (.always next)
      else pushExcluding next depth arena (rests.filter (!·.isEmpty)))

theorem addChild_eq (next : Target) (depth : Nat) (built : Arena × List (UInt8 × Target))
    (group : UInt8 × List (List UInt8)) :
    addChild next depth built group =
      ((pushChild next depth built.1 group.2).1,
        (group.1, some (pushChild next depth built.1 group.2).2) :: built.2) :=
  rfl

theorem Grows.closeEnd {made : Arena × StateId} (grows : arena.Grows made) (new : arena.size ≤ made.2)
    (closes : Bool) : arena.Grows (closeEnd closes made) := by
  have formed := grows.extends_.formed
  cases closes with
  | false => exact grows
  | true =>
    have closed : Extends arena.size made.1 (made.1.modifyTable made.2 (·.override valueTerminator none)) :=
      formed.extends_modify new _ fun state found => (formed.fits found).override valueTerminator (by simp)
    exact ⟨grows.extends_.trans closed, closed.lt grows.entry⟩

theorem pushChild_grows (formed : arena.WellFormed) (inside : arena.TargetWithin next) {depth : Nat}
    (deeper : ∀ values, arena.Grows (pushExcluding next depth arena values) ∧
      arena.size ≤ (pushExcluding next depth arena values).2) (rests : List (List UInt8)) :
    arena.Grows (pushChild next depth arena rests) := by
  unfold pushChild
  by_cases none_ : (rests.filter (!·.isEmpty)).isEmpty
  · rw [if_pos none_]
    exact (formed.grows_always inside).closeEnd (Nat.le_refl _) _
  · rw [if_neg none_]
    exact (deeper _).1.closeEnd (deeper _).2 _

theorem WellFormed.grows_mapping (formed : arena.WellFormed) (inside : arena.TargetWithin next)
    {children : List (UInt8 × Target)} (known : ∀ child ∈ children, ∃ id < arena.size, child.2 = some id) :
    arena.Grows (arena.pushTable (.mapping next children)) := by
  refine formed.grows_pushTable (State.Fits.of_mapping fun id leads => ?_)
  rcases leads with here | listed
  · exact Nat.lt_succ_of_lt (inside id here.symm)
  · obtain ⟨child, member, same⟩ := List.mem_map.mp listed
    obtain ⟨other, below, named⟩ := known child member
    rw [named, Option.some.injEq] at same
    exact same ▸ Nat.lt_succ_of_lt below

/-- The entry is a new state, so its table may still be changed. -/
theorem pushExcluding_grows (formed : arena.WellFormed) (inside : arena.TargetWithin next)
    (depth : Nat) (values : List (List UInt8)) :
    arena.Grows (pushExcluding next depth arena values) ∧
      arena.size ≤ (pushExcluding next depth arena values).2 := by
  induction depth generalizing arena values with
  | zero => exact ⟨formed.grows_always inside, Nat.le_refl _⟩
  | succ depth ih =>
    -- the children made so far are states of the grown arena
    let Built (built : Arena × List (UInt8 × Target)) : Prop :=
      Extends arena.size arena built.1 ∧ ∀ entry ∈ built.2, ∃ id < built.1.size, entry.2 = some id
    have step (built : Arena × List (UInt8 × Target)) (group : UInt8 × List (List UInt8))
        (before : Built built) : Built (addChild next depth built group) := by
      obtain ⟨extends_, known⟩ := before
      have leads := extends_.within inside
      have child := pushChild_grows extends_.formed leads (ih extends_.formed leads) group.2
      rw [addChild_eq]
      refine ⟨extends_.append child.extends_, fun entry listed => ?_⟩
      rcases List.mem_cons.mp listed with here | earlier
      · exact ⟨_, child.entry, here ▸ rfl⟩
      · obtain ⟨other, below, same⟩ := known entry earlier
        exact ⟨other, child.extends_.lt below, same⟩
    have children : Built ((groupByFirst values).foldl (addChild next depth) (arena, [])) :=
      List.foldlRecOn _ _ ⟨.refl _ formed, by simp⟩ fun built before group _ =>
        step built group before
    rw [pushExcluding_succ]
    obtain ⟨extends_, known⟩ := children
    generalize (groupByFirst values).foldl (addChild next depth) (arena, []) = built at extends_ known
    have pushed := extends_.formed.grows_mapping (extends_.within inside) known
    exact ⟨⟨extends_.append pushed.extends_, pushed.entry⟩, extends_.size⟩

theorem closeEnd_above (base : Arena) (closes : Bool) (made : Arena × StateId) :
    closeEnd closes (base.raised made) = base.raised (closeEnd closes made) := by
  cases closes with
  | false => rfl
  | true =>
    have closed : (base.above made.1).modifyTable (base.size + made.2) (·.override valueTerminator none) =
        base.above (made.1.modifyTable made.2 (·.override valueTerminator none)) :=
      modifyTable_above base _ _ fun table => Table.override_raise table valueTerminator none
    exact congrArg (·, base.size + made.2) closed

theorem pushChild_above (base arena : Arena) (next : Target) {depth : Nat}
    (deeper : ∀ values, pushExcluding (next.raise base.size) depth (base.above arena) values =
      base.raised (pushExcluding next depth arena values)) (rests : List (List UInt8)) :
    pushChild (next.raise base.size) depth (base.above arena) rests = base.raised (pushChild next depth arena rests) := by
  unfold pushChild
  rw [← closeEnd_above]
  by_cases none_ : (rests.filter (!·.isEmpty)).isEmpty
  · rw [if_pos none_, if_pos none_, ← Table.raise_always, pushTable_above]
  · rw [if_neg none_, if_neg none_, deeper]

theorem pushExcluding_above (base arena : Arena) (next : Target) (depth : Nat)
    (values : List (List UInt8)) :
    pushExcluding (next.raise base.size) depth (base.above arena) values =
      base.raised (pushExcluding next depth arena values) := by
  induction depth generalizing arena values with
  | zero =>
    rw [pushExcluding, pushExcluding, ← Table.raise_always, pushTable_above]
  | succ depth ih =>
    let lift (built : Arena × List (UInt8 × Target)) : Arena × List (UInt8 × Target) :=
      (base.above built.1, built.2.map fun entry => (entry.1, entry.2.raise base.size))
    have step (built : Arena × List (UInt8 × Target)) (group : UInt8 × List (List UInt8)) :
        addChild (next.raise base.size) depth (lift built) group =
          lift (addChild next depth built group) := by
      rw [addChild_eq, addChild_eq, pushChild_above base built.1 next (ih built.1)]
      rfl
    have folded : (groupByFirst values).foldl (addChild (next.raise base.size) depth)
        (lift (arena, [])) = lift ((groupByFirst values).foldl (addChild next depth) (arena, [])) :=
      List.foldl_hom lift step
    rw [pushExcluding_succ, pushExcluding_succ]
    change (fun built : Arena × List (UInt8 × Target) =>
        built.1.pushTable (.mapping (next.raise base.size) built.2))
      ((groupByFirst values).foldl (addChild (next.raise base.size) depth) (lift (arena, []))) = _
    rw [folded]
    simp only [lift, Table.mapping_raise, pushTable_above]

theorem pushComplement_grows (formed : arena.WellFormed) (excluded : List (List UInt8))
    (inside : arena.TargetWithin next) : arena.Grows (arena.pushComplement excluded next) :=
  (pushExcluding_grows formed inside _ _).1

theorem pushComplement_above (base arena : Arena) (excluded : List (List UInt8)) (next : Target) :
    (base.above arena).pushComplement excluded (next.raise base.size) =
      base.raised (arena.pushComplement excluded next) :=
  pushExcluding_above base arena next _ _

end ByteAutomata.Arena
