import ByteAutomata.Proofs.AnyRune
import Mathlib.Computability.Language

/-!
Fragments and the words that they read.

A fragment is built in front of a state of an arena. Its entry accepts the words of the fragment
followed by what that state accepts, and it does so in every arena that holds the fragment's own states
and those without epsilons: states that forward may still be wired up, so nothing is assumed of them.
Fragments are put together by equations between languages. A loop gives an equation for itself: it reads what
leaves it, or a word of its body and then what it reads. A body without the empty word allows for one solution
only, the repetitions of the body followed by what leaves it.
-/

namespace ByteAutomata.Arena

open scoped Computability

variable {arena middle built future : Arena} {entry other between next : StateId}
  {words more : Language UInt8} {x : Continuation} {kept : Nat}

/-- What can be read from the state up to where the continuation is reported. -/
def accepted (arena : Arena) (x : Continuation) (id : StateId) : Language UInt8 :=
  {read | arena.Yields x id read}

theorem mem_accepted (arena : Arena) (x : Continuation) (id : StateId) (read : List UInt8) :
    read ∈ arena.accepted x id ↔ arena.Yields x id read :=
  Iff.rfl

/-- The other arena has the states from `kept` on and those without epsilons. -/
structure KeptIn (built : Arena) (kept : Nat) (future : Arena) : Prop where
  formed : future.WellFormed
  size : built.size ≤ future.size
  states : ∀ id state, built.get? id = some state → kept ≤ id ∨ state.table.epsilons = [] →
    future.get? id = some state

theorem WellFormed.keptIn (formed : built.WellFormed) (kept : Nat) : built.KeptIn kept built :=
  ⟨formed, Nat.le_refl _, fun _ _ found _ => found⟩

/-- What an earlier arena held is held as long as a later one is kept. -/
theorem KeptIn.earlier (keeps : built.KeptIn kept future)
    (extends_ : Extends middle.size middle built) : middle.KeptIn kept future where
  formed := keeps.formed
  size := Nat.le_trans extends_.size keeps.size
  states := fun id state found there =>
    keeps.states id state ((extends_.kept id (lt_size_of_get? found)).trans found) there

theorem KeptIn.mono {later : Nat} (keeps : built.KeptIn kept future) (order : kept ≤ later) :
    built.KeptIn later future where
  formed := keeps.formed
  size := keeps.size
  states := fun id state found there => keeps.states id state found (there.imp_left (Nat.le_trans order))

/-- A union adds states behind those of the arena and reports nothing new. -/
theorem Unites.extends_ {source joined : Arena} {pairs : List (StateId × StateId)}
    (unites : source.Unites pairs joined) : Extends source.size source joined where
  formed := unites.formed
  size := unites.size ▸ Nat.le_add_right _ _
  kept := unites.kept
  holds := by
    rintro id y ⟨state, found, held⟩
    by_cases old : id < source.size
    · exact ⟨id, state, (unites.kept id old).symm.trans found, held⟩
    · have bound := lt_size_of_get? found
      rw [unites.size] at bound
      obtain ⟨place, rfl⟩ := Nat.exists_eq_add_of_le (Nat.not_lt.mp old)
      have named := List.getElem?_eq_getElem (Nat.lt_of_add_lt_add_left bound)
      obtain ⟨joint, stored, a, b, _, joins⟩ := unites.joins place _ named
      rw [found, Option.some.injEq] at stored
      subst joint
      rcases joins with rfl | ⟨left, right, atLeft, atRight, combines⟩
      · cases held
      · rcases (combines.continuations y).mp held with early | early
        · exact ⟨a, left, atLeft, early⟩
        · exact ⟨b, right, atRight, early⟩

/-- The union of two states is a state: one of them if they are the same, or a new one. -/
theorem Unites.exists_start {source joined : Arena} {pairs : List (StateId × StateId)} {a b : StateId}
    {target : Target} (unites : source.Unites pairs joined) (left : source.TargetWithin (some a))
    (right : source.TargetWithin (some b)) (resolves : Resolves source.size pairs (some a) (some b) target) :
    ∃ start, target = some start ∧ start < joined.size ∧ (start = a ∨ source.size ≤ start) := by
  have bound (id : StateId) (leads : target = some id) : id < joined.size :=
    unites.size ▸ resolves.lt left right leads
  cases resolves with
  | same => exact ⟨a, rfl, bound a rfl, Or.inl rfl⟩
  | pair different named => exact ⟨_, rfl, bound _ rfl, Or.inr (Nat.le_add_right _ _)⟩

/-- A state that only forwards to others accepts what these accept. -/
theorem accepted_splice {id : StateId} {targets : List Target}
    (found : arena.get? id = some { table := { Table.empty with epsilons := targets } })
    (left : StateId) (right : StateId)
    (only : ∀ target, some target ∈ targets ↔ target = left ∨ target = right) (other : left ≠ id)
    (another : right ≠ id) :
    arena.accepted x id = arena.accepted x left + arena.accepted x right := by
  have away : some id ∉ targets := by
    intro listed
    rcases (only id).mp listed with same | same
    · exact other same.symm
    · exact another same.symm
  ext read
  rw [mem_accepted, yields_iff found, State.accepts_splice id away, Language.mem_add]
  simp only [only, or_and_right, exists_or, exists_eq_left]
  rfl

/-- The fragment of an arena from `entry` to `next`, built behind the states of another. -/
structure Fragment (arena built : Arena) (entry next : StateId) (words : Language UInt8) : Prop where
  extends_ : Extends arena.size arena built
  inside : entry < built.size
  goal : next < arena.size
  /-- The entry is a new state unless nothing may be read. -/
  place : arena.size ≤ entry ∨ entry = next ∧ [] ∈ words
  reads : ∀ future, built.KeptIn arena.size future → ∀ x,
    future.accepted x entry = words * future.accepted x next

namespace Fragment

/-- Nothing is read on the way from a state to itself. -/
theorem refl (extends_ : Extends arena.size arena built) (goal : next < arena.size) :
    Fragment arena built next next 1 where
  extends_ := extends_
  inside := extends_.lt goal
  goal := goal
  place := Or.inr ⟨rfl, rfl⟩
  reads := fun _ _ _ => (one_mul _).symm

/-- A fragment in front of another reads its words first. -/
theorem trans (first : Fragment arena middle between next words)
    (second : Fragment middle built entry between more) :
    Fragment arena built entry next (more * words) where
  extends_ := first.extends_.append second.extends_
  inside := second.inside
  goal := first.goal
  place := by
    rcases second.place with new | ⟨rfl, nothing⟩
    · exact Or.inl (Nat.le_trans first.extends_.size new)
    · exact first.place.imp_right fun here =>
        ⟨here.1, Language.mem_mul.mpr ⟨[], nothing, [], here.2, rfl⟩⟩
  reads := by
    intro future keeps x
    rw [second.reads future (keeps.mono first.extends_.size) x,
      first.reads future (keeps.earlier second.extends_) x, mul_assoc]

/-- What is built later does not change a fragment. -/
theorem later (fragment : Fragment arena middle entry next words)
    (extends_ : Extends middle.size middle built) : Fragment arena built entry next words where
  extends_ := fragment.extends_.append extends_
  inside := extends_.lt fragment.inside
  goal := fragment.goal
  place := fragment.place
  reads := fun future keeps x => fragment.reads future (keeps.earlier extends_) x

theorem congr (fragment : Fragment arena built entry next words) (same : words = more) :
    Fragment arena built entry next more :=
  same ▸ fragment

theorem new (fragment : Fragment arena built entry next words) (proper : [] ∉ words) :
    arena.size ≤ entry :=
  fragment.place.resolve_right fun here => proper here.2

theorem formed (fragment : Fragment arena built entry next words) : built.WellFormed :=
  fragment.extends_.formed

/-! ## Choices -/

/-- A splice to two fragments reads the words of either. -/
theorem splice (left : Fragment arena built entry next words)
    (right : Fragment arena built other next more) :
    Fragment arena (built.pushSplice [some entry, some other]).1 built.size next (words + more) := by
  have pushed : built.Grows (built.pushSplice [some entry, some other]) :=
    left.formed.grows_pushSplice (by simp [left.inside, right.inside])
  refine ⟨left.extends_.append pushed.extends_, pushed.entry, left.goal, Or.inl left.extends_.size, ?_⟩
  intro future keeps x
  have stored := keeps.states built.size _ (get?_push_self _) (Or.inl left.extends_.size)
  rw [accepted_splice stored entry other (by simp) (Nat.ne_of_lt left.inside) (Nat.ne_of_lt right.inside),
    left.reads future (keeps.earlier pushed.extends_) x, right.reads future (keeps.earlier pushed.extends_) x,
    add_mul]

/-- The union of two fragments reads the words of either. -/
theorem union (left : Fragment arena built entry next words)
    (right : Fragment arena built other next more) :
    ∃ joined start, built.union (some entry) (some other) = .ok (joined, some start) ∧
      Fragment arena joined start next (words + more) := by
  have insideLeft : built.TargetWithin (some entry) := targetWithin_some left.inside
  have insideRight : built.TargetWithin (some other) := targetWithin_some right.inside
  obtain ⟨joined, target, pairs, united, unites, resolves⟩ :=
    union_eq left.formed insideLeft insideRight
  have grows := unites.extends_
  obtain ⟨start, same, inside, place⟩ := unites.exists_start insideLeft insideRight resolves
  subst same
  refine ⟨joined, start, united, left.extends_.append grows, inside, left.goal, ?_, ?_⟩
  · rcases place with rfl | new
    · exact left.place.imp_right fun here => ⟨here.1, Or.inl here.2⟩
    · exact Or.inl (Nat.le_trans left.extends_.size new)
  · intro future keeps x
    have settles : built.SettlesUnion joined x (future.Yields x) := fun id state found there =>
      yields_iff (keeps.states id state found (there.imp_left (Nat.le_trans left.extends_.size)))
    have either : future.accepted x start = future.accepted x entry + future.accepted x other := by
      ext read
      have accepts := unites.accepts_iff settles resolves read
      rwa [Target.accepts_some, Target.accepts_some, Target.accepts_some] at accepts
    rw [either, left.reads future (keeps.earlier grows) x, right.reads future (keeps.earlier grows) x,
      add_mul]

end Fragment

/-! ## Loops -/

theorem WellFormed.grows_forward (formed : arena.WellFormed) (inside : next < arena.size) :
    arena.Grows (arena.pushSplice [some next]) :=
  formed.grows_pushSplice fun _ listed => ⟨next, inside, List.mem_singleton.mp listed⟩

/-- A state that forwards may be wired up later, once there is something to forward to. -/
theorem WellFormed.extends_wired (formed : arena.WellFormed) (inside : next < arena.size)
    (body : Extends (arena.pushSplice [some next]).1.size (arena.pushSplice [some next]).1 built)
    (bound : entry < built.size) {targets : List Target}
    (listed : ∀ target ∈ targets, target = some entry ∨ target = some next) :
    Extends arena.size arena (built.setEpsilons arena.size targets) := by
  have grown := (formed.grows_forward inside).extends_.append body
  refine grown.trans (grown.formed.extends_modify (Nat.le_refl _) _ fun state found =>
    (grown.formed.fits found).setEpsilons fun target mentioned => ?_)
  rcases listed target mentioned with rfl | rfl
  · exact ⟨entry, bound, rfl⟩
  · exact ⟨next, grown.lt inside, rfl⟩

/-- A state to which a fragment returns is wired to forward into the fragment or past it. -/
theorem Fragment.closeLoop (formed : arena.WellFormed) (inside : next < arena.size)
    (body : Fragment (arena.pushSplice [some next]).1 built entry arena.size words)
    (proper : [] ∉ words) (targets : List Target)
    (listed : ∀ target, target ∈ targets ↔ target = some entry ∨ target = some next) :
    Extends arena.size arena (built.setEpsilons arena.size targets) ∧
      ∀ future, (built.setEpsilons arena.size targets).KeptIn arena.size future → ∀ x,
        future.accepted x entry = words * future.accepted x arena.size ∧
          future.accepted x arena.size = words∗ * future.accepted x next := by
  have size : (arena.pushSplice [some next]).1.size = arena.size + 1 := size_push arena _
  have waiting : built.get? arena.size =
      some { table := { Table.empty with epsilons := [some next] } } :=
    (body.extends_.kept arena.size body.goal).trans (get?_push_self _)
  have wired : (built.setEpsilons arena.size targets).get? arena.size =
      some { table := { Table.empty with epsilons := targets } } :=
    get?_modifyTable_self _ waiting
  have new : arena.size < entry := by
    have behind := body.new proper
    rwa [size] at behind
  refine ⟨formed.extends_wired inside body.extends_ body.inside fun target => (listed target).mp,
    fun future keeps x => ?_⟩
  have keepsBody : built.KeptIn (arena.pushSplice [some next]).1.size future := by
    refine ⟨keeps.formed, (size_modifyTable built _ _) ▸ keeps.size, fun id state found there => ?_⟩
    have apart : arena.size ≠ id := by
      rintro rfl
      rcases there with behind | silent
      · exact absurd (size ▸ behind) (Nat.not_succ_le_self _)
      · rw [waiting, Option.some.injEq] at found
        subst found
        cases silent
    refine keeps.states id state ((get?_modifyTable_of_ne built _ apart).trans found)
      (there.imp_left fun behind => ?_)
    rw [size] at behind
    exact Nat.le_of_succ_le behind
  have enters := body.reads future keepsBody x
  have forwards := accepted_splice (x := x) (keeps.states _ _ wired (Or.inl (Nat.le_refl _))) entry next
    (fun target => by simp [listed]) (Nat.ne_of_gt new) (Nat.ne_of_lt inside)
  rw [enters] at forwards
  exact ⟨enters, (Language.self_eq_mul_add_iff proper).mp forwards⟩

/-- A state that forwards into a fragment that returns to it, or on, reads any number of its words. -/
theorem Fragment.loop (formed : arena.WellFormed) (inside : next < arena.size)
    (body : Fragment (arena.pushSplice [some next]).1 built entry arena.size words)
    (proper : [] ∉ words) :
    Fragment arena (built.setEpsilons arena.size [some entry, some next]) arena.size next words∗ := by
  obtain ⟨grows, reads⟩ := body.closeLoop formed inside proper [some entry, some next] (by simp)
  have bound := body.extends_.lt body.goal
  rw [← size_modifyTable built arena.size] at bound
  exact ⟨grows, bound, inside, Or.inl (Nat.le_refl _), fun future keeps x => (reads future keeps x).2⟩

/-- A fragment that can be entered again from its end reads one of its words or more. -/
theorem Fragment.loopAtLeastOnce (formed : arena.WellFormed) (inside : next < arena.size)
    (body : Fragment (arena.pushSplice [some next]).1 built entry arena.size words)
    (proper : [] ∉ words) :
    Fragment arena (built.setEpsilons arena.size [some next, some entry]) entry next
      (words * words∗) := by
  obtain ⟨grows, reads⟩ := body.closeLoop formed inside proper [some next, some entry] (by simp [or_comm])
  have bound := body.inside
  rw [← size_modifyTable built arena.size] at bound
  have new := body.new proper
  rw [show (arena.pushSplice [some next]).1.size = arena.size + 1 from size_push arena _] at new
  refine ⟨grows, bound, inside, Or.inl (Nat.le_of_succ_le new), fun future keeps x => ?_⟩
  obtain ⟨enters, returns⟩ := reads future keeps x
  rw [enters, returns, mul_assoc]

/-! ## Single steps -/

/-- The bytes of one rune of those that are meant. -/
def runeWords (holds : Char → Prop) : Language UInt8 :=
  {bytes | ∃ rune, holds rune ∧ bytes = String.utf8EncodeChar rune}

theorem mem_runeWords (holds : Char → Prop) (bytes : List UInt8) :
    bytes ∈ runeWords holds ↔ ∃ rune, holds rune ∧ bytes = String.utf8EncodeChar rune :=
  Iff.rfl

/-- States with byte steps only read the words that lead to the goal, wherever they are kept. -/
theorem StepsTo.accepted_eq {future : Arena} {kept : Nat} (steps : built.StepsTo kept next)
    (formed : built.WellFormed)
    (keeps : ∀ id state, kept ≤ id → id ≠ next → built.get? id = some state → future.get? id = some state)
    (owns : built.Owns kept next (some entry))
    (reads : ∀ bytes, built.follow (some next) (some entry) bytes = some next ↔ bytes ∈ words)
    (x : Continuation) : future.accepted x entry = words * future.accepted x next := by
  have obeys (id : StateId) (new : kept ≤ id) (bound : id < built.size) (other : id ≠ next) :
      built.Obeys x (future.Yields x) id := by
    obtain ⟨state, found⟩ := exists_get? bound
    exact ⟨state, found, yields_iff (keeps id state new other found)⟩
  ext read
  have accepts := steps.accepts_iff formed obeys owns read
  rw [Target.accepts_some] at accepts
  rw [mem_accepted, accepts, Language.mem_mul]
  simp only [reads]
  constructor
  · rintro ⟨first, second, rfl, word, later⟩
    exact ⟨first, word, second, later, rfl⟩
  · rintro ⟨first, word, second, later, rfl⟩
    exact ⟨first, second, rfl, word, later⟩

theorem ReadsRune.fragment {holds : Char → Prop} {result : Arena × StateId}
    (reads : arena.ReadsRune next holds result) (inside : next < arena.size) :
    Fragment arena result.1 result.2 next (runeWords holds) where
  extends_ := reads.grows.extends_
  inside := reads.grows.entry
  goal := inside
  place := Or.inl reads.new
  reads := by
    intro future keeps x
    have owns : result.1.Owns arena.size next (some result.2) :=
      fun id same => Option.some.inj same ▸ Or.inl ⟨reads.new, reads.grows.entry⟩
    exact reads.steps.accepted_eq reads.grows.extends_.formed
      (fun id state new _ found => keeps.states id state found (Or.inl new)) owns reads.reads x

theorem cons_mem_letter_mul (byte first : UInt8) (rest : List UInt8) (words : Language UInt8) :
    first :: rest ∈ ({[byte]} : Language UInt8) * words ↔ first = byte ∧ rest ∈ words := by
  rw [Language.mem_mul]
  constructor
  · rintro ⟨letter, rfl, behind, member, same⟩
    obtain ⟨rfl, rfl⟩ := List.cons.inj same
    exact ⟨rfl, member⟩
  · rintro ⟨rfl, member⟩
    exact ⟨[first], rfl, rest, member, rfl⟩

theorem nil_not_mem_letter_mul (byte : UInt8) (words : Language UInt8) :
    [] ∉ ({[byte]} : Language UInt8) * words := by
  rw [Language.mem_mul]
  rintro ⟨letter, rfl, behind, member, same⟩
  cases same

theorem WellFormed.grows_single (formed : arena.WellFormed) (byte : UInt8) (inside : next < arena.size) :
    arena.Grows (arena.pushTable (.single byte (some next))) :=
  formed.grows_pushTable (.of_single byte fun _ same => Option.some.inj same ▸ Nat.lt_succ_of_lt inside)

/-- A state with a single byte step reads that byte. -/
theorem fragment_single (formed : arena.WellFormed) (inside : next < arena.size) {byte : UInt8}
    (below : byte < byteCeiling) :
    Fragment arena (arena.pushTable (.single byte (some next))).1 arena.size next {[byte]} where
  extends_ := (formed.grows_single byte inside).extends_
  inside := (formed.grows_single byte inside).entry
  goal := inside
  place := Or.inl (Nat.le_refl _)
  reads := by
    intro future keeps x
    have stored := keeps.states arena.size _ (get?_push_self _) (Or.inl (Nat.le_refl _))
    have only : State.StepsOnly { table := .single byte (some next) } := ⟨rfl, rfl, rfl⟩
    ext read
    rw [mem_accepted, yields_iff stored]
    cases read with
    | nil => exact iff_of_false only.not_accepts_nil (nil_not_mem_letter_mul byte _)
    | cons first rest =>
      have leads : (Table.single byte (some next)).lookup first =
          if first = byte then some next else none := by
        by_cases low : first < byteCeiling
        · exact Table.lookup_single byte (some next) low
        · rw [if_neg fun same : first = byte => low (same ▸ below)]
          exact Table.lookup_of_ceiling_le (Table.wellFormed_mapping none [(byte, some next)])
            (UInt8.not_lt.mp low)
      rw [only.accepts_cons_iff, leads, cons_mem_letter_mul]
      by_cases same : first = byte
      · simp [same, Target.accepts_some, mem_accepted]
      · simp [same, Target.not_accepts_none]

end ByteAutomata.Arena
