import ByteAutomata.Proofs.AnyRune

/-!
Where the byte steps of a trie lead.

A path reads bytes one by one and goes from state to state by byte steps alone. From the root of a rune
trie, and through states of the trie only, such paths lead to the state behind it exactly on the UTF-8
bytes of the runes, whatever order the intervals come in and whether or not they overlap. The fragment for
any rune, which is put together from ranges of lead bytes, has the same paths as the trie of all runes.
-/

namespace ByteAutomata

/-- All runes in one interval, which spans the surrogates. -/
def RuneSet.everyRune : RuneSet := [⟨Char.ofNat 0, Char.ofNat lastCodePoint⟩]

theorem RuneSet.contains_everyRune (rune : Char) : everyRune.Contains rune := by
  have greatest : (Char.ofNat lastCodePoint).toNat = lastCodePoint := by decide
  refine ⟨_, List.mem_singleton_self _, Nat.zero_le _, ?_⟩
  rw [rune_le_iff, greatest]
  exact toNat_le rune

namespace Arena

/-- Byte steps lead from a state to another one on these bytes. Each state that is left is a `through`
state; the one where the path ends need not be. -/
inductive Path (arena : Arena) (through : StateId → Prop) : StateId → List UInt8 → StateId → Prop
  | nil (id : StateId) : Path arena through id [] id
  | cons {id next last : StateId} {state : State} {byte : UInt8} {rest : List UInt8} :
      through id → arena.get? id = some state → state.table.step byte = .ok (some next) →
      Path arena through next rest last → Path arena through id (byte :: rest) last

variable {arena : Arena} {through : StateId → Prop} {id last goal : StateId} {kept : Nat} {byte : UInt8}
  {bytes rest : List UInt8}

namespace Path

theorem nil_iff : arena.Path through id [] last ↔ id = last := by
  constructor
  · intro path
    cases path
    rfl
  · rintro rfl
    exact .nil id

theorem cons_iff : arena.Path through id (byte :: rest) last ↔ through id ∧ ∃ state next,
    arena.get? id = some state ∧ state.table.step byte = .ok (some next) ∧
      arena.Path through next rest last := by
  constructor
  · intro path
    cases path with
    | cons leaves found steps behind => exact ⟨leaves, _, _, found, steps, behind⟩
  · rintro ⟨leaves, state, next, found, steps, behind⟩
    exact .cons leaves found steps behind

end Path

/-- Among states with byte steps only, paths lead where following the bytes leads. -/
theorem StepsTo.path_iff (steps : arena.StepsTo kept goal) (formed : arena.WellFormed) (below : goal < kept)
    (owns : arena.Owns kept goal (some id)) :
    arena.Path (kept ≤ ·) id bytes last ↔ arena.follow (some goal) (some id) bytes = some last := by
  induction bytes generalizing id with
  | nil => rw [Path.nil_iff, follow_nil, Option.some.injEq]
  | cons byte rest ih =>
    rw [Path.cons_iff, follow_cons]
    rcases owns id rfl with ⟨new, inside⟩ | rfl
    · obtain ⟨state, found⟩ := exists_get? inside
      have other : some id ≠ some goal := by
        simpa using Nat.ne_of_gt (lt_of_lt_of_le below new)
      have moves := stepFrom_of_get? other found byte
      have stepped := Table.step_eq_lookup (formed.fits found).table byte
      have ownsNext := steps.owns_stepFrom formed owns byte
      rw [moves] at ownsNext ⊢
      rw [and_iff_right new]
      cases leads : state.table.lookup byte with
      | none =>
        rw [leads] at stepped
        simp [found, stepped]
      | some next =>
        rw [leads] at stepped ownsNext
        rw [← ih ownsNext]
        simp [found, stepped]
    · have left : ¬ kept ≤ id := Nat.not_le.mpr below
      simp [left]

namespace ReadsRune

variable {holds : Char → Prop} {result : Arena × StateId}

theorem path_iff (reads : arena.ReadsRune goal holds result) (inside : goal < arena.size) :
    result.1.Path (arena.size ≤ ·) result.2 bytes goal ↔
      ∃ rune, holds rune ∧ bytes = String.utf8EncodeChar rune := by
  rw [reads.steps.path_iff reads.grows.extends_.formed inside
    fun id same => Or.inl (Option.some.inj same ▸ ⟨reads.new, reads.grows.entry⟩), reads.reads]

/-- The new states are left for the goal only. -/
theorem path_leads (reads : arena.ReadsRune goal holds result) (inside : goal < arena.size)
    (path : result.1.Path (arena.size ≤ ·) result.2 bytes last) : arena.size ≤ last ∨ last = goal := by
  have formed := reads.grows.extends_.formed
  have owns : result.1.Owns arena.size goal (some result.2) :=
    fun id same => Or.inl (Option.some.inj same ▸ ⟨reads.new, reads.grows.entry⟩)
  rw [reads.steps.path_iff formed inside owns] at path
  exact (reads.steps.owns_follow formed owns bytes last path).imp_left And.left

end ReadsRune

/-- A rune trie leaves all states as they are, is left for the state behind it only, and leads there on the
bytes of the runes. -/
theorem pushRuneTrie_path_iff (formed : arena.WellFormed) (set : RuneSet) {next : StateId}
    (inside : next < arena.size) :
    (∀ id < arena.size, (arena.pushRuneTrie set (some next)).1.get? id = arena.get? id) ∧
      (∀ bytes last, (arena.pushRuneTrie set (some next)).1.Path (arena.size ≤ ·)
        (arena.pushRuneTrie set (some next)).2 bytes last → arena.size ≤ last ∨ last = next) ∧
      ∀ bytes, (arena.pushRuneTrie set (some next)).1.Path (arena.size ≤ ·)
          (arena.pushRuneTrie set (some next)).2 bytes next ↔
        ∃ rune, set.Contains rune ∧ bytes = String.utf8EncodeChar rune := by
  have reads := pushRuneTrie_reads formed set inside
  exact ⟨reads.grows.extends_.kept, fun bytes last path => reads.path_leads inside path,
    fun bytes => reads.path_iff inside⟩

/-- Overlapping intervals in descending order, one of them around the surrogates and one with swapped ends. -/
theorem pushRuneTrie_path_iff_scattered :
    let set : RuneSet := [⟨'z', 'a'⟩, ⟨'\uD7FF', '\uE000'⟩, ⟨'\u07F0', '\u0810'⟩, ⟨'\u07FF', '\u0900'⟩]
    let built := Arena.pushRuneTrie ⟨#[{}]⟩ set (some 0)
    built.1.get? 0 = some {} ∧ built.1.Path (1 ≤ ·) built.2 [0xEE, 0x80, 0x80] 0 ∧
      ¬ built.1.Path (1 ≤ ·) built.2 [0xED, 0xA0, 0x80] 0 := by
  intro set built
  have formed : Arena.WellFormed ⟨#[{}]⟩ := by decide
  have inside : 0 < Arena.size ⟨#[{}]⟩ := by decide
  obtain ⟨kept, _, leads⟩ := pushRuneTrie_path_iff formed set inside
  refine ⟨kept 0 (by decide), (leads _).mpr ⟨'\uE000', ?_, by decide⟩, fun path => ?_⟩
  · exact ⟨⟨'\uD7FF', '\uE000'⟩, by simp [set], by decide⟩
  · obtain ⟨rune, _, same⟩ := (leads _).mp path
    have forms := Utf8.exists_encode_iff_forms.mp ⟨rune, same⟩
    simp at forms

/-- Through its own states the fragment for any rune leads to the state behind it on the bytes of each rune and on no
others, just as the trie of all runes does. -/
theorem pushAnyRune_path_iff (formed : arena.WellFormed) {next : StateId} (inside : next < arena.size)
    (bytes : List UInt8) :
    ((arena.pushAnyRune (some next)).1.Path (arena.size ≤ ·) (arena.pushAnyRune (some next)).2 bytes next ↔
        ∃ rune, bytes = String.utf8EncodeChar rune) ∧
      ((arena.pushAnyRune (some next)).1.Path (arena.size ≤ ·) (arena.pushAnyRune (some next)).2 bytes next ↔
        (arena.pushRuneTrie RuneSet.everyRune (some next)).1.Path (arena.size ≤ ·)
          (arena.pushRuneTrie RuneSet.everyRune (some next)).2 bytes next) := by
  have any : (arena.pushAnyRune (some next)).1.Path (arena.size ≤ ·) (arena.pushAnyRune (some next)).2 bytes next ↔
      ∃ rune, bytes = String.utf8EncodeChar rune := by
    apply ((pushAnyRune_reads formed inside).path_iff inside).trans
    simp only [true_and]
  have every : (arena.pushRuneTrie RuneSet.everyRune (some next)).1.Path (arena.size ≤ ·)
        (arena.pushRuneTrie RuneSet.everyRune (some next)).2 bytes next ↔
      ∃ rune, bytes = String.utf8EncodeChar rune := by
    apply ((pushRuneTrie_reads formed RuneSet.everyRune inside).path_iff inside).trans
    simp only [RuneSet.contains_everyRune, true_and]
  exact ⟨any, any.trans every.symm⟩

/-- The least rune of four bytes, whose second byte is narrowed, and the byte below it in that place. -/
theorem pushAnyRune_path_iff_narrowed :
    let any := Arena.pushAnyRune ⟨#[{}]⟩ (some 0)
    let every := Arena.pushRuneTrie ⟨#[{}]⟩ RuneSet.everyRune (some 0)
    any.1.Path (1 ≤ ·) any.2 [0xF0, 0x90, 0x80, 0x80] 0 ∧ every.1.Path (1 ≤ ·) every.2 [0xF0, 0x90, 0x80, 0x80] 0 ∧
      ¬ any.1.Path (1 ≤ ·) any.2 [0xF0, 0x8F, 0x80, 0x80] 0 := by
  intro any every
  have formed : Arena.WellFormed ⟨#[{}]⟩ := by decide
  have inside : 0 < Arena.size ⟨#[{}]⟩ := by decide
  obtain ⟨encodes, agrees⟩ := pushAnyRune_path_iff formed inside [0xF0, 0x90, 0x80, 0x80]
  have path := encodes.mpr ⟨Char.ofNat 0x10000, by decide⟩
  refine ⟨path, agrees.mp path, fun overlong => ?_⟩
  have encoded := (pushAnyRune_path_iff formed inside [0xF0, 0x8F, 0x80, 0x80]).1.mp overlong
  have forms := Utf8.exists_encode_iff_forms.mp encoded
  simp at forms

end Arena

end ByteAutomata
