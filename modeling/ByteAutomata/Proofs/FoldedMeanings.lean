import ByteAutomata.Proofs.RegexpMeanings

/-!
Texts in any case report what differs from them in case only.

For each rune the bytes of its variants are threaded from one state to the next, one variant after the other. A
state in between is reached by one path only, so leading a byte of it elsewhere redirects the paths that go on with
this byte and no others. There are none among the variants' that were threaded before, for no rune's bytes begin
those of another.
-/

namespace ByteAutomata

/-! ## Variants of a text -/

namespace Unicode

/-- Every rune is a case variant of the one that stands in its place in the text. -/
def IsVariant [Database] (text runes : List Char) : Prop :=
  List.Forall₂ (fun rune variant => variant ∈ caseVariants rune) text runes

theorem isVariant_self [Database] [LawfulFolding] (text : List Char) : IsVariant text text :=
  List.forall₂_same.mpr fun rune _ => mem_caseVariants_self rune

end Unicode

namespace Arena

/-- The bytes of the variants of a text, with the terminator behind them. -/
def foldedWords [Unicode.Database] (text : List Char) : Language UInt8 :=
  {word | ∃ runes, Unicode.IsVariant text runes ∧ word = terminated (Utf8.encode runes)}

theorem foldedWords_nil [Unicode.Database] : foldedWords [] = {[valueTerminator]} := by
  ext word
  constructor
  · rintro ⟨runes, variant, rfl⟩
    cases variant
    rfl
  · rintro rfl
    exact ⟨[], .nil, rfl⟩

theorem foldedWords_cons [Unicode.Database] (rune : Char) (rest : List Char) :
    foldedWords (rune :: rest) = runeWords (· ∈ Unicode.caseVariants rune) * foldedWords rest := by
  have split (variant : Char) (runes : List Char) : terminated (Utf8.encode (variant :: runes)) =
      String.utf8EncodeChar variant ++ terminated (Utf8.encode runes) := by
    simp [terminated, Utf8.encode]
  ext word
  rw [Language.mem_mul]
  constructor
  · rintro ⟨_, variants, rfl⟩
    cases variants with
    | cons variant others =>
      exact ⟨_, ⟨_, variant, rfl⟩, _, ⟨_, others, rfl⟩, (split _ _).symm⟩
  · rintro ⟨_, ⟨variant, folds, rfl⟩, _, ⟨runes, others, rfl⟩, rfl⟩
    exact ⟨variant :: runes, .cons folds others, (split variant runes).symm⟩

theorem runeWords_false : runeWords (fun _ => False) = 0 := by
  ext word
  refine iff_of_false ?_ (Language.notMem_zero word)
  rintro ⟨_, nothing, _⟩
  exact nothing

theorem runeWords_add (holds : Char → Prop) (rune : Char) :
    runeWords holds + {String.utf8EncodeChar rune} = runeWords fun other => holds other ∨ other = rune := by
  ext word
  rw [Language.mem_add]
  constructor
  · rintro (⟨other, meant, rfl⟩ | rfl)
    · exact ⟨other, Or.inl meant, rfl⟩
    · exact ⟨rune, Or.inr rfl, rfl⟩
  · rintro ⟨other, meant | rfl, rfl⟩
    · exact Or.inl ⟨other, meant, rfl⟩
    · exact Or.inr rfl

/-! ## Words threaded from one state to another -/

variable {origin arena : Arena} {kept : Nat} {root goal node target : StateId} {words more : Language UInt8}
  {path bytes : List UInt8} {byte : UInt8} {x : Continuation}

theorem stepFrom_some (arena : Arena) (other : node ≠ goal) (byte : UInt8) :
    arena.stepFrom (some goal) (some node) byte = (arena.get? node).bind (·.table.lookup byte) := by
  rw [stepFrom, if_neg (fun same => other (Option.some.inj same)), Option.bind_some]
  cases arena.get? node <;> rfl

/-- A blank state leads nowhere. -/
theorem stepFrom_blank (blank : arena.get? node = some { table := .empty }) (byte : UInt8) :
    arena.stepFrom (some goal) (some node) byte = none := by
  by_cases last : node = goal
  · rw [last, stepFrom_goal]
  · rw [stepFrom_some arena last, blank]
    exact Table.lookup_empty byte

/-- An arena in which these words lead from a root to a goal, and no others do. The paths between the two go through
new states, and no two of them meet. -/
structure Threads (origin : Arena) (kept : Nat) (root goal : StateId) (words : Language UInt8) (arena : Arena) :
    Prop where
  extends_ : Extends kept origin arena
  steps : arena.StepsTo kept goal
  new : kept ≤ root
  inside : root < origin.size
  bound : goal < origin.size
  apart : root ≠ goal
  others : ∀ id < origin.size, id ≠ root → arena.get? id = origin.get? id
  between : ∀ bytes id, arena.follow (some goal) (some root) bytes = some id → id ≠ goal →
    id = root ∨ origin.size ≤ id
  sole : ∀ first second id, arena.follow (some goal) (some root) first = some id →
    arena.follow (some goal) (some root) second = some id → id ≠ goal → first = second
  reads : ∀ bytes, arena.follow (some goal) (some root) bytes = some goal ↔ bytes ∈ words

/-- Nothing leads from a blank state to another. -/
theorem threads_zero (formed : origin.WellFormed) (steps : origin.StepsTo kept goal) (new : kept ≤ root)
    (blank : origin.get? root = some { table := .empty }) (bound : goal < origin.size) (apart : root ≠ goal) :
    Threads origin kept root goal 0 origin := by
  have only {bytes : List UInt8} {id : StateId} (leads : origin.follow (some goal) (some root) bytes = some id) :
      bytes = [] ∧ id = root := by
    cases bytes with
    | nil => exact ⟨rfl, (Option.some.inj leads).symm⟩
    | cons byte rest =>
      rw [follow_cons, stepFrom_blank blank, follow_none] at leads
      cases leads
  refine ⟨.refl kept formed, steps, new, lt_size_of_get? blank, bound, apart, fun _ _ _ => rfl, ?_, ?_, ?_⟩
  · exact fun bytes id leads _ => Or.inl (only leads).2
  · exact fun first second id one two _ => (only one).1.trans (only two).1.symm
  · exact fun bytes => iff_of_false (fun leads => apart (only leads).2.symm) (Language.notMem_zero bytes)

namespace Threads

theorem congr (threads : Threads origin kept root goal words arena) (same : words = more) :
    Threads origin kept root goal more arena :=
  same ▸ threads

theorem owns_root (threads : Threads origin kept root goal words arena) : arena.Owns kept goal (some root) :=
  fun _ same => Option.some.inj same ▸ Or.inl ⟨threads.new, threads.extends_.lt threads.inside⟩

theorem lt_size (threads : Threads origin kept root goal words arena)
    (reached : arena.follow (some goal) (some root) bytes = some node) : node < arena.size :=
  (reached ▸ threads.steps.owns_follow threads.extends_.formed threads.owns_root bytes).lt_size
    (threads.extends_.lt threads.bound)

/-- What the words lead to accepts, the root accepts behind them. -/
theorem accepted_eq (threads : Threads origin kept root goal words arena) {future : Arena}
    (keeps : ∀ id < arena.size, id ≠ goal → future.get? id = arena.get? id) (x : Continuation) :
    future.accepted x root = words * future.accepted x goal :=
  threads.steps.accepted_eq threads.extends_.formed
    (fun id _ _ other found => (keeps id (lt_size_of_get? found) other).trans found) threads.owns_root
    threads.reads x

theorem follow_pushEmpty (threads : Threads origin kept root goal words arena) (bytes : List UInt8) :
    arena.pushEmpty.1.follow (some goal) (some root) bytes = arena.follow (some goal) (some root) bytes :=
  threads.steps.follow_eq_of_agrees threads.extends_.formed
    (fun _ inside => stepFrom_pushTable arena _ _ inside) threads.owns_root bytes

theorem pushEmpty (threads : Threads origin kept root goal words arena) :
    Threads origin kept root goal words arena.pushEmpty.1 :=
  { threads with
    extends_ := by
      have early : kept ≤ arena.size := Nat.le_trans threads.new (Nat.le_of_lt (threads.extends_.lt threads.inside))
      exact threads.extends_.trans (threads.extends_.formed.grows_pushEmpty.extends_.mono early)
    steps := threads.steps.pushTable ⟨rfl, rfl, rfl⟩ (by simp [Table.empty, Table.always])
    others := fun id early other =>
      (get?_push_of_lt (threads.extends_.lt early)).trans (threads.others id early other)
    between := fun bytes id leads => threads.between bytes id (threads.follow_pushEmpty bytes ▸ leads)
    sole := fun first second id one two =>
      threads.sole first second id (threads.follow_pushEmpty first ▸ one) (threads.follow_pushEmpty second ▸ two)
    reads := fun bytes => by
      rw [threads.follow_pushEmpty]
      exact threads.reads bytes }

/-! ## Leading a byte on -/

section

variable (threads : Threads origin kept root goal words arena)
  (reached : arena.follow (some goal) (some root) path = some node) (other : node ≠ goal)
  (below : byte < byteCeiling) (inside : target < arena.size)
  (dead : ∀ byte, arena.stepFrom (some goal) (some target) byte = none)
  (fresh : target ≠ goal →
    origin.size ≤ target ∧ ∀ bytes, arena.follow (some goal) (some root) bytes ≠ some target)
include threads reached other below inside dead fresh

/-- Where a byte of a state on the way is led to the goal, or to a new state that leads nowhere, that path leads
there now and cannot be continued. -/
theorem redirect :
    Extends kept arena (arena.modifyTable node (·.override byte (some target))) ∧
      (arena.modifyTable node (·.override byte (some target))).StepsTo kept goal ∧
      ∀ bytes, (arena.modifyTable node (·.override byte (some target))).follow (some goal) (some root) bytes =
        if bytes = path ++ [byte] then some target else if path ++ [byte] <+: bytes then none
          else arena.follow (some goal) (some root) bytes := by
  have formed := threads.extends_.formed
  obtain ⟨new, bound⟩ :=
    (threads.steps.owns_follow formed threads.owns_root path node reached).resolve_right other
  obtain ⟨state, found⟩ := exists_get? bound
  have owns : arena.Owns kept goal (some target) := by
    intro id same
    obtain rfl := Option.some.inj same
    by_cases last : target = goal
    · exact Or.inr last
    · have early : kept ≤ origin.size := Nat.le_trans threads.new (Nat.le_of_lt threads.inside)
      exact Or.inl ⟨Nat.le_trans early (fresh last).1, inside⟩
  have apart (rest : List UInt8) : arena.follow (some goal) (some target) rest ≠ some node := by
    cases rest with
    | nil =>
      intro same
      obtain rfl := Option.some.inj same
      exact (fresh other).2 path reached
    | cons first rest =>
      rw [follow_cons, dead, follow_none]
      exact nofun
  have sole (bytes : List UInt8) : arena.follow (some goal) (some root) bytes = some node ↔ bytes = path := by
    constructor
    · exact fun leads => threads.sole bytes path node leads reached other
    · rintro rfl
      exact reached
  obtain ⟨extends_, steps, _, paths⟩ := threads.steps.redirect formed (threads.extends_.lt threads.bound) new
    other found (·.override byte (some target)) (.override (formed.fits found) below (some target)) owns apart sole
  refine ⟨extends_, steps, fun bytes => ?_⟩
  rcases paths bytes with ⟨_, rest, rfl, rfl, leads⟩ | ⟨stays, leads⟩
  · rw [leads]
    cases rest with
    | nil => rw [follow_nil, if_pos rfl]
    | cons first rest =>
      rw [follow_cons, dead, follow_none, if_neg (by simp), if_pos ⟨first :: rest, by simp⟩]
  · have off : ¬ path ++ [byte] <+: bytes := by
      rintro ⟨rest, rfl⟩
      exact stays byte rest (by simp) rfl
    have different : bytes ≠ path ++ [byte] := by
      rintro rfl
      exact off List.prefix_rfl
    rw [leads, if_neg different, if_neg off]

/-- If no word is lost by it, the words stay, and the one that leads to the goal now is added. -/
theorem lead (free : ∀ word ∈ words, path ++ [byte] <+: word → word = path ++ [byte] ∧ target = goal)
    (adds : ∀ word, word ∈ more ↔ word ∈ words ∨ word = path ++ [byte] ∧ target = goal) :
    (arena.modifyTable node (·.override byte (some target))).follow (some goal) (some root) (path ++ [byte]) =
        some target ∧
      Threads origin kept root goal more (arena.modifyTable node (·.override byte (some target))) := by
  obtain ⟨extends_, steps, leads⟩ := threads.redirect reached other below inside dead fresh
  -- What leads to a state on the way is either the new path or has led there before.
  have before {bytes : List UInt8} {id : StateId} (between : id ≠ goal)
      (reads : (arena.modifyTable node (·.override byte (some target))).follow (some goal) (some root) bytes =
        some id) : bytes = path ++ [byte] ∧ target = id ∨
          arena.follow (some goal) (some root) bytes = some id ∧ target ≠ id := by
    rw [leads] at reads
    split_ifs at reads with last cut
    · exact Or.inl ⟨last, Option.some.inj reads⟩
    · exact Or.inr ⟨reads, fun same => (fresh (same ▸ between)).2 bytes (same ▸ reads)⟩
  refine ⟨(leads _).trans (if_pos rfl),
    { threads with
      extends_ := threads.extends_.trans extends_
      steps := steps
      others := fun id early outside => ?_
      between := fun bytes id reads between => ?_
      sole := fun first second id one two between => ?_
      reads := fun bytes => ?_ }⟩
  · have different : node ≠ id := by
      rintro rfl
      rcases threads.between path node reached other with here | late
      · exact outside here
      · exact absurd early (Nat.not_lt.mpr late)
    exact (get?_modifyTable_of_ne _ _ different).trans (threads.others id early outside)
  · rcases before between reads with ⟨_, rfl⟩ | ⟨early, _⟩
    · exact Or.inr (fresh between).1
    · exact threads.between bytes id early between
  · rcases before between one with ⟨rfl, same⟩ | ⟨one, different⟩ <;>
      rcases before between two with ⟨rfl, here⟩ | ⟨two, there⟩
    · rfl
    · exact absurd same there
    · exact absurd here different
    · exact threads.sole first second id one two between
  · rw [leads, adds, ← threads.reads]
    split_ifs with last cut
    · subst last
      constructor
      · exact fun same => Or.inr ⟨rfl, Option.some.inj same⟩
      · rintro (early | ⟨_, same⟩)
        · exact congrArg some (free _ ((threads.reads _).mp early) List.prefix_rfl).2
        · exact congrArg some same
    · refine iff_of_false nofun ?_
      rintro (early | ⟨same, _⟩)
      · exact last (free bytes ((threads.reads bytes).mp early) cut).1
      · exact last same
    · simp [last]

end

/-- A byte is led to the goal. -/
theorem close (threads : Threads origin kept root goal words arena)
    (reached : arena.follow (some goal) (some root) path = some node) (other : node ≠ goal)
    (below : byte < byteCeiling) (free : ∀ word ∈ words, path ++ [byte] <+: word → word = path ++ [byte]) :
    Threads origin kept root goal (words + {path ++ [byte]})
      (arena.modifyTable node (·.override byte (some goal))) := by
  refine (threads.lead reached other below (threads.extends_.lt threads.bound)
    (stepFrom_goal arena (some goal)) (fun differs => absurd rfl differs)
    (fun word listed stands => ⟨free word listed stands, rfl⟩) fun word => ?_).2
  rw [and_iff_left rfl]
  rfl

/-- A byte that leads nowhere yet is led to a new state. -/
theorem branch (threads : Threads origin kept root goal words arena)
    (reached : arena.follow (some goal) (some root) path = some node) (other : node ≠ goal)
    (below : byte < byteCeiling)
    (nowhere : arena.follow (some goal) (some root) (path ++ [byte]) = none) :
    (arena.pushEmpty.1.modifyTable node (·.override byte (some arena.size))).follow (some goal) (some root)
        (path ++ [byte]) = some arena.size ∧
      Threads origin kept root goal words
        (arena.pushEmpty.1.modifyTable node (·.override byte (some arena.size))) := by
  have unreached (bytes : List UInt8) :
      arena.pushEmpty.1.follow (some goal) (some root) bytes ≠ some arena.size := by
    rw [threads.follow_pushEmpty]
    exact fun leads => Nat.lt_irrefl _ (threads.lt_size leads)
  have different : arena.size ≠ goal := Nat.ne_of_gt (threads.extends_.lt threads.bound)
  refine threads.pushEmpty.lead ((threads.follow_pushEmpty path).trans reached) other below
    threads.extends_.formed.grows_pushEmpty.entry (stepFrom_blank (get?_push_self _))
    (fun _ => ⟨threads.extends_.size, unreached⟩) (fun word listed stands => ?_) fun word => by simp [different]
  obtain ⟨behind, rfl⟩ := stands
  have leads := (threads.reads _).mpr listed
  rw [follow_append, nowhere, follow_none] at leads
  cases leads

/-! ## Adding words -/

/-- A path for a word is added behind a state on the way if no word begins the other. -/
theorem addPath (threads : Threads origin kept root goal words arena)
    (reached : arena.follow (some goal) (some root) path = some node) (other : node ≠ goal)
    (nonempty : bytes ≠ []) (below : ∀ byte ∈ bytes, byte < byteCeiling)
    (free : ∀ word ∈ words, word <+: path ++ bytes ∨ path ++ bytes <+: word → word = path ++ bytes) :
    Threads origin kept root goal (words + {path ++ bytes}) (arena.addPath node goal bytes) := by
  induction bytes generalizing arena node path with
  | nil => exact absurd rfl nonempty
  | cons byte rest ih =>
    have belowFirst := below byte List.mem_cons_self
    have belowRest (later : UInt8) (listed : later ∈ rest) : later < byteCeiling :=
      below later (List.mem_cons_of_mem _ listed)
    cases rest with
    | nil => exact threads.close reached other belowFirst fun word listed stands => free word listed (Or.inr stands)
    | cons second rest =>
      have whole : path ++ byte :: second :: rest = path ++ [byte] ++ second :: rest := by simp
      have step : arena.follow (some goal) (some root) (path ++ [byte]) =
          (arena.get? node).bind (·.table.lookup byte) := by
        rw [follow_append, reached, follow_cons, stepFrom_some arena other, follow_nil]
      rw [addPath_cons, whole]
      cases led : (arena.get? node).bind (·.table.lookup byte) with
      | some child =>
        have reachedChild := step.trans led
        -- A word would end here and the new one go on.
        have otherChild : child ≠ goal := by
          rintro rfl
          have same := free _ ((threads.reads _).mp reachedChild) (Or.inl ⟨second :: rest, whole.symm⟩)
          simp at same
        exact ih threads reachedChild otherChild (List.cons_ne_nil _ _) belowRest (whole ▸ free)
      | none =>
        obtain ⟨reachedChild, branched⟩ := threads.branch reached other belowFirst (step.trans led)
        have otherChild : arena.size ≠ goal := Nat.ne_of_gt (threads.extends_.lt threads.bound)
        exact ih branched reachedChild otherChild (List.cons_ne_nil _ _) belowRest (whole ▸ free)

theorem addWord (threads : Threads origin kept root goal words arena) (nonempty : bytes ≠ [])
    (below : ∀ byte ∈ bytes, byte < byteCeiling)
    (free : ∀ word ∈ words, word <+: bytes ∨ bytes <+: word → word = bytes) :
    Threads origin kept root goal (words + {bytes}) (arena.addPath root goal bytes) :=
  threads.addPath (follow_nil arena (some goal) (some root)) threads.apart nonempty below free

/-- The bytes of runes are added one rune after the other. -/
theorem addRunes {holds : Char → Prop} (threads : Threads origin kept root goal (runeWords holds) arena)
    (runes : List Char) :
    Threads origin kept root goal (runeWords fun rune => holds rune ∨ rune ∈ runes)
      (runes.foldl (fun built rune => built.addPath root goal (String.utf8EncodeChar rune)) arena) := by
  induction runes generalizing arena holds with
  | nil => exact threads.congr (by simp)
  | cons rune rest ih =>
    have nonempty : String.utf8EncodeChar rune ≠ [] :=
      List.ne_nil_of_length_pos (Utf8.shaped_encode rune).1.nonempty
    have below (byte : UInt8) (listed : byte ∈ String.utf8EncodeChar rune) : byte < byteCeiling :=
      UInt8.lt_trans (Utf8.lt_valueTerminator rune byte listed) (by decide)
    have free (word : List UInt8) (listed : word ∈ runeWords holds)
        (stands : word <+: String.utf8EncodeChar rune ∨ String.utf8EncodeChar rune <+: word) :
        word = String.utf8EncodeChar rune := by
      obtain ⟨other, _, rfl⟩ := listed
      rcases stands with front | front
      · rw [Utf8.eq_of_encode_begins front]
      · rw [Utf8.eq_of_encode_begins front]
    have added := (threads.addWord nonempty below free).congr (runeWords_add holds rune)
    exact (ih added).congr (by simp [or_assoc])

end Threads

/-! ## What the fragment accepts -/

theorem StepsTo.retarget (steps : arena.StepsTo kept goal) (new : kept ≤ goal) (target : StateId) :
    arena.StepsTo kept target where
  only := steps.only
  leads := fun id state later found next listed => by
    rcases steps.leads id state later found next listed with back | here
    · exact Or.inl back
    · exact Or.inl (Option.some.inj here ▸ new)

/-- The variants of a rune are threaded from a blank state to a new one. -/
theorem threads_variants [Unicode.Database] {current : StateId} (formed : arena.WellFormed)
    (steps : arena.StepsTo kept current) (new : kept ≤ current)
    (blank : arena.get? current = some { table := .empty }) (rune : Char) :
    Threads arena.pushEmpty.1 kept current arena.size (runeWords (· ∈ Unicode.caseVariants rune))
      ((Unicode.caseVariants rune).foldl (fun built variant =>
        built.addPath current arena.size (String.utf8EncodeChar variant)) arena.pushEmpty.1) := by
  have pushed := formed.grows_pushEmpty
  have inside := lt_size_of_get? blank
  have nothing : Threads arena.pushEmpty.1 kept current arena.size (runeWords fun _ => False)
      arena.pushEmpty.1 :=
    (threads_zero pushed.extends_.formed
      ((steps.pushTable ⟨rfl, rfl, rfl⟩ (by simp [Table.empty, Table.always])).retarget new arena.size) new
      ((get?_push_of_lt inside).trans blank) pushed.entry (Nat.ne_of_lt inside)).congr
        runeWords_false.symm
  exact (nothing.addRunes (Unicode.caseVariants rune)).congr (by simp)

/-- A blank state that is filled with a text reads what differs from the text in case only. -/
theorem accepted_fillFolded [Unicode.Database] {current next : StateId} (formed : arena.WellFormed) (text : List Char)
    (new : kept ≤ current) (steps : arena.StepsTo kept current)
    (blank : arena.get? current = some { table := .empty }) (bound : next < arena.size) (apart : current ≠ next) :
    (∀ id < arena.size, id ≠ current →
        (arena.fillFolded current (some next) text).get? id = arena.get? id) ∧
      (arena.fillFolded current (some next) text).accepted x current =
        foldedWords text * (arena.fillFolded current (some next) text).accepted x next := by
  induction text generalizing arena current with
  | nil =>
    have terminates : valueTerminator < byteCeiling := by decide
    have threads : Threads arena kept current next {[valueTerminator]}
        (arena.addPath current next [valueTerminator]) :=
      ((threads_zero formed (steps.retarget new next) new blank bound apart).addWord (List.cons_ne_nil _ _)
        (fun byte listed => List.mem_singleton.mp listed ▸ terminates)
        fun word listed => absurd listed (Language.notMem_zero word)).congr (zero_add _)
    refine ⟨fun id _ other => get?_modifyTable_of_ne _ _ (Ne.symm other), ?_⟩
    rw [foldedWords_nil]
    exact threads.accepted_eq (fun _ _ _ => rfl) x
  | cons rune rest ih =>
    rw [fillFolded_cons]
    have threads := threads_variants formed steps new blank rune
    generalize List.foldl _ _ _ = built at threads ⊢
    have pushed := formed.grows_pushEmpty
    have inside := lt_size_of_get? blank
    have fresh := (threads.others arena.size pushed.entry (Nat.ne_of_gt inside)).trans (get?_push_self _)
    obtain ⟨keeps, behind⟩ := ih threads.extends_.formed (Nat.le_trans new (Nat.le_of_lt inside)) threads.steps
      fresh (threads.extends_.lt (pushed.extends_.lt bound)) (Nat.ne_of_gt bound)
    refine ⟨fun id early other => ?_, ?_⟩
    · have there := pushed.extends_.lt early
      calc
        _ = built.get? id := keeps id (threads.extends_.lt there) (Nat.ne_of_lt early)
        _ = arena.pushEmpty.1.get? id := threads.others id there other
        _ = arena.get? id := get?_push_of_lt early
    · rw [threads.accepted_eq keeps x, behind, foldedWords_cons, mul_assoc]

/-- What a text's fragment accepts is what differs from the text in case only, and what is accepted where it
leads. -/
theorem accepted_pushFolded [Unicode.Database] {next : StateId} (formed : arena.WellFormed) (text : List Char)
    (bound : next < arena.size) :
    (arena.pushFolded text (some next)).1.accepted x (arena.pushFolded text (some next)).2 =
      foldedWords text * (arena.pushFolded text (some next)).1.accepted x next := by
  have pushed := formed.grows_pushEmpty
  have steps : arena.pushEmpty.1.StepsTo arena.size arena.size := by
    refine StepsTo.pushTable ⟨fun id state later found => ?_, ?_⟩ ⟨rfl, rfl, rfl⟩
      (by simp [Table.empty, Table.always])
    · exact absurd (lt_size_of_get? found) (Nat.not_lt.mpr later)
    · exact leadsBack_of_size_le arena _
  exact (accepted_fillFolded pushed.extends_.formed text (Nat.le_refl _) steps (get?_push_self _)
    (pushed.extends_.lt bound) (Nat.ne_of_gt bound)).2

end Arena

/-! ## What patterns in any case report -/

namespace Pattern

/-- In front of a state that reports, what is built from a text in any case reports on the values that are made of
a case variant for each rune of the text and on no others. The text itself is such a value, for a rune is one of its
own variants. -/
theorem compile_anyCase_reports_iff [Unicode.Database] [Unicode.LawfulFolding] (text : List Char) (config : Config)
    (cache : TemplateCache) {arena : Arena} (formed : arena.WellFormed) {next : StateId} {x : Continuation}
    (reporting : arena.get? next = some { continuations := [x] }) :
    ∃ entry after,
      ((anyCase (Utf8.encode text)).compile config (some next)).runIn { arena, cache } =
          .ok (.ok entry, after) ∧
        (∀ value : List UInt8, (∀ byte ∈ value, byte < valueTerminator) →
          ∃ found, (Automaton.ofUnion after.arena entry).matched value = .ok found ∧
            (x ∈ found ↔ ∃ runes, Unicode.IsVariant text runes ∧ value = Utf8.encode runes)) ∧
        ∃ found, (Automaton.ofUnion after.arena entry).matched (Utf8.encode text) = .ok found ∧ x ∈ found := by
  have passes : requireText (Utf8.encode text) = .ok text := by
    rw [requireText, Utf8.decode?_eq_some_iff.mpr rfl]
  have goal : next < arena.size := Arena.lt_size_of_get? reporting
  have grown := Arena.pushFolded_grows formed text (Arena.targetWithin_some goal)
  have stays : (arena.pushFolded text (some next)).1.get? next = some { continuations := [x] } :=
    (grown.extends_.kept next goal).trans reporting
  have words := Arena.accepted_pushFolded (x := x) formed text goal
  rw [Regexp.accepted_match stays, mul_one] at words
  have decides (value : List UInt8) (below : ∀ byte ∈ value, byte < valueTerminator) :
      ∃ found, (Automaton.ofUnion (arena.pushFolded text (some next)).1
          (some (arena.pushFolded text (some next)).2)).matched value = .ok found ∧
        (x ∈ found ↔ ∃ runes, Unicode.IsVariant text runes ∧ value = Utf8.encode runes) := by
    obtain ⟨found, ran, _, reports⟩ := Automaton.matched_ofUnion grown.extends_.formed
      (Arena.targetWithin_some grown.entry) value
    refine ⟨found, ran, ?_⟩
    rw [reports, Arena.reports_iff_accepts]
    simp only [Target.accepts_some, ← Arena.mem_accepted, words]
    constructor
    · rintro ⟨_, front, runes, variant, rfl⟩
      exact ⟨runes, variant, (Regexp.terminated_prefix_iff below).mp front⟩
    · rintro ⟨runes, variant, same⟩
      exact ⟨_, (Regexp.terminated_prefix_iff below).mpr same, runes, variant, rfl⟩
  refine ⟨some (arena.pushFolded text (some next)).2, { arena := (arena.pushFolded text (some next)).1, cache },
    ?_, decides, ?_⟩
  · rw [Pattern.compile, passes]
    rfl
  · obtain ⟨found, ran, reports⟩ := decides (Utf8.encode text)
      (Utf8.lt_valueTerminator_of_decode? (Utf8.decode?_eq_some_iff.mpr rfl))
    exact ⟨found, ran, reports.mpr ⟨text, Unicode.isVariant_self text, rfl⟩⟩

/-- A letter that is shorter than one of its variants, the sign for a kelvin. -/
theorem compile_anyCase_reports_iff_kelvin :
    ∃ entry after found,
      ((anyCase (Utf8.encode ['o', 'k'])).compile {} (some 0)).runIn { arena := Arena.matchState 7 } =
          .ok (.ok entry, after) ∧
        (Automaton.ofUnion after.arena entry).matched [0x4F, 0xE2, 0x84, 0xAA] = .ok found ∧ 7 ∈ found := by
  have reporting : (Arena.matchState 7).get? 0 = some { continuations := [7] } := rfl
  obtain ⟨entry, after, compiled, decides, _⟩ := compile_anyCase_reports_iff ['o', 'k'] {} {}
    (Arena.wellFormed_matchState 7) reporting
  obtain ⟨found, ran, reports⟩ := decides [0x4F, 0xE2, 0x84, 0xAA] (by simp [valueTerminator])
  have variant : Unicode.IsVariant ['o', 'k'] ['O', '\u212A'] := by
    simp only [Unicode.IsVariant, Unicode.mem_caseVariants_standard]
    decide +kernel
  exact ⟨entry, after, found, compiled, ran, reports.mpr ⟨_, variant, by decide⟩⟩

end Pattern

end ByteAutomata
