import ByteAutomata.Proofs.ByteFragments
import ByteAutomata.Proofs.RegexpMeanings

/-!
Globs report what globs mean.

A value fits a sequence of tokens if it can be cut into one piece for each of them: the byte of a literal, and
anything for a star. In the automaton a star makes a state spin, so all the ways to cut a value are followed at
once: what a spinning state accepts is any bytes followed by what it accepts without them. In front of a quote that
ends the pattern a star stands for all that is left of the value, so that the quote is never compared. A wildcard
pattern is read if it is written token by token with no two stars side by side, and then as the tokens it is written
with.
-/

namespace ByteAutomata

open scoped Computability

/-! ## What globs mean -/

namespace GlobToken

/-- A star as a glob, and any other byte as itself. -/
def plain (byte : UInt8) : GlobToken := if byte = star then .any else .literal byte

/-- The bytes of a wildcard pattern as tokens, where a star or a backslash behind a backslash is itself. -/
def unescaped : List UInt8 → List GlobToken
  | [] => []
  | [byte] => [plain byte]
  | byte :: second :: rest =>
    if byte = backslash ∧ (second = star ∨ second = backslash) then .literal second :: unescaped rest
    else plain byte :: unescaped (second :: rest)

/-- The tokens but for a quote at the end right behind a star. -/
def dropQuote (tokens : List GlobToken) : List GlobToken :=
  if [.any, .literal quote] <:+ tokens then tokens.dropLast else tokens

/-- What a token can stand for. -/
def Takes : GlobToken → List UInt8 → Prop
  | .literal byte, piece => piece = [byte]
  | .any, _ => True

/-- The value can be cut into consecutive pieces, one for each token. -/
def Matches (tokens : List GlobToken) (value : List UInt8) : Prop :=
  ∃ pieces, List.Forall₂ Takes tokens pieces ∧ pieces.flatten = value

/-- The bytes that a token is written with. -/
def spelled : GlobToken → List UInt8
  | literal byte => if byte = star ∨ byte = backslash then [backslash, byte] else [byte]
  | any => [star]

/-- The tokens are not both stars. -/
def Apart (first second : GlobToken) : Prop := ¬ (first = any ∧ second = any)

/-- The bytes are written with these tokens, of which no two stars are neighbours. -/
structure Spell (tokens : List GlobToken) (bytes : List UInt8) : Prop where
  bytes : tokens.flatMap spelled = bytes
  apart : tokens.IsChain Apart

/-- A text that is written with tokens of which no two stars are neighbours. -/
def WellWritten (bytes : List UInt8) : Prop := Utf8.isValid bytes = true ∧ ∃ tokens, Spell tokens bytes

variable {tokens rest : List GlobToken} {value : List UInt8} {byte : UInt8}

theorem matches_nil : Matches [] value ↔ value = [] := by
  constructor
  · rintro ⟨pieces, taken, rfl⟩
    cases taken
    rfl
  · rintro rfl
    exact ⟨[], .nil, rfl⟩

theorem matches_literal_cons :
    Matches (.literal byte :: rest) value ↔ ∃ behind, value = byte :: behind ∧ Matches rest behind := by
  constructor
  · rintro ⟨pieces, taken, rfl⟩
    cases taken with
    | cons first others =>
      obtain rfl := first
      exact ⟨_, rfl, _, others, rfl⟩
  · rintro ⟨_, rfl, pieces, others, rfl⟩
    exact ⟨[byte] :: pieces, .cons rfl others, rfl⟩

theorem matches_any_cons :
    Matches (.any :: rest) value ↔ ∃ skipped behind, value = skipped ++ behind ∧ Matches rest behind := by
  constructor
  · rintro ⟨pieces, taken, rfl⟩
    cases taken with
    | cons first others => exact ⟨_, _, rfl, _, others, rfl⟩
  · rintro ⟨skipped, _, rfl, pieces, others, rfl⟩
    exact ⟨skipped :: pieces, .cons trivial others, rfl⟩

theorem dropQuote_nil : dropQuote [] = [] := rfl

theorem dropQuote_literal_cons (byte : UInt8) (rest : List GlobToken) :
    dropQuote (.literal byte :: rest) = .literal byte :: dropQuote rest := by
  have same : [.any, .literal quote] <:+ .literal byte :: rest ↔ [.any, .literal quote] <:+ rest := by
    simp [List.suffix_cons_iff]
  unfold dropQuote
  by_cases closes : [.any, .literal quote] <:+ rest
  · rw [if_pos (same.mpr closes), if_pos closes, List.dropLast_cons_of_ne_nil]
    rintro rfl
    simp at closes
  · rw [if_neg (same.not.mpr closes), if_neg closes]

theorem dropQuote_any_cons (rest : List GlobToken) : dropQuote (.any :: rest) =
    if rest = [.literal quote] then [.any] else .any :: dropQuote rest := by
  by_cases closing : rest = [.literal quote]
  · subst closing
    rfl
  have same : [.any, .literal quote] <:+ .any :: rest ↔ [.any, .literal quote] <:+ rest := by
    rw [List.suffix_cons_iff, List.cons.injEq, eq_comm (a := [_])]
    simp [closing]
  unfold dropQuote
  rw [if_neg closing]
  by_cases closes : [.any, .literal quote] <:+ rest
  · rw [if_pos (same.mpr closes), if_pos closes, List.dropLast_cons_of_ne_nil]
    rintro rfl
    simp at closes
  · rw [if_neg (same.not.mpr closes), if_neg closes]

/-! ## How patterns are read -/

variable {bytes : List UInt8} {offset : Nat} {afterAny : Bool}

theorem ofShell_eq (read : ofShell bytes = .ok tokens) : tokens = bytes.map plain := by
  unfold ofShell at read
  split at read
  · cases read
  · exact (Except.ok.inj read).symm

/-- A token in front of tokens that are read. -/
theorem exists_of_cons_eq_ok {token : GlobToken} {further : Except PatternError (List GlobToken)}
    (read : (token :: ·) <$> further = .ok tokens) : ∃ rest, further = .ok rest ∧ tokens = token :: rest := by
  cases further with
  | error error => cases read
  | ok rest => exact ⟨rest, rfl, (Except.ok.inj read).symm⟩

/-- Reading bytes that begin with a token. -/
theorem ofWildcardFrom_spelled (token : GlobToken) (bytes : List UInt8) :
    ofWildcardFrom offset afterAny (token.spelled ++ bytes) =
      if token = any ∧ afterAny then .error (.adjacentGlobs offset)
      else (token :: ·) <$> ofWildcardFrom (offset + token.spelled.length) (token = any) bytes := by
  cases token with
  | literal byte =>
    by_cases special : byte = star ∨ byte = backslash
    · rw [spelled, if_pos special, List.cons_append, ofWildcardFrom.eq_def]
      simp [special]
    · obtain ⟨noStar, noBackslash⟩ := not_or.mp special
      rw [spelled, if_neg special, List.cons_append, ofWildcardFrom.eq_def]
      simp [noStar, noBackslash]
  | any =>
    have other : star ≠ backslash := by decide
    rw [spelled, List.cons_append, ofWildcardFrom.eq_def]
    simp [other]

/-- Bytes begin with a token, unless they begin with a backslash that escapes nothing. -/
theorem exists_spelled (offset : Nat) (afterAny : Bool) (byte : UInt8) (bytes : List UInt8) :
    (∃ token behind, byte :: bytes = spelled token ++ behind) ∨
      ∃ error, ofWildcardFrom offset afterAny (byte :: bytes) = .error error := by
  by_cases escapes : byte = backslash
  · subst escapes
    cases bytes with
    | nil => exact Or.inr ⟨_, rfl⟩
    | cons second behind =>
      by_cases special : second = star ∨ second = backslash
      · exact Or.inl ⟨literal second, behind, by rw [spelled, if_pos special]; rfl⟩
      · right
        rw [ofWildcardFrom.eq_def]
        simp only [↓reduceIte, special]
        split_ifs
        all_goals exact ⟨_, rfl⟩
  · left
    by_cases starred : byte = star
    · exact ⟨any, bytes, by rw [spelled, starred]; rfl⟩
    · exact ⟨literal byte, bytes, by rw [spelled, if_neg (not_or_intro starred escapes)]; rfl⟩

/-- Bytes that are read are none, or begin with the first token. -/
theorem exists_of_ofWildcardFrom (read : ofWildcardFrom offset afterAny bytes = .ok tokens) :
    bytes = [] ∧ tokens = [] ∨ ∃ token behind rest, bytes = spelled token ++ behind ∧ tokens = token :: rest ∧
      ¬ (token = any ∧ afterAny) ∧
      ofWildcardFrom (offset + token.spelled.length) (token = any) behind = .ok rest := by
  cases bytes with
  | nil =>
    cases read
    exact Or.inl ⟨rfl, rfl⟩
  | cons byte bytes =>
    right
    rcases exists_spelled offset afterAny byte bytes with ⟨token, behind, same⟩ | ⟨error, refused⟩
    · rw [same, ofWildcardFrom_spelled] at read
      split_ifs at read with adjacent
      obtain ⟨rest, further, rfl⟩ := exists_of_cons_eq_ok read
      exact ⟨token, behind, rest, same, rfl, adjacent, further⟩
    · rw [refused] at read
      cases read

/-- The tokens behind another one are those that the bytes are written with. Of the token before it is noted only
whether it is a star. -/
theorem ofWildcardFrom_eq_ok_iff (offset : Nat) (before : GlobToken) (bytes : List UInt8) :
    ofWildcardFrom offset (before = any) bytes = .ok tokens ↔
      tokens.flatMap spelled = bytes ∧ (before :: tokens).IsChain Apart := by
  induction tokens generalizing offset before bytes with
  | nil =>
    constructor
    · intro read
      rcases exists_of_ofWildcardFrom read with ⟨rfl, _⟩ | ⟨_, _, _, _, absurd, _⟩
      · exact ⟨rfl, List.isChain_singleton before⟩
      · cases absurd
    · rintro ⟨rfl, _⟩
      rfl
  | cons token rest ih =>
    rw [List.flatMap_cons, List.isChain_cons_cons]
    constructor
    · intro read
      rcases exists_of_ofWildcardFrom read with ⟨_, absurd⟩ | ⟨_, behind, _, rfl, same, apart, further⟩
      · cases absurd
      · cases same
        obtain ⟨rfl, chain⟩ := (ih _ token behind).mp further
        exact ⟨rfl, fun both => apart ⟨both.2, decide_eq_true both.1⟩, chain⟩
    · rintro ⟨rfl, apart, chain⟩
      have further := (ih (offset + token.spelled.length) token _).mpr ⟨rfl, chain⟩
      rw [ofWildcardFrom_spelled, if_neg fun both => apart ⟨of_decide_eq_true both.2, both.1⟩, further]
      rfl

/-- A wildcard pattern is read as the tokens that it is written with. -/
theorem ofWildcard_eq_ok_iff : ofWildcard bytes = .ok tokens ↔ Spell tokens bytes := by
  have free : (literal 0 :: tokens).IsChain Apart ↔ tokens.IsChain Apart := by
    cases tokens with
    | nil => simp
    | cons token rest => simp [Apart]
  apply (ofWildcardFrom_eq_ok_iff 0 (literal 0) bytes).trans
  rw [free]
  exact ⟨fun spells => ⟨spells.1, spells.2⟩, fun spells => ⟨spells.bytes, spells.apart⟩⟩

/-- The bytes of the literals are among those of the pattern. -/
theorem Spell.mem (spells : Spell tokens bytes) (listed : literal byte ∈ tokens) : byte ∈ bytes := by
  rw [← spells.bytes]
  refine List.mem_flatMap.mpr ⟨_, listed, ?_⟩
  rw [spelled]
  split_ifs
  · exact List.mem_cons_of_mem _ (List.mem_singleton_self byte)
  · exact List.mem_singleton_self byte

theorem unescaped_cons (other : byte ≠ backslash) :
    unescaped (byte :: bytes) = plain byte :: unescaped bytes := by
  cases bytes with
  | nil => rfl
  | cons second behind => rw [unescaped, if_neg fun both => other both.1]

/-- With the escapes resolved the bytes are the tokens that they are written with. -/
theorem Spell.unescaped_eq (spells : Spell tokens bytes) : unescaped bytes = tokens := by
  rw [← spells.bytes]
  induction tokens generalizing bytes with
  | nil => rfl
  | cons token rest ih =>
    have further := ih ⟨rfl, spells.apart.tail⟩
    rw [List.flatMap_cons]
    cases token with
    | literal byte =>
      by_cases special : byte = star ∨ byte = backslash
      · rw [spelled, if_pos special]
        change unescaped (backslash :: byte :: rest.flatMap spelled) = _
        rw [unescaped, if_pos ⟨rfl, special⟩, further]
      · obtain ⟨noStar, noBackslash⟩ := not_or.mp special
        rw [spelled, if_neg special, List.singleton_append, unescaped_cons noBackslash, further, plain, if_neg noStar]
    | any =>
      have other : star ≠ backslash := by decide
      rw [spelled, List.singleton_append, unescaped_cons other, further, plain, if_pos rfl]

/-- A literal stands for a byte of the pattern. -/
theorem eq_of_literal_eq_plain {source : UInt8} (same : .literal byte = plain source) : source = byte := by
  unfold plain at same
  split at same
  · cases same
  · exact (literal.inj same).symm

theorem mem_of_literal_mem_map (listed : .literal byte ∈ bytes.map plain) :
    byte ∈ bytes := by
  obtain ⟨source, member, same⟩ := List.mem_map.mp listed
  exact eq_of_literal_eq_plain same.symm ▸ member

end GlobToken

/-! ## What the fragment accepts -/

namespace Arena

variable {arena : Arena} {id next target : StateId} {state : State} {x : Continuation} {spin : Bool}

/-- The words of one such byte. -/
def letters (moved : UInt8 → Prop) : Language UInt8 := {word | ∃ byte, moved byte ∧ word = [byte]}

theorem cons_mem_letters_mul {moved : UInt8 → Prop} {words : Language UInt8} {byte : UInt8}
    {rest : List UInt8} : byte :: rest ∈ letters moved * words ↔ moved byte ∧ rest ∈ words := by
  rw [Language.mem_mul]
  constructor
  · rintro ⟨_, ⟨letter, moves, rfl⟩, behind, member, same⟩
    obtain ⟨rfl, rfl⟩ := List.cons.inj same
    exact ⟨moves, member⟩
  · rintro ⟨moves, member⟩
    exact ⟨[byte], ⟨byte, moves, rfl⟩, rest, member, rfl⟩

theorem nil_not_mem_letters_mul {moved : UInt8 → Prop} {words : Language UInt8} :
    [] ∉ letters moved * words := by
  rw [Language.mem_mul]
  rintro ⟨_, ⟨letter, _, rfl⟩, behind, _, same⟩
  cases same

theorem nil_not_mem_letters {moved : UInt8 → Prop} : [] ∉ letters moved := by
  rintro ⟨_, _, same⟩
  cases same

/-- What a state reads where it stays if it spins. -/
def skipped (spin : Bool) : Language UInt8 := if spin then (letters (· ≠ valueTerminator))∗ else 1

theorem skipped_false : skipped false = 1 := if_neg Bool.false_ne_true

/-- A state that moves on by such bytes, and may spin. -/
structure MovesBy (arena : Arena) (id target : StateId) (moved : UInt8 → Prop) (spin : Bool) : Prop where
  stored : ∃ state, arena.get? id = some state ∧ state.table.epsilons = [] ∧ state.continuations = [] ∧
    state.table.spinout = (if spin then some id else none) ∧
    ∀ byte, (moved byte → state.table.lookup byte = some target) ∧
      (¬ moved byte → state.table.lookup byte = none)

/-- What it accepts is what it may skip, a byte that it moves on by, and what is accepted then. -/
theorem MovesBy.accepted_eq {moved : UInt8 → Prop} (moves : arena.MovesBy id target moved spin) :
    arena.accepted x id = skipped spin * (letters moved * arena.accepted x target) := by
  obtain ⟨state, found, silent, quiet, spins, leads⟩ := moves.stored
  have step (byte : UInt8) (rest : List UInt8) :
      Target.Accepts (arena.Yields x) (state.table.lookup byte) rest ↔
        moved byte ∧ rest ∈ arena.accepted x target := by
    by_cases moves : moved byte
    · rw [(leads byte).1 moves, Target.accepts_some, and_iff_right moves]
      rfl
    · rw [(leads byte).2 moves]
      simp [Target.not_accepts_none, moves]
  have nothing : [] ∉ arena.accepted x id := by
    rw [mem_accepted, yields_iff found]
    simp [State.Accepts, silent, quiet]
  cases spin with
  | false =>
    rw [skipped_false, one_mul]
    ext read
    cases read with
    | nil => exact iff_of_false nothing nil_not_mem_letters_mul
    | cons byte rest =>
      rw [mem_accepted, yields_iff found, State.accepts_cons_of_silent silent, spins, cons_mem_letters_mul, step]
      simp [Target.not_accepts_none]
  | true =>
    rw [skipped, if_pos rfl]
    refine (Language.self_eq_mul_add_iff nil_not_mem_letters).mp ?_
    ext read
    rw [Language.mem_add]
    cases read with
    | nil => exact iff_of_false nothing (not_or_intro nil_not_mem_letters_mul nil_not_mem_letters_mul)
    | cons byte rest =>
      rw [mem_accepted, yields_iff found, State.accepts_cons_of_silent silent, spins, cons_mem_letters_mul,
        cons_mem_letters_mul, step, if_pos rfl, Target.accepts_some, or_comm]
      rfl

/-- What the tokens read in front of a state, the terminator included. -/
def globWords : List GlobToken → Language UInt8
  | [] => letters (· = valueTerminator)
  | .literal byte :: rest => letters (· = byte) * globWords rest
  | .any :: rest =>
    if rest = [.literal GlobToken.quote] then letters (· < byteCeiling) else skipped true * globWords rest

theorem skipped_mul_skipped (spin : Bool) : skipped spin * skipped true = skipped true := by
  cases spin with
  | false => exact one_mul _
  | true => exact kstar_mul_kstar _

/-- The table of a state that leads nowhere as yet, and may spin. -/
def waiting (current : StateId) (spin : Bool) : Table :=
  { Table.empty with spinout := if spin then some current else none }

theorem wellFormed_waiting (current : StateId) (spin : Bool) : (waiting current spin).WellFormed :=
  Table.wellFormed_empty

@[simp] theorem lookup_waiting (current : StateId) (spin : Bool) (byte : UInt8) :
    (waiting current spin).lookup byte = none :=
  Table.lookup_empty byte

/-- Such a state is given one byte step. -/
theorem movesBy_override {current : StateId} {byte : UInt8} (below : byte < byteCeiling)
    (stored : arena.get? current = some { table := (waiting current spin).override byte (some target) }) :
    arena.MovesBy current target (· = byte) spin := by
  refine ⟨_, stored, rfl, rfl, rfl, fun other => ?_⟩
  rw [Table.lookup_override (wellFormed_waiting current spin) below, lookup_waiting]
  exact ⟨fun same => if_pos same, fun different => if_neg different⟩

/-- Such a state is led on by every byte. -/
theorem movesBy_setDefault {current : StateId}
    (stored : arena.get? current = some { table := (waiting current spin).setDefault (some target) }) :
    arena.MovesBy current target (· < byteCeiling) spin := by
  refine ⟨_, stored, rfl, rfl, rfl, fun byte => ?_⟩
  rw [Table.lookup_setDefault]
  exact ⟨fun below => if_pos below, fun high => if_neg high⟩

/-- A state that is filled with tokens reads them, behind what it skips if it spins already. -/
theorem accepted_fillGlob {current : StateId} (formed : arena.WellFormed) (tokens : List GlobToken)
    (early : ∀ byte, .literal byte ∈ tokens → byte < byteCeiling) (goal : next < arena.size)
    (blank : arena.get? current = some { table := waiting current spin }) :
    (arena.fillGlob current (some next) tokens).accepted x current =
      skipped spin * (globWords tokens * (arena.fillGlob current (some next) tokens).accepted x next) := by
  induction tokens generalizing arena current spin with
  | nil =>
    have terminates : valueTerminator < byteCeiling := by decide
    have stored := get?_modifyTable_self (·.override valueTerminator (some next)) blank
    rw [fillGlob, globWords]
    exact (movesBy_override terminates stored).accepted_eq
  | cons token rest ih =>
    have earlyRest (byte : UInt8) (listed : .literal byte ∈ rest) : byte < byteCeiling :=
      early byte (List.mem_cons_of_mem _ listed)
    have inside := lt_size_of_get? blank
    cases token with
    | literal byte =>
      -- The state gets its byte step and is not changed any more; what follows fills the new state.
      let stepped := arena.pushEmpty.1.modifyTable current (·.override byte (some arena.size))
      obtain ⟨grown, entry, fresh⟩ := formed.extends_stepped (Nat.zero_le _) inside byte
      have goalIn : next < stepped.size := grown.lt goal
      have waits : stepped.get? arena.size = some { table := waiting arena.size false } := fresh
      have behind := ih grown.formed earlyRest goalIn waits
      have filled : Extends arena.size stepped (stepped.fillGlob arena.size (some next) rest) :=
        fillGlob_extends grown.formed (Nat.le_refl _) entry (targetWithin_some goalIn) rest
      have moves : (stepped.fillGlob arena.size (some next) rest).MovesBy current arena.size (· = byte) spin :=
        movesBy_override (early byte List.mem_cons_self) ((filled.kept current inside).trans
          (get?_modifyTable_self _ ((get?_push_of_lt inside).trans blank)))
      change (stepped.fillGlob arena.size (some next) rest).accepted x current = _
      calc
        _ = skipped spin * (letters (· = byte) *
            (stepped.fillGlob arena.size (some next) rest).accepted x arena.size) := moves.accepted_eq
        _ = skipped spin * (letters (· = byte) * (globWords rest *
            (stepped.fillGlob arena.size (some next) rest).accepted x next)) := by
          rw [behind, skipped_false, one_mul]
        _ = skipped spin * (globWords (.literal byte :: rest) *
            (stepped.fillGlob arena.size (some next) rest).accepted x next) := by rw [globWords, mul_assoc]
    | any =>
      by_cases closes : rest = [.literal GlobToken.quote]
      · rw [fillGlob, if_pos closes, globWords, if_pos closes]
        exact (movesBy_setDefault (get?_modifyTable_self _ blank)).accepted_eq
      · -- The state spins from now on. If it does so already, that reads nothing new.
        let spinning := arena.setSpinout current (some current)
        have spun : Extends 0 arena spinning :=
          formed.extends_modify (Nat.zero_le _) _ fun state found => (formed.fits found).setSpinout
            (targetWithin_some inside)
        have stored : spinning.get? current = some { table := waiting current true } :=
          get?_modifyTable_self _ blank
        rw [fillGlob, if_neg closes, globWords, if_neg closes]
        calc
          _ = skipped true * (globWords rest * (spinning.fillGlob current (some next) rest).accepted x next) :=
            ih spun.formed earlyRest (spun.lt goal) stored
          _ = skipped spin * skipped true *
              (globWords rest * (spinning.fillGlob current (some next) rest).accepted x next) := by
            rw [skipped_mul_skipped]
          _ = skipped spin *
              (skipped true * globWords rest * (spinning.fillGlob current (some next) rest).accepted x next) := by
            rw [mul_assoc, mul_assoc]

/-- What a glob's fragment accepts is what its tokens read, and what is accepted where it leads. -/
theorem accepted_pushGlob (formed : arena.WellFormed) (tokens : List GlobToken)
    (early : ∀ byte, .literal byte ∈ tokens → byte < byteCeiling) (goal : next < arena.size) :
    (arena.pushGlob tokens (some next)).1.accepted x (arena.pushGlob tokens (some next)).2 =
      globWords tokens * (arena.pushGlob tokens (some next)).1.accepted x next := by
  have pushed := formed.grows_pushEmpty
  have blank : arena.pushEmpty.1.get? arena.size = some { table := waiting arena.size false } := get?_push_self _
  have filled := accepted_fillGlob (x := x) pushed.extends_.formed tokens early (pushed.extends_.lt goal) blank
  rw [skipped_false, one_mul] at filled
  exact filled

/-! ## What the tokens read of a value -/

/-- A state that spins may skip any word that has no terminator in it. -/
theorem mem_skipped_true {word : List UInt8} :
    word ∈ skipped true ↔ ∀ byte ∈ word, byte ≠ valueTerminator := by
  rw [skipped, if_pos rfl, Language.mem_kstar]
  constructor
  · rintro ⟨pieces, rfl, each⟩ byte listed
    obtain ⟨piece, member, listed⟩ := List.mem_flatten.mp listed
    obtain ⟨letter, moves, rfl⟩ := each piece member
    exact List.mem_singleton.mp listed ▸ moves
  · intro each
    refine ⟨word.map ([·]), by simp [← List.flatMap_def], fun piece member => ?_⟩
    obtain ⟨byte, listed, rfl⟩ := List.mem_map.mp member
    exact ⟨byte, each byte listed, rfl⟩

/-- What stands in front of a terminated value and starts with a word that has no terminator in it is that word in
front of the value and the rest behind it. -/
theorem exists_mul_iff {fronts words : Language UInt8} {value : List UInt8}
    (unterminated : ∀ front ∈ fronts, ∀ byte ∈ front, byte ≠ valueTerminator) :
    (∃ read ∈ fronts * words, read <+: terminated value) ↔
      ∃ front ∈ fronts, ∃ behind, value = front ++ behind ∧ ∃ read ∈ words, read <+: terminated behind := by
  have cancel (front back behind : List UInt8) :
      front ++ back <+: terminated (front ++ behind) ↔ back <+: terminated behind := by
    rw [terminated, List.append_assoc, List.prefix_append_right_inj, terminated]
  constructor
  · rintro ⟨_, member, stands⟩
    obtain ⟨front, frontMember, back, backMember, rfl⟩ := Language.mem_mul.mp member
    rcases List.prefix_concat_iff.mp ((List.prefix_append front back).trans stands) with same | ⟨behind, rfl⟩
    · exact absurd rfl (unterminated front frontMember valueTerminator (same ▸ List.mem_concat_self))
    · exact ⟨front, frontMember, behind, rfl, back, backMember, (cancel front back behind).mp stands⟩
  · rintro ⟨front, frontMember, behind, rfl, back, backMember, stands⟩
    exact ⟨front ++ back, Language.append_mem_mul frontMember backMember, (cancel front back behind).mpr stands⟩

/-- In front of a value's terminator the tokens read just the values that fit them. -/
theorem exists_globWords_iff {tokens : List GlobToken} {value : List UInt8}
    (early : ∀ byte, .literal byte ∈ tokens → byte < valueTerminator)
    (below : ∀ byte ∈ value, byte < valueTerminator) :
    (∃ read ∈ globWords tokens, read <+: terminated value) ↔
      GlobToken.Matches (GlobToken.dropQuote tokens) value := by
  induction tokens generalizing value with
  | nil =>
    rw [GlobToken.dropQuote_nil, GlobToken.matches_nil]
    constructor
    · rintro ⟨_, ⟨_, rfl, rfl⟩, (stands : terminated [] <+: terminated value)⟩
      exact (Regexp.terminated_prefix_iff below).mp stands
    · rintro rfl
      exact ⟨[valueTerminator], ⟨_, rfl, rfl⟩, List.prefix_rfl⟩
  | cons token rest ih =>
    have earlyRest (byte : UInt8) (listed : .literal byte ∈ rest) : byte < valueTerminator :=
      early byte (List.mem_cons_of_mem _ listed)
    cases token with
    | literal byte =>
      have unterminated (front : List UInt8) (member : front ∈ letters (· = byte)) (letter : UInt8)
          (listed : letter ∈ front) : letter ≠ valueTerminator := by
        obtain ⟨_, rfl, rfl⟩ := member
        exact List.mem_singleton.mp listed ▸ UInt8.ne_of_lt (early _ List.mem_cons_self)
      rw [globWords, exists_mul_iff unterminated, GlobToken.dropQuote_literal_cons, GlobToken.matches_literal_cons]
      constructor
      · rintro ⟨_, ⟨_, rfl, rfl⟩, behind, rfl, reads⟩
        exact ⟨behind, rfl, (ih earlyRest fun letter listed => below letter (List.mem_cons_of_mem _ listed)).mp reads⟩
      · rintro ⟨behind, rfl, fits⟩
        exact ⟨[byte], ⟨byte, rfl, rfl⟩, behind, rfl,
          (ih earlyRest fun letter listed => below letter (List.mem_cons_of_mem _ listed)).mpr fits⟩
    | any =>
      by_cases closes : rest = [.literal GlobToken.quote]
      · -- The quote is not compared, and the terminator is a byte to move on by if nothing else is left.
        subst closes
        rw [globWords, if_pos rfl, GlobToken.dropQuote_any_cons, if_pos rfl]
        refine iff_of_true ?_ (GlobToken.matches_any_cons.mpr
          ⟨value, [], (List.append_nil value).symm, GlobToken.matches_nil.mpr rfl⟩)
        cases value with
        | nil => exact ⟨[valueTerminator], ⟨_, by decide, rfl⟩, List.prefix_rfl⟩
        | cons byte behind =>
          exact ⟨[byte], ⟨byte, UInt8.lt_trans (below byte List.mem_cons_self) (by decide), rfl⟩,
            ⟨terminated behind, rfl⟩⟩
      · rw [globWords, if_neg closes, exists_mul_iff fun front member => mem_skipped_true.mp member,
          GlobToken.dropQuote_any_cons, if_neg closes, GlobToken.matches_any_cons]
        constructor
        · rintro ⟨front, _, behind, rfl, reads⟩
          exact ⟨front, behind, rfl,
            (ih earlyRest fun byte listed => below byte (List.mem_append_right _ listed)).mp reads⟩
        · rintro ⟨front, behind, rfl, fits⟩
          have skips (byte : UInt8) (listed : byte ∈ front) : byte ≠ valueTerminator :=
            UInt8.ne_of_lt (below byte (List.mem_append_left _ listed))
          exact ⟨front, mem_skipped_true.mpr skips, behind, rfl,
            (ih earlyRest fun byte listed => below byte (List.mem_append_right _ listed)).mpr fits⟩

end Arena

/-! ## What glob patterns report -/

/-- Bytes that are let pass as a text stay below the terminator. -/
theorem lt_valueTerminator_of_requireText {bytes : List UInt8} {text : List Char}
    (passed : requireText bytes = .ok text) : ∀ byte ∈ bytes, byte < valueTerminator := by
  unfold requireText at passed
  split at passed
  · rename_i decoded
    exact Utf8.lt_valueTerminator_of_decode? decoded
  · cases passed

namespace Pattern

variable {pattern : Pattern} {tokens : List GlobToken}

/-- The tokens that a shell or a wildcard pattern is written with. -/
def globTokens? : Pattern → Option (List GlobToken)
  | shell bytes => some (bytes.map GlobToken.plain)
  | wildcard bytes => some (GlobToken.unescaped bytes)
  | _ => none

/-- A text whose tokens can be read is compiled to the fragment of its tokens. -/
theorem exists_of_runIn_pushGlob {bytes : List UInt8} {read : Except PatternError (List GlobToken)} {next : Target}
    {workshop after : Workshop} {entry : Target}
    (compiled : Compile.runIn (do
      let _ ← requireText bytes
      let tokens ← read
      return some (← Compile.onArena fun arena => arena.pushGlob tokens next)) workshop = .ok (.ok entry, after)) :
    ∃ tokens, read = .ok tokens ∧ (∀ byte ∈ bytes, byte < valueTerminator) ∧
      entry = some (workshop.arena.pushGlob tokens next).2 ∧
      after.arena = (workshop.arena.pushGlob tokens next).1 := by
  obtain ⟨text, passed, compiled⟩ := Compile.exists_of_runIn_checked compiled
  obtain ⟨tokens, done, compiled⟩ := Compile.exists_of_runIn_checked compiled
  cases compiled
  exact ⟨tokens, done, lt_valueTerminator_of_requireText passed, rfl, rfl⟩

/-- What a glob pattern is compiled to is the fragment of the tokens that it is written with. -/
theorem compile_globTokens [Unicode.Database] {config : Config} {next : Target} {workshop after : Workshop}
    {entry : Target} (written : pattern.globTokens? = some tokens)
    (compiled : (pattern.compile config next).runIn workshop = .ok (.ok entry, after)) :
    (∀ byte, .literal byte ∈ tokens → byte < valueTerminator) ∧
      entry = some (workshop.arena.pushGlob tokens next).2 ∧
      after.arena = (workshop.arena.pushGlob tokens next).1 := by
  cases pattern with
  | shell bytes =>
    obtain rfl := Option.some.inj written
    obtain ⟨tokens, read, early, built⟩ := exists_of_runIn_pushGlob compiled
    obtain rfl := GlobToken.ofShell_eq read
    exact ⟨fun byte listed => early byte (GlobToken.mem_of_literal_mem_map listed), built⟩
  | wildcard bytes =>
    obtain rfl := Option.some.inj written
    obtain ⟨tokens, read, early, built⟩ := exists_of_runIn_pushGlob compiled
    have spells := GlobToken.ofWildcard_eq_ok_iff.mp read
    rw [spells.unescaped_eq]
    exact ⟨fun byte listed => early byte (spells.mem listed), built⟩
  | _ => cases written

/-- In front of a state that reports, what is built from a glob pattern reports on the values that fit its tokens
and on no others, where a quote that ends the pattern behind a star is left out. -/
theorem compile_reports_iff_matches [Unicode.Database] (written : pattern.globTokens? = some tokens) {config : Config}
    {cache : TemplateCache} {arena : Arena} (formed : arena.WellFormed) {next : StateId} {x : Continuation}
    (reporting : arena.get? next = some { continuations := [x] }) {entry : Target} {after : Workshop}
    (compiled : (pattern.compile config (some next)).runIn { arena, cache } = .ok (.ok entry, after))
    (value : List UInt8) (below : ∀ byte ∈ value, byte < valueTerminator) :
    ∃ found, (Automaton.ofUnion after.arena entry).matched value = .ok found ∧
      (x ∈ found ↔ GlobToken.Matches (GlobToken.dropQuote tokens) value) := by
  obtain ⟨early, rfl, built⟩ := compile_globTokens written compiled
  have goal : next < arena.size := Arena.lt_size_of_get? reporting
  have grown := Arena.pushGlob_grows formed tokens (Arena.targetWithin_some goal)
  have stays : (arena.pushGlob tokens (some next)).1.get? next = some { continuations := [x] } :=
    (grown.extends_.kept next goal).trans reporting
  have words := Arena.accepted_pushGlob (x := x) formed tokens
    (fun byte listed => UInt8.lt_trans (early byte listed) (by decide)) goal
  rw [Regexp.accepted_match stays, mul_one] at words
  obtain ⟨found, ran, _, reports⟩ := Automaton.matched_ofUnion grown.extends_.formed
    (Arena.targetWithin_some grown.entry) value
  rw [built]
  refine ⟨found, ran, ?_⟩
  rw [reports, Arena.reports_iff_accepts, ← Arena.exists_globWords_iff early below]
  simp only [Target.accepts_some, ← Arena.mem_accepted, words, and_comm]

/-- A star that is escaped in front of one that is not, and a value that goes on behind the first of them. -/
theorem compile_reports_iff_matches_escaped :
    (wildcard [0x22, 0x61, 0x5C, 0x2A, 0x2A, 0x22]).globTokens? =
        some [.literal 0x22, .literal 0x61, .literal 0x2A, .any, .literal 0x22] ∧
      ∃ entry after found,
        ((wildcard [0x22, 0x61, 0x5C, 0x2A, 0x2A, 0x22]).compile {} (some 0)).runIn
          { arena := Arena.matchState 7 } = .ok (.ok entry, after) ∧
        (Automaton.ofUnion after.arena entry).matched [0x22, 0x61, 0x2A, 0x62, 0x22] = .ok found ∧ 7 ∈ found := by
  have written : (wildcard [0x22, 0x61, 0x5C, 0x2A, 0x2A, 0x22]).globTokens? =
      some [.literal 0x22, .literal 0x61, .literal 0x2A, .any, .literal 0x22] := by decide
  obtain ⟨entry, after, compiled⟩ : ∃ entry after,
      ((wildcard [0x22, 0x61, 0x5C, 0x2A, 0x2A, 0x22]).compile {} (some 0)).runIn
        { arena := Arena.matchState 7 } = .ok (.ok entry, after) := Regexp.exists_of_isSome (by decide +kernel)
  obtain ⟨found, ran, reports⟩ := compile_reports_iff_matches written (Arena.wellFormed_matchState 7) rfl compiled
    [0x22, 0x61, 0x2A, 0x62, 0x22] (by simp [valueTerminator])
  have fits : List.Forall₂ GlobToken.Takes [.literal 0x22, .literal 0x61, .literal 0x2A, .any]
      [[0x22], [0x61], [0x2A], [0x62, 0x22]] := .cons rfl (.cons rfl (.cons rfl (.cons trivial .nil)))
  exact ⟨written, entry, after, found, compiled, ran, reports.mpr ⟨_, fits, rfl⟩⟩

end Pattern

end ByteAutomata
