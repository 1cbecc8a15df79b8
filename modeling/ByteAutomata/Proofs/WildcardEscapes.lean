import ByteAutomata.Proofs.ExcludedValues
import ByteAutomata.Proofs.Histories

/-!
What escaped texts report as wildcard patterns.

A wildcard pattern is accepted if and only if it is a text that is written token by token, with no two stars side by
side. A text whose stars and backslashes are escaped is written with literals only, so that it reads what the text reads
as an exact value. With a star behind it, it reads what the text reads as a prefix: with a quote behind the star the
same words, and without the quote longer ones, which stand in front of the same terminated values.
-/

namespace ByteAutomata

open scoped Computability

/-! ## Escaped texts -/

namespace GlobToken

variable {tokens : List GlobToken}

/-- The text with a backslash in front of each star and each backslash. -/
def escaped (text : List UInt8) : List UInt8 :=
  text.flatMap fun byte => if byte = star ∨ byte = backslash then [backslash, byte] else [byte]

/-- An escaped text is written with its bytes as literals, and behind it any other tokens may stand. -/
theorem Spell.escaped_append {bytes : List UInt8} (spells : Spell tokens bytes) (text : List UInt8) :
    Spell (text.map literal ++ tokens) (escaped text ++ bytes) where
  bytes := by
    rw [List.flatMap_append, List.flatMap_map, spells.bytes]
    rfl
  apart := by
    induction text with
    | nil => exact spells.apart
    | cons byte rest ih =>
      apply ih.cons
      rintro next _ ⟨absurd, _⟩
      cases absurd

end GlobToken

namespace Utf8

variable {bytes more : List UInt8}

theorem isValid_iff : isValid bytes = true ↔ ∃ runes, encode runes = bytes := by
  rw [isValid, Option.isSome_iff_exists]
  exact exists_congr fun runes => decode?_eq_some_iff

theorem isValid_append (first : isValid bytes = true) (second : isValid more = true) :
    isValid (bytes ++ more) = true := by
  obtain ⟨runes, rfl⟩ := isValid_iff.mp first
  obtain ⟨others, rfl⟩ := isValid_iff.mp second
  exact isValid_iff.mpr ⟨runes ++ others, List.flatMap_append⟩

/-- A byte below 0x80 is all there is of its rune. -/
theorem encode_eq_singleton {rune : Char} {byte : UInt8} (listed : byte ∈ String.utf8EncodeChar rune)
    (ascii : byte.toNat < 0x80) : String.utf8EncodeChar rune = [byte] := by
  rcases (shaped_encode rune).1.forms with ⟨a, same, _⟩ | ⟨a, b, same, _⟩ | ⟨a, b, c, same, _⟩ | ⟨a, b, c, d, same, _⟩
  · rw [same, List.mem_singleton] at listed
    rw [same, listed]
  all_goals
    rw [same] at listed
    simp only [List.mem_cons, List.not_mem_nil, or_false, ← UInt8.toNat_inj] at listed
    omega

/-- Escaping puts a backslash in front of a rune, or nothing. -/
theorem isValid_escaped_encode (rune : Char) : isValid (GlobToken.escaped (String.utf8EncodeChar rune)) = true := by
  by_cases escapes : ∃ byte ∈ String.utf8EncodeChar rune, byte = GlobToken.star ∨ byte = GlobToken.backslash
  · obtain ⟨byte, listed, special⟩ := escapes
    have ascii : byte.toNat < 0x80 := by rcases special with rfl | rfl <;> decide
    have alone := encode_eq_singleton listed ascii
    apply isValid_iff.mpr
    refine ⟨['\\', rune], ?_⟩
    calc
      encode ['\\', rune] = [GlobToken.backslash] ++ String.utf8EncodeChar rune := by simp [encode]; rfl
      _ = [GlobToken.backslash, byte] := by rw [alone]; rfl
      _ = GlobToken.escaped (String.utf8EncodeChar rune) := by simp [alone, GlobToken.escaped, special]
  · have plain : GlobToken.escaped (String.utf8EncodeChar rune) = (String.utf8EncodeChar rune).flatMap ([·]) :=
      List.flatMap_congr fun byte listed => if_neg fun special => escapes ⟨byte, listed, special⟩
    rw [plain, List.flatMap_singleton']
    exact isValid_iff.mpr ⟨[rune], by simp [encode]⟩

/-- Escaping leaves a text a text. -/
theorem isValid_escaped (valid : isValid bytes = true) : isValid (GlobToken.escaped bytes) = true := by
  obtain ⟨runes, rfl⟩ := isValid_iff.mp valid
  induction runes with
  | nil => exact valid
  | cons rune rest ih =>
    have split : GlobToken.escaped (encode (rune :: rest)) =
        GlobToken.escaped (String.utf8EncodeChar rune) ++ GlobToken.escaped (encode rest) := List.flatMap_append
    rw [split]
    exact isValid_append (isValid_escaped_encode rune) (ih (isValid_iff.mpr ⟨rest, rfl⟩))

end Utf8

/-! ## What the fragments read -/

namespace Arena

variable {arena : Arena} {next last : StateId} {bytes : List UInt8}

theorem letters_eq (byte : UInt8) : letters (· = byte) = {[byte]} := by
  ext word
  exact exists_eq_left

theorem singleton_mul_singleton (front back : List UInt8) : ({front} : Language UInt8) * {back} = {front ++ back} := by
  rw [Language.mul_def]
  exact Set.image2_singleton

/-- A chain reads its bytes. -/
theorem fragment_pushChain (formed : arena.WellFormed) (inside : last < arena.size)
    (early : ∀ byte ∈ bytes, byte < byteCeiling) :
    Fragment arena (arena.pushChain bytes last).1 (arena.pushChain bytes last).2 last {bytes} := by
  induction bytes with
  | nil => exact .refl (.refl _ formed) inside
  | cons byte rest ih =>
    have behind := ih fun other listed => early other (List.mem_cons_of_mem _ listed)
    have first := fragment_single behind.formed behind.inside (early byte List.mem_cons_self)
    rw [pushChain_cons]
    exact (behind.trans first).congr (singleton_mul_singleton [byte] rest)

/-- A state from which every byte leads on reads one byte. -/
theorem fragment_always (formed : arena.WellFormed) (inside : next < arena.size) :
    Fragment arena (arena.pushTable (.always (some next))).1 arena.size next (letters (· < byteCeiling)) where
  extends_ := (formed.grows_always (targetWithin_some inside)).extends_
  inside := (formed.grows_always (targetWithin_some inside)).entry
  goal := inside
  place := Or.inl (Nat.le_refl _)
  reads := by
    intro future keeps x
    have stored := keeps.states arena.size _ (get?_push_self _) (Or.inl (Nat.le_refl _))
    have moves : future.MovesBy arena.size next (· < byteCeiling) false := by
      refine ⟨_, stored, rfl, rfl, rfl, fun byte => ?_⟩
      rw [Table.lookup_always]
      exact ⟨fun below => if_pos below, fun high => if_neg high⟩
    rw [moves.accepted_eq, skipped_false, one_mul]

/-- Literals read their bytes before other tokens read on. -/
theorem globWords_append (text : List UInt8) (tokens : List GlobToken) :
    globWords (text.map .literal ++ tokens) = {text} * globWords tokens := by
  induction text with
  | nil => exact (one_mul _).symm
  | cons byte rest ih =>
    calc
      _ = letters (· = byte) * globWords (rest.map .literal ++ tokens) := rfl
      _ = {[byte]} * {rest} * globWords tokens := by rw [ih, letters_eq, mul_assoc]
      _ = {byte :: rest} * globWords tokens := by rw [singleton_mul_singleton, List.singleton_append]

theorem globWords_map (text : List UInt8) : globWords (text.map .literal) = {terminated text} := by
  have whole := globWords_append text []
  rw [List.append_nil, globWords, letters_eq, singleton_mul_singleton] at whole
  exact whole

/-- The fragment for a value reads the value and the terminator. -/
theorem fragment_pushExact (formed : arena.WellFormed) (inside : next < arena.size)
    (early : ∀ byte ∈ bytes, byte < byteCeiling) :
    Fragment arena (arena.pushExact bytes (some next)).1 (arena.pushExact bytes (some next)).2 next
      {terminated bytes} := by
  have ends : valueTerminator < byteCeiling := by decide
  have last := fragment_single formed inside ends
  exact (last.trans (fragment_pushChain last.formed last.inside early)).congr (singleton_mul_singleton bytes _)

/-- The fragment for a prefix reads the prefix and one more byte. -/
theorem fragment_pushLeading (formed : arena.WellFormed) (inside : next < arena.size)
    (early : ∀ byte ∈ bytes, byte < byteCeiling) :
    Fragment arena (arena.pushLeading bytes (some next)).1 (arena.pushLeading bytes (some next)).2 next
      ({bytes} * letters (· < byteCeiling)) :=
  have last := fragment_always formed inside
  last.trans (fragment_pushChain last.formed last.inside early)

end Arena

namespace Pattern

variable {pattern : Pattern} {words : Language UInt8} {bytes text : List UInt8}

theorem lt_of_isValid (valid : Utf8.isValid text = true) : ∀ byte ∈ text, byte < valueTerminator := by
  obtain ⟨runes, passed⟩ := exists_requireText valid
  exact lt_valueTerminator_of_requireText passed

theorem lt_ceiling_of_isValid (valid : Utf8.isValid text = true) : ∀ byte ∈ text, byte < byteCeiling :=
  fun byte listed => UInt8.lt_trans (lt_of_isValid valid byte listed) (by decide)

/-- In front of a state that reports, a fragment reports on the values that one of its words stands in front of. -/
theorem reports_iff_of_accepted {arena : Arena} {entry next : StateId} {x : Continuation}
    (reporting : arena.get? next = some { continuations := [x] })
    (reads : arena.accepted x entry = words * arena.accepted x next) (value : List UInt8) :
    arena.Reports (some entry) value x ↔ ∃ read ∈ words, read <+: terminated value := by
  rw [Regexp.accepted_match reporting, mul_one] at reads
  rw [Arena.reports_iff_accepts]
  simp only [Target.accepts_some, ← Arena.mem_accepted, reads, and_comm]

/-- In front of a terminated value that begins with the text stand the words that read on behind it, if one of them
stands in front of whatever follows. -/
theorem exists_behind_iff (valid : Utf8.isValid text = true) {value : List UInt8}
    (below : ∀ byte ∈ value, byte < byteCeiling)
    (goesOn : ∀ behind, (∀ byte ∈ behind, byte < byteCeiling) → ∃ read ∈ words, read <+: terminated behind) :
    (∃ read ∈ {text} * words, read <+: terminated value) ↔ text <+: value := by
  have unterminated : ∀ front ∈ ({text} : Language UInt8), ∀ byte ∈ front, byte ≠ valueTerminator := by
    rintro _ rfl byte listed
    exact UInt8.ne_of_lt (lt_of_isValid valid byte listed)
  rw [Arena.exists_mul_iff unterminated]
  constructor
  · rintro ⟨_, rfl, behind, rfl, _⟩
    exact List.prefix_append _ behind
  · rintro ⟨behind, rfl⟩
    exact ⟨text, rfl, behind, rfl, goesOn behind fun byte listed => below byte (List.mem_append_right text listed)⟩

/-- A terminated value begins with a byte below the ceiling if its own bytes are below it. -/
theorem exists_letter (behind : List UInt8) (below : ∀ byte ∈ behind, byte < byteCeiling) :
    ∃ read ∈ Arena.letters (· < byteCeiling), read <+: terminated behind := by
  cases behind with
  | nil => exact ⟨[valueTerminator], ⟨_, by decide, rfl⟩, List.prefix_rfl⟩
  | cons byte rest => exact ⟨[byte], ⟨byte, below byte List.mem_cons_self, rfl⟩, ⟨terminated rest, rfl⟩⟩

/-- A state that spins comes to the first terminator of every value. -/
theorem exists_skipped (behind : List UInt8) :
    ∃ read ∈ Arena.globWords [.any], read <+: terminated behind := by
  have first : ∃ front : List UInt8, (∀ byte ∈ front, byte ≠ valueTerminator) ∧
      terminated front <+: terminated behind := by
    induction behind with
    | nil => exact ⟨[], by simp, List.prefix_rfl⟩
    | cons byte rest ih =>
      by_cases ends : byte = valueTerminator
      · exact ⟨[], by simp, ⟨terminated rest, by rw [ends]; rfl⟩⟩
      · obtain ⟨front, unterminated, stands⟩ := ih
        exact ⟨byte :: front, List.forall_mem_cons.mpr ⟨ends, unterminated⟩, (List.prefix_cons_inj byte).mpr stands⟩
  obtain ⟨front, unterminated, stands⟩ := first
  refine ⟨terminated front, ?_, stands⟩
  exact Language.append_mem_mul (Arena.mem_skipped_true.mpr unterminated) ⟨_, rfl, rfl⟩

section

variable [Unicode.Database]

/-- In front of any state a fragment is built that reads these words. -/
def Reads (pattern : Pattern) (words : Language UInt8) : Prop :=
  ∀ (config : Config) (workshop : Workshop) (next : StateId), workshop.arena.WellFormed → next < workshop.arena.size →
    ∃ built entry, (pattern.compile config (some next)).runIn workshop =
        .ok (.ok (some entry), { workshop with arena := built }) ∧
      workshop.arena.Grows (built, entry) ∧ ∀ x, built.accepted x entry = words * built.accepted x next

/-- A text for which a fragment is built in one go reads what the fragment reads. -/
theorem reads_of_fragment (valid : Utf8.isValid text = true) {push : Arena → Target → Arena × StateId}
    (compiles : ∀ config next, pattern.compile config next = (do
      let _ ← requireText text
      return some (← Compile.onArena fun arena => push arena next)))
    (fragment : ∀ (arena : Arena) (next : StateId), arena.WellFormed → next < arena.size →
      Arena.Fragment arena (push arena (some next)).1 (push arena (some next)).2 next words) : pattern.Reads words := by
  intro config workshop next formed inside
  obtain ⟨runes, passed⟩ := exists_requireText valid
  have built := fragment workshop.arena next formed inside
  refine ⟨_, _, ?_, ⟨built.extends_, built.inside⟩, built.reads _ (built.formed.keptIn _)⟩
  rw [compiles, passed]
  rfl

theorem reads_exact (valid : Utf8.isValid text = true) : (exact text).Reads {terminated text} :=
  reads_of_fragment valid (fun _ _ => rfl) fun _ _ formed inside =>
    Arena.fragment_pushExact formed inside (lt_ceiling_of_isValid valid)

theorem reads_leading (valid : Utf8.isValid text = true) :
    (leading text).Reads ({text} * Arena.letters (· < byteCeiling)) :=
  reads_of_fragment valid (fun _ _ => rfl) fun _ _ formed inside =>
    Arena.fragment_pushLeading formed inside (lt_ceiling_of_isValid valid)

/-- A wildcard pattern that can be read is built as the fragment of its tokens. -/
theorem runIn_wildcard {tokens : List GlobToken} (valid : Utf8.isValid bytes = true)
    (spells : GlobToken.Spell tokens bytes) (config : Config) (next : Target) (workshop : Workshop) :
    ((wildcard bytes).compile config next).runIn workshop =
      .ok (.ok (some (workshop.arena.pushGlob tokens next).2),
        { workshop with arena := (workshop.arena.pushGlob tokens next).1 }) := by
  obtain ⟨runes, passed⟩ := exists_requireText valid
  rw [compile, passed, GlobToken.ofWildcard_eq_ok_iff.mpr spells]
  rfl

theorem reads_wildcard {tokens : List GlobToken} (valid : Utf8.isValid bytes = true)
    (spells : GlobToken.Spell tokens bytes) : (wildcard bytes).Reads (Arena.globWords tokens) := by
  intro config workshop next formed inside
  have early (byte : UInt8) (listed : .literal byte ∈ tokens) : byte < byteCeiling :=
    lt_ceiling_of_isValid valid byte (spells.mem listed)
  exact ⟨_, _, runIn_wildcard valid spells config (some next) workshop,
    Arena.pushGlob_grows formed tokens (Arena.targetWithin_some inside),
    fun x => Arena.accepted_pushGlob formed tokens early inside⟩

/-- A wildcard pattern that is not UTF-8 or cannot be read is refused before anything is built. -/
theorem runIn_wildcard_refused (refused : ¬ GlobToken.WellWritten bytes) (config : Config) (next : Target)
    (workshop : Workshop) :
    ∃ error, ((wildcard bytes).compile config next).runIn workshop = .ok (.error error, workshop) := by
  by_cases valid : Utf8.isValid bytes = true
  · obtain ⟨runes, passed⟩ := exists_requireText valid
    rw [compile, passed]
    cases read : GlobToken.ofWildcard bytes with
    | error error => exact ⟨error, rfl⟩
    | ok tokens => exact absurd ⟨valid, tokens, GlobToken.ofWildcard_eq_ok_iff.mp read⟩ refused
  · have stopped : requireText bytes = .error .invalidUtf8 := by
      rw [requireText, Option.not_isSome_iff_eq_none.mp valid]
    rw [compile, stopped]
    exact ⟨_, rfl⟩

/-! ## What the patterns report -/

/-- The pattern reports on the values for which this holds, built in front of a state that reports as well as added to
a matcher with whatever it has matched before. -/
structure ReportsOn (pattern : Pattern) (holds : List UInt8 → Prop) : Prop where
  built : ∀ (config : Config) (cache : TemplateCache) (arena : Arena) (next : StateId) (x : Continuation),
    arena.WellFormed → arena.get? next = some { continuations := [x] } →
    ∃ entry after, (pattern.compile config (some next)).runIn { arena, cache } = .ok (.ok entry, after) ∧
      ∀ value, (∀ byte ∈ value, byte < byteCeiling) →
        ∃ found, (Automaton.ofUnion after.arena entry).matched value = .ok found ∧ (x ∈ found ↔ holds value)
  added : ∀ (matcher : Matcher) (cache : TemplateCache) (x : Continuation), matcher.Sound → cache.Honest →
    ∃ after left, matcher.add cache pattern x = .ok (.ok (), after, left) ∧
      ∀ value, (∀ byte ∈ value, byte < byteCeiling) →
        ∃ before found, matcher.matched value = .ok before ∧ after.matched value = .ok found ∧
          ∀ y, y ∈ found ↔ y ∈ before ∨ y = x ∧ holds value

/-- Added to a matcher, what reads these words joins what the matcher has reported before. -/
theorem Reads.add_eq (reads : pattern.Reads words) (plain : pattern.properties = []) {matcher : Matcher}
    (sound : matcher.Sound) {cache : TemplateCache} (honest : cache.Honest) (x : Continuation) :
    ∃ after left, matcher.add cache pattern x = .ok (.ok (), after, left) ∧ after.Sound ∧
      ∀ value y, after.arena.Reports after.start value y ↔
        matcher.arena.Reports matcher.start value y ∨ y = x ∧ ∃ read ∈ words, read <+: terminated value := by
  have resolved : (pattern, x).1.Resolved := by
    intro property listed
    rw [plain] at listed
    cases listed
  obtain ⟨fragment, entry, compiled, grown, accepts⟩ :=
    reads matcher.config { arena := Arena.matchState x } 0 (Arena.wellFormed_matchState x) Nat.zero_lt_one
  -- What the pattern is compiled to by itself decides what the call does, and this is the fragment.
  obtain ⟨left, _, ⟨_, ⟨workshop, ran⟩, _⟩ | ⟨_, _, builds, added⟩⟩ := Matcher.add_eq_alone matcher resolved honest
  · cases compiled.symm.trans ran
  · obtain ⟨_, ran⟩ := builds.ran
    cases compiled.symm.trans ran
    obtain ⟨after, joined, soundAfter, _, _, reports⟩ := sound.join_eq builds.extends_.formed builds.packed builds.inside
    rw [joined] at added
    refine ⟨after, left, added, soundAfter, fun value y => (reports value y).trans (or_congr_right ?_)⟩
    have stays : fragment.get? 0 = some { continuations := [x] } := (grown.extends_.kept 0 Nat.zero_lt_one).trans rfl
    have decides := reports_iff_of_accepted stays (accepts x) value
    constructor
    · intro reported
      obtain rfl : y = x := builds.extends_.eq_of_reports reported
      exact ⟨rfl, decides.mp reported⟩
    · rintro ⟨rfl, stands⟩
      exact decides.mpr stands

/-- A pattern reports on the values that one of the words it reads stands in front of. -/
theorem Reads.reportsOn {holds : List UInt8 → Prop} (reads : pattern.Reads words) (plain : pattern.properties = [])
    (front : ∀ value, (∀ byte ∈ value, byte < byteCeiling) →
      ((∃ read ∈ words, read <+: terminated value) ↔ holds value)) : pattern.ReportsOn holds where
  built := by
    intro config cache arena next x formed reporting
    have goal : next < arena.size := Arena.lt_size_of_get? reporting
    obtain ⟨built, entry, compiled, grown, accepts⟩ := reads config { arena, cache } next formed goal
    have stays := (grown.extends_.kept next goal).trans reporting
    refine ⟨_, _, compiled, fun value below => ?_⟩
    obtain ⟨found, ran, _, reports⟩ := Automaton.matched_ofUnion grown.extends_.formed
      (Arena.targetWithin_some grown.entry) value
    refine ⟨found, ran, ?_⟩
    rw [reports, reports_iff_of_accepted stays (accepts x), front value below]
  added := by
    intro matcher cache x sound honest
    obtain ⟨after, left, added, soundAfter, reports⟩ := reads.add_eq plain sound honest x
    refine ⟨after, left, added, fun value below => ?_⟩
    obtain ⟨before, matchedBefore, _, membersBefore⟩ := sound.matched_eq below
    obtain ⟨found, matched, _, members⟩ := soundAfter.matched_eq below
    refine ⟨before, found, matchedBefore, matched, fun y => ?_⟩
    rw [members, reports, membersBefore, front value below]

/-- An exact value is reported on where it stands in front of the terminator. -/
theorem exact_reportsOn (valid : Utf8.isValid text = true) :
    (exact text).ReportsOn fun value => terminated text <+: terminated value :=
  (reads_exact valid).reportsOn rfl fun _ _ => exists_eq_left

theorem leading_reportsOn (valid : Utf8.isValid text = true) : (leading text).ReportsOn fun value => text <+: value :=
  (reads_leading valid).reportsOn rfl fun _ below => exists_behind_iff valid below exists_letter

/-- An escaped text with other tokens behind it. -/
theorem reads_escaped_append (tokens : List GlobToken) (bytes : List UInt8) (valid : Utf8.isValid text = true)
    (spells : GlobToken.Spell tokens bytes) (validBehind : Utf8.isValid bytes = true) :
    (wildcard (GlobToken.escaped text ++ bytes)).Reads ({text} * Arena.globWords tokens) := by
  rw [← Arena.globWords_append]
  exact reads_wildcard (Utf8.isValid_append (Utf8.isValid_escaped valid) validBehind) (spells.escaped_append text)

theorem escaped_reportsOn (valid : Utf8.isValid text = true) :
    (wildcard (GlobToken.escaped text)).ReportsOn fun value => terminated text <+: terminated value := by
  have reads := reads_escaped_append [] [] valid ⟨rfl, List.isChain_nil⟩ (by decide)
  rw [List.append_nil, ← Arena.globWords_append, List.append_nil, Arena.globWords_map] at reads
  exact reads.reportsOn rfl fun _ _ => exists_eq_left

/-- Behind a star the state spins up to the terminator. -/
theorem escaped_star_reportsOn (valid : Utf8.isValid text = true) :
    (wildcard (GlobToken.escaped text ++ [GlobToken.star])).ReportsOn fun value => text <+: value := by
  have reads := reads_escaped_append [.any] _ valid ⟨rfl, List.isChain_singleton _⟩ (by decide +kernel)
  exact reads.reportsOn rfl fun _ below => exists_behind_iff valid below fun behind _ => exists_skipped behind

/-- In front of a quote at the end every byte leads on. -/
theorem escaped_star_quote_reportsOn (valid : Utf8.isValid text = true) :
    (wildcard (GlobToken.escaped text ++ [GlobToken.star, GlobToken.quote])).ReportsOn fun value => text <+: value := by
  have apart : [GlobToken.any, .literal GlobToken.quote].IsChain GlobToken.Apart := by simp [GlobToken.Apart]
  have reads := reads_escaped_append [.any, .literal GlobToken.quote] _ valid ⟨rfl, apart⟩
    (by decide +kernel)
  rw [Arena.globWords, if_pos rfl] at reads
  exact reads.reportsOn rfl fun _ below => exists_behind_iff valid below exists_letter

/-- A wildcard pattern is accepted if and only if it is a text, written with literals, escapes and stars of which no
two are neighbours; a refusal leaves all as it was. An escaped text reports on what the exact text reports on, and with
a star, or a star and a quote, behind it, on what the text as a prefix reports on. -/
theorem wildcard_accepted_iff_and_escaped :
    (∀ (bytes : List UInt8) (config : Config) (next : Target) (workshop : Workshop),
      ((∃ entry after, ((wildcard bytes).compile config next).runIn workshop = .ok (.ok entry, after)) ↔
        GlobToken.WellWritten bytes) ∧
      (¬ GlobToken.WellWritten bytes →
        ∃ error, ((wildcard bytes).compile config next).runIn workshop = .ok (.error error, workshop))) ∧
    ∀ text, Utf8.isValid text = true →
      ((exact text).ReportsOn (fun value => terminated text <+: terminated value) ∧
        (wildcard (GlobToken.escaped text)).ReportsOn fun value => terminated text <+: terminated value) ∧
      (leading text).ReportsOn (fun value => text <+: value) ∧
        (wildcard (GlobToken.escaped text ++ [GlobToken.star])).ReportsOn (fun value => text <+: value) ∧
        (wildcard (GlobToken.escaped text ++ [GlobToken.star, GlobToken.quote])).ReportsOn
          fun value => text <+: value := by
  constructor
  · intro bytes config next workshop
    have refuses (refused : ¬ GlobToken.WellWritten bytes) := runIn_wildcard_refused refused config next workshop
    refine ⟨⟨?_, ?_⟩, refuses⟩
    · rintro ⟨entry, after, accepted⟩
      by_contra refused
      obtain ⟨error, stopped⟩ := refuses refused
      rw [stopped] at accepted
      cases accepted
    · rintro ⟨valid, tokens, spells⟩
      exact ⟨_, _, runIn_wildcard valid spells config next workshop⟩
  · intro text valid
    exact ⟨⟨exact_reportsOn valid, escaped_reportsOn valid⟩, leading_reportsOn valid, escaped_star_reportsOn valid,
      escaped_star_quote_reportsOn valid⟩

end

/-- A text that ends in a star and two backslashes. -/
def starAndBackslashes : List UInt8 := [0x22, 0x2A, 0x5C, 0x5C]

theorem wildcard_accepted_iff_and_escaped_starAndBackslashes :
    Utf8.isValid starAndBackslashes = true ∧
      GlobToken.escaped starAndBackslashes = [0x22, 0x5C, 0x2A, 0x5C, 0x5C, 0x5C, 0x5C] ∧
      ∃ after left found, ({} : Matcher).add {} (wildcard (GlobToken.escaped starAndBackslashes)) 7 =
          .ok (.ok (), after, left) ∧
        after.matched starAndBackslashes = .ok found ∧ 7 ∈ found := by
  have valid : Utf8.isValid starAndBackslashes = true := by decide +kernel
  obtain ⟨⟨_, reports⟩, _⟩ := wildcard_accepted_iff_and_escaped.2 starAndBackslashes valid
  obtain ⟨after, left, added, decides⟩ := reports.added {} {} 7 (Matcher.sound_blank {}) (TemplateCache.holds_empty _)
  obtain ⟨before, found, _, matched, members⟩ := decides starAndBackslashes (by simp [starAndBackslashes, byteCeiling])
  exact ⟨valid, by decide, after, left, found, added, matched, (members 7).mpr (Or.inr ⟨rfl, List.prefix_rfl⟩)⟩

end Pattern

end ByteAutomata
