import ByteAutomata.Fragment.AnyRune
import ByteAutomata.Proofs.RuneTries

/-!
Fragments for runes.

Between the bytes of two runes of one length a trie adds three parts: what begins with the first byte
of the lower one and is not less, what begins with a byte strictly between, and what begins with the
first byte of the upper one and is not greater. The fragment of a set reads one of its runes, whichever
intervals the set lists.
-/

namespace ByteAutomata

namespace RuneTrie

variable {origin : Arena} {goal root node : StateId} {trie middle after : RuneTrie}
  {path bytes lows highs : List UInt8} {length : Nat}

theorem succ_le_iff {byte bound other : UInt8} (less : byte < bound) : byte + 1 ≤ other ↔ byte < other := by
  rw [UInt8.lt_iff_toNat_lt] at less
  have small := bound.toNat_lt
  rw [UInt8.le_iff_toNat_le, UInt8.lt_iff_toNat_lt, UInt8.toNat_add]
  simp only [UInt8.reduceToNat]
  omega

theorem le_pred_iff {byte bound other : UInt8} (less : bound < byte) : other ≤ byte - 1 ↔ other < byte := by
  rw [UInt8.lt_iff_toNat_lt] at less
  rw [UInt8.le_iff_toNat_le, UInt8.lt_iff_toNat_lt, UInt8.toNat_sub]
  have small := byte.toNat_lt
  simp only [UInt8.reduceToNat]
  omega

/-- What has the shape of a rune is not read as part of a longer such word. -/
theorem Grown.unread (grown : trie.Grown origin goal root) {byte second : UInt8} {rest : List UInt8}
    (shaped : Utf8.Shaped length (path ++ byte :: second :: rest)) :
    trie.follow (some root) (path ++ [byte]) ≠ some goal := by
  intro read
  obtain ⟨other, early⟩ := grown.shaped _ (read.trans grown.aims.symm)
  have long := shaped.count
  have short := early.count
  obtain ⟨opens, allows, _⟩ := (Utf8.opens_append_cons path byte _).mp shaped.opens
  have same : other = length := opens.length_eq allows early.opens
  simp only [List.length_append, List.length_cons, List.length_nil] at long short
  omega

theorem continues_of_shaped {byte next : UInt8} {more : List UInt8}
    (shaped : Utf8.Shaped length ((path ++ [byte]) ++ next :: more)) : Utf8.IsContinuation next := by
  have allows := ((Utf8.opens_append_cons _ next more).mp shaped.opens).2.1
  rw [List.length_append, List.length_singleton] at allows
  exact allows

/-- Words of one length that go on with the same last byte are equal. -/
theorem eq_single_of_head {byte : UInt8} {rest : List UInt8} (shaped : Utf8.Shaped length (path ++ [byte]))
    (whole : Utf8.Shaped length (path ++ rest)) (head : rest.head? = some byte) : rest = [byte] := by
  have single := shaped.count
  have size := whole.count
  cases rest with
  | nil => cases head
  | cons first tail =>
    simp only [List.length_append, List.length_cons, List.length_nil] at size single
    rw [List.eq_nil_of_length_eq_zero (by omega : tail.length = 0), Option.some.inj head]

/-- Leading a range of bytes to the tail of the right length adds what begins with these bytes. -/
theorem Grown.setTail_adds (grown : trie.Grown origin goal root) (placed : trie.Placed root path node)
    (count : Nat) {lo hi : UInt8} (order : lo ≤ hi) (below : hi < byteCeiling)
    (opens : Utf8.Opens length path)
    (allows : ∀ byte, lo ≤ byte → byte ≤ hi → Utf8.Allows length path.length byte)
    (whole : path.length + 1 + count = length) :
    Adds origin goal root path (fun word => ∃ byte rest, word = path ++ byte :: rest ∧ lo ≤ byte ∧
      byte ≤ hi ∧ Utf8.Shaped length word) trie
      ((trie.tail count).1.setRange node lo hi (trie.tail count).2) := by
  obtain ⟨tailed, leads, present, _⟩ := grown.tail_adds count path
  rw [leads]
  exact tailed.trans_of_none (tailed.grown.setRange_adds (tailed.placed grown placed (by simp)) count
    present order below opens allows whole)

/-! ## Above the bytes of a rune -/

/-- Words behind a path that begin with the same byte as `bytes` and are not less. -/
def From (length : Nat) (path bytes word : List UInt8) : Prop :=
  ∃ rest, word = path ++ rest ∧ Utf8.Shaped length word ∧ rest.head? = bytes.head? ∧ bytes ≤ rest

theorem from_cons_iff (path : List UInt8) (byte second : UInt8) (rest word : List UInt8) :
    From length path (byte :: second :: rest) word ↔
      From length (path ++ [byte]) (second :: rest) word ∨
        ∃ next more, word = (path ++ [byte]) ++ next :: more ∧ second < next ∧
          Utf8.Shaped length word := by
  constructor
  · rintro ⟨_ | ⟨first, tail⟩, rfl, shaped, head, above⟩
    · cases head
    · obtain rfl := Option.some.inj head
      rw [List.cons_le_cons_iff] at above
      have tailAbove := (above.resolve_left (UInt8.lt_irrefl _)).2
      cases tail with
      | nil => simp at tailAbove
      | cons next more =>
        rcases List.cons_le_cons_iff.mp tailAbove with greater | ⟨rfl, _⟩
        · exact Or.inr ⟨next, more, by simp, greater, shaped⟩
        · exact Or.inl ⟨second :: more, by simp, shaped, rfl, tailAbove⟩
  · rintro (⟨tail, rfl, shaped, head, above⟩ | ⟨next, more, rfl, greater, shaped⟩)
    · refine ⟨byte :: tail, by simp, shaped, rfl, ?_⟩
      rw [List.cons_le_cons_iff]
      exact Or.inr ⟨rfl, above⟩
    · refine ⟨byte :: next :: more, by simp, shaped, rfl, ?_⟩
      rw [List.cons_le_cons_iff, List.cons_le_cons_iff]
      exact Or.inr ⟨rfl, Or.inl greater⟩

theorem Grown.setByte_adds (grown : trie.Grown origin goal root) (placed : trie.Placed root path node)
    {byte : UInt8} (below : byte < byteCeiling) (shaped : Utf8.Shaped length (path ++ [byte])) :
    Adds origin goal root path (· = path ++ [byte]) trie (trie.setRange node byte byte trie.goal) := by
  obtain ⟨opens, allows, _⟩ := (Utf8.opens_append_cons path byte []).mp shaped.opens
  have count := shaped.count
  rw [List.length_append, List.length_singleton] at count
  refine (grown.setRange_adds placed 0 grown.goal_ne_none (UInt8.le_refl byte) below opens
    (fun other above most => UInt8.le_antisymm above most ▸ allows) count).congr fun word => ?_
  constructor
  · rintro ⟨other, rest, rfl, above, most, whole⟩
    have size := whole.count
    rw [List.length_append, List.length_cons] at size
    have ended : rest = [] := List.eq_nil_of_length_eq_zero (by omega)
    rw [ended, UInt8.le_antisymm most above]
  · rintro rfl
    exact ⟨byte, [], rfl, UInt8.le_refl byte, UInt8.le_refl byte, shaped⟩

/-- Where one byte ends the words of a length, it is all that begins with it behind the path. -/
theorem Grown.setByte_adds_heads (grown : trie.Grown origin goal root) (placed : trie.Placed root path node)
    {byte : UInt8} (below : byte < byteCeiling) (shaped : Utf8.Shaped length (path ++ [byte]))
    {among : List UInt8 → Prop} (itself : among [byte]) :
    Adds origin goal root path (fun word => ∃ rest, word = path ++ rest ∧ Utf8.Shaped length word ∧
      rest.head? = some byte ∧ among rest) trie (trie.setRange node byte byte trie.goal) := by
  refine (grown.setByte_adds placed below shaped).congr fun word => ?_
  constructor
  · rintro rfl
    exact ⟨[byte], rfl, shaped, rfl, itself⟩
  · rintro ⟨rest, rfl, whole, head, _⟩
    rw [eq_single_of_head shaped whole head]

/-- Leading the continuations above `second` to a tail adds what goes on with a greater one. -/
theorem Grown.setAbove_adds (grown : trie.Grown origin goal root) {byte second : UInt8} {rest : List UInt8}
    (placed : trie.Placed root (path ++ [byte]) node) (less : second < greatestContinuation)
    (shaped : Utf8.Shaped length ((path ++ [byte]) ++ second :: rest)) :
    Adds origin goal root (path ++ [byte]) (fun word => ∃ next more, word = (path ++ [byte]) ++ next :: more ∧
      second < next ∧ Utf8.Shaped length word) trie
      ((trie.tail rest.length).1.setRange node (second + 1) greatestContinuation (trie.tail rest.length).2) := by
  have opens := ((Utf8.opens_append_cons _ second rest).mp shaped.opens).1
  have continues := continues_of_shaped shaped
  have count := shaped.count
  rw [List.length_append, List.length_cons] at count
  have allows (next : UInt8) (above : second + 1 ≤ next) (most : next ≤ greatestContinuation) :
      Utf8.Allows length (path ++ [byte]).length next := by
    rw [List.length_append, List.length_singleton]
    exact ⟨UInt8.le_trans continues.1 (UInt8.le_of_lt ((succ_le_iff less).mp above)), most⟩
  refine (grown.setTail_adds placed rest.length ((succ_le_iff less).mpr less) (by decide) opens allows
    (by omega)).congr fun word => ⟨?_, ?_⟩
  · rintro ⟨next, more, same, above, _, whole⟩
    exact ⟨next, more, same, (succ_le_iff less).mp above, whole⟩
  · rintro ⟨next, more, same, greater, whole⟩
    exact ⟨next, more, same, (succ_le_iff less).mpr greater, (continues_of_shaped (same ▸ whole)).2, whole⟩

theorem addFrom_cons (trie : RuneTrie) (node : StateId) (byte second : UInt8) (rest : List UInt8) :
    trie.addFrom node (byte :: second :: rest) =
      if second < greatestContinuation then
        RuneTrie.setRange
          (((trie.child node byte).1.addFrom (trie.child node byte).2 (second :: rest)).tail
            rest.length).1 (trie.child node byte).2 (second + 1) greatestContinuation
          (((trie.child node byte).1.addFrom (trie.child node byte).2 (second :: rest)).tail
            rest.length).2
      else (trie.child node byte).1.addFrom (trie.child node byte).2 (second :: rest) := by
  rw [addFrom]

theorem Grown.addFrom_adds (grown : trie.Grown origin goal root) (placed : trie.Placed root path node)
    (small : ∀ byte ∈ bytes, byte < byteCeiling) (present : bytes ≠ [])
    (shaped : Utf8.Shaped length (path ++ bytes)) :
    Adds origin goal root path (From length path bytes) trie (trie.addFrom node bytes) := by
  induction bytes generalizing trie node path with
  | nil => exact absurd rfl present
  | cons byte rest ih =>
    have below := small byte List.mem_cons_self
    cases rest with
    | nil => exact grown.setByte_adds_heads placed below shaped (List.le_refl _)
    | cons second rest =>
      obtain ⟨opened, child⟩ := grown.child_adds placed below (grown.unread shaped)
      have split : path ++ byte :: second :: rest = (path ++ [byte]) ++ second :: rest := by simp
      have behind := ih opened.grown child (fun other listed => small other (List.mem_cons_of_mem _ listed))
        (List.cons_ne_nil _ _) (split ▸ shaped)
      rw [addFrom_cons]
      by_cases less : second < greatestContinuation
      · have upper := behind.grown.setAbove_adds (behind.placed opened.grown child (by simp)) less (split ▸ shaped)
        rw [if_pos less]
        exact (opened.trans_of_none (behind.trans upper).shorten).congr fun word =>
          (from_cons_iff path byte second rest word).symm
      · rw [if_neg less]
        refine (opened.trans_of_none behind.shorten).congr fun word => ?_
        rw [from_cons_iff]
        refine (or_iff_left ?_).symm
        rintro ⟨next, more, same, greater, whole⟩
        exact less (UInt8.lt_of_lt_of_le greater (continues_of_shaped (same ▸ whole)).2)

/-! ## Below the bytes of a rune -/

/-- Words behind a path that begin with the same byte as `bytes` and are not greater. -/
def UpTo (length : Nat) (path bytes word : List UInt8) : Prop :=
  ∃ rest, word = path ++ rest ∧ Utf8.Shaped length word ∧ rest.head? = bytes.head? ∧ rest ≤ bytes

theorem upTo_cons_iff (path : List UInt8) (byte second : UInt8) (rest word : List UInt8)
    (count : path.length + 1 < length) :
    UpTo length path (byte :: second :: rest) word ↔
      (∃ next more, word = (path ++ [byte]) ++ next :: more ∧ next < second ∧
        Utf8.Shaped length word) ∨ UpTo length (path ++ [byte]) (second :: rest) word := by
  constructor
  · rintro ⟨_ | ⟨first, tail⟩, rfl, shaped, head, below⟩
    · cases head
    · obtain rfl := Option.some.inj head
      rw [List.cons_le_cons_iff] at below
      have tailBelow := (below.resolve_left (UInt8.lt_irrefl _)).2
      cases tail with
      | nil =>
        have size := shaped.count
        simp only [List.length_append, List.length_cons, List.length_nil] at size
        omega
      | cons next more =>
        rcases List.cons_le_cons_iff.mp tailBelow with less | ⟨rfl, _⟩
        · exact Or.inl ⟨next, more, by simp, less, shaped⟩
        · exact Or.inr ⟨next :: more, by simp, shaped, rfl, tailBelow⟩
  · rintro (⟨next, more, rfl, less, shaped⟩ | ⟨tail, rfl, shaped, head, below⟩)
    · refine ⟨byte :: next :: more, by simp, shaped, rfl, ?_⟩
      rw [List.cons_le_cons_iff, List.cons_le_cons_iff]
      exact Or.inr ⟨rfl, Or.inl less⟩
    · refine ⟨byte :: tail, by simp, shaped, rfl, ?_⟩
      rw [List.cons_le_cons_iff]
      exact Or.inr ⟨rfl, below⟩

/-- Leading the continuations below `second` to a tail adds what goes on with a smaller one. -/
theorem Grown.setBelow_adds (grown : trie.Grown origin goal root) {byte second : UInt8} {rest : List UInt8}
    (placed : trie.Placed root (path ++ [byte]) node) (less : leastContinuation < second)
    (small : second < byteCeiling) (shaped : Utf8.Shaped length ((path ++ [byte]) ++ second :: rest)) :
    Adds origin goal root (path ++ [byte]) (fun word => ∃ next more, word = (path ++ [byte]) ++ next :: more ∧
      next < second ∧ Utf8.Shaped length word) trie
      ((trie.tail rest.length).1.setRange node leastContinuation (second - 1) (trie.tail rest.length).2) := by
  have opens := ((Utf8.opens_append_cons _ second rest).mp shaped.opens).1
  have continues := continues_of_shaped shaped
  have count := shaped.count
  rw [List.length_append, List.length_cons] at count
  have allows (next : UInt8) (least : leastContinuation ≤ next) (below : next ≤ second - 1) :
      Utf8.Allows length (path ++ [byte]).length next := by
    rw [List.length_append, List.length_singleton]
    exact ⟨least, UInt8.le_trans (UInt8.le_of_lt ((le_pred_iff less).mp below)) continues.2⟩
  refine (grown.setTail_adds placed rest.length ((le_pred_iff less).mpr less)
    (UInt8.lt_trans ((le_pred_iff less).mp (UInt8.le_refl _)) small) opens allows (by omega)).congr
      fun word => ⟨?_, ?_⟩
  · rintro ⟨next, more, same, _, below, whole⟩
    exact ⟨next, more, same, (le_pred_iff less).mp below, whole⟩
  · rintro ⟨next, more, same, smaller, whole⟩
    exact ⟨next, more, same, (continues_of_shaped (same ▸ whole)).1, (le_pred_iff less).mpr smaller, whole⟩

theorem addUpTo_cons (trie : RuneTrie) (node : StateId) (byte second : UInt8) (rest : List UInt8) :
    trie.addUpTo node (byte :: second :: rest) =
      (if leastContinuation < second then
        ((trie.child node byte).1.tail rest.length).1.setRange (trie.child node byte).2
          leastContinuation (second - 1) ((trie.child node byte).1.tail rest.length).2
      else (trie.child node byte).1).addUpTo (trie.child node byte).2 (second :: rest) := by
  rw [addUpTo]

theorem Grown.addUpTo_adds (grown : trie.Grown origin goal root) (placed : trie.Placed root path node)
    (small : ∀ byte ∈ bytes, byte < byteCeiling) (present : bytes ≠ [])
    (shaped : Utf8.Shaped length (path ++ bytes)) :
    Adds origin goal root path (UpTo length path bytes) trie (trie.addUpTo node bytes) := by
  induction bytes generalizing trie node path with
  | nil => exact absurd rfl present
  | cons byte rest ih =>
    have below := small byte List.mem_cons_self
    cases rest with
    | nil => exact grown.setByte_adds_heads placed below shaped (List.le_refl _)
    | cons second rest =>
      obtain ⟨opened, child⟩ := grown.child_adds placed below (grown.unread shaped)
      have split : path ++ byte :: second :: rest = (path ++ [byte]) ++ second :: rest := by simp
      have count := shaped.count
      simp only [List.length_append, List.length_cons] at count
      have behind {middle : RuneTrie} (grown : middle.Grown origin goal root)
          (placed : middle.Placed root (path ++ [byte]) (trie.child node byte).2) :=
        ih grown placed (fun other listed => small other (List.mem_cons_of_mem _ listed))
          (List.cons_ne_nil _ _) (split ▸ shaped)
      rw [addUpTo_cons]
      by_cases less : leastContinuation < second
      · have lower := opened.grown.setBelow_adds child less (small second (by simp)) (split ▸ shaped)
        rw [if_pos less]
        exact (opened.trans_of_none (lower.trans
          (behind lower.grown (lower.placed opened.grown child (by simp)))).shorten).congr fun word =>
            (upTo_cons_iff path byte second rest word (by omega)).symm
      · rw [if_neg less]
        refine (opened.trans_of_none (behind opened.grown child).shorten).congr fun word => ?_
        rw [upTo_cons_iff _ _ _ _ _ (by omega)]
        refine (or_iff_right ?_).symm
        rintro ⟨next, more, same, smaller, whole⟩
        exact less (UInt8.lt_of_le_of_lt (continues_of_shaped (same ▸ whole)).1 smaller)

/-! ## Between the bytes of two runes -/

/-- Words behind a path from `low` to `high`. -/
def Between (length : Nat) (path low high word : List UInt8) : Prop :=
  ∃ rest, word = path ++ rest ∧ Utf8.Shaped length word ∧ low ≤ rest ∧ rest ≤ high

theorem between_cons_iff (path lows highs word : List UInt8) (byte : UInt8) :
    Between length path (byte :: lows) (byte :: highs) word ↔
      Between length (path ++ [byte]) lows highs word := by
  constructor
  · rintro ⟨_ | ⟨first, tail⟩, rfl, shaped, above, below⟩
    · simp at above
    · rw [List.cons_le_cons_iff] at above below
      have same : byte = first := by
        rcases above with greater | ⟨same, _⟩
        · rcases below with less | ⟨same, _⟩
          · exact absurd (UInt8.lt_trans greater less) (UInt8.lt_irrefl _)
          · exact same.symm
        · exact same
      subst same
      exact ⟨tail, by simp, shaped, (above.resolve_left (UInt8.lt_irrefl _)).2,
        (below.resolve_left (UInt8.lt_irrefl _)).2⟩
  · rintro ⟨tail, rfl, shaped, above, below⟩
    refine ⟨byte :: tail, by simp, shaped, ?_, ?_⟩
    · exact List.cons_le_cons_iff.mpr (Or.inr ⟨rfl, above⟩)
    · exact List.cons_le_cons_iff.mpr (Or.inr ⟨rfl, below⟩)

theorem between_iff_parts (path lows highs word : List UInt8) {low high : UInt8} (less : low < high) :
    Between length path (low :: lows) (high :: highs) word ↔
      From length path (low :: lows) word ∨
        (∃ byte rest, word = path ++ byte :: rest ∧ low < byte ∧ byte < high ∧
          Utf8.Shaped length word) ∨ UpTo length path (high :: highs) word := by
  constructor
  · rintro ⟨_ | ⟨first, tail⟩, rfl, shaped, above, below⟩
    · simp at above
    · rcases List.cons_le_cons_iff.mp above with greater | ⟨rfl, _⟩
      · rcases List.cons_le_cons_iff.mp below with smaller | ⟨rfl, _⟩
        · exact Or.inr (Or.inl ⟨first, tail, rfl, greater, smaller, shaped⟩)
        · exact Or.inr (Or.inr ⟨first :: tail, rfl, shaped, rfl, below⟩)
      · exact Or.inl ⟨low :: tail, rfl, shaped, rfl, above⟩
  · rintro (⟨_ | ⟨first, tail⟩, rfl, shaped, head, above⟩ | ⟨byte, rest, rfl, greater, smaller, shaped⟩ |
      ⟨_ | ⟨first, tail⟩, rfl, shaped, head, below⟩)
    · cases head
    · obtain rfl := Option.some.inj head
      exact ⟨first :: tail, rfl, shaped, above, List.cons_le_cons_iff.mpr (Or.inl less)⟩
    · exact ⟨byte :: rest, rfl, shaped, List.cons_le_cons_iff.mpr (Or.inl greater),
        List.cons_le_cons_iff.mpr (Or.inl smaller)⟩
    · cases head
    · obtain rfl := Option.some.inj head
      exact ⟨first :: tail, rfl, shaped, List.cons_le_cons_iff.mpr (Or.inl less), below⟩

/-- Words behind two different bytes are added in three parts. -/
theorem Grown.addBetween_adds_of_lt (grown : trie.Grown origin goal root) (placed : trie.Placed root path node)
    {low high : UInt8} (less : low < high) (smallLow : ∀ byte ∈ low :: lows, byte < byteCeiling)
    (smallHigh : ∀ byte ∈ high :: highs, byte < byteCeiling)
    (shapedLow : Utf8.Shaped length (path ++ low :: lows))
    (shapedHigh : Utf8.Shaped length (path ++ high :: highs)) :
    Adds origin goal root path (Between length path (low :: lows) (high :: highs)) trie
      (trie.addBetween node (low :: lows) (high :: highs)) := by
  have countLow := shapedLow.count
  rw [List.length_append, List.length_cons] at countLow
  obtain ⟨opens, allowsLow, _⟩ := (Utf8.opens_append_cons path low lows).mp shapedLow.opens
  obtain ⟨_, allowsHigh, _⟩ := (Utf8.opens_append_cons path high highs).mp shapedHigh.opens
  have lower := grown.addFrom_adds placed smallLow (List.cons_ne_nil _ _) shapedLow
  have placedLower := lower.placed grown placed (by simp)
  have upper {middle : RuneTrie} (grown : middle.Grown origin goal root)
      (placed : middle.Placed root path node) :=
    grown.addUpTo_adds placed smallHigh (List.cons_ne_nil _ _) shapedHigh
  rw [addBetween, if_neg (UInt8.ne_of_lt less)]
  by_cases wide : low + 1 < high
  · have middle := lower.grown.setTail_adds placedLower lows.length ((le_pred_iff less).mpr wide)
      (UInt8.lt_trans ((le_pred_iff less).mp (UInt8.le_refl _)) (smallHigh high (by simp))) opens
      (fun byte above below => allowsLow.between allowsHigh
        (UInt8.le_of_lt ((succ_le_iff less).mp above))
        (UInt8.le_of_lt ((le_pred_iff less).mp below))) (by omega)
    simp only [wide, ↓reduceIte]
    refine ((lower.trans middle).trans (upper middle.grown
      (middle.placed lower.grown placedLower (by simp)))).congr fun word => ?_
    rw [between_iff_parts path lows highs word less, or_assoc]
    refine or_congr_right (or_congr_left ?_)
    simp only [succ_le_iff less, le_pred_iff less]
  · simp only [wide, ↓reduceIte]
    refine (lower.trans (upper lower.grown placedLower)).congr fun word => ?_
    rw [between_iff_parts path lows highs word less]
    refine or_congr_right (or_iff_right ?_).symm
    rintro ⟨byte, rest, _, greater, smaller, _⟩
    exact wide (UInt8.lt_of_le_of_lt ((succ_le_iff less).mpr greater) smaller)

theorem Grown.addBetween_adds (grown : trie.Grown origin goal root) (placed : trie.Placed root path node)
    (smallLow : ∀ byte ∈ lows, byte < byteCeiling) (smallHigh : ∀ byte ∈ highs, byte < byteCeiling)
    (present : lows ≠ []) (shapedLow : Utf8.Shaped length (path ++ lows))
    (shapedHigh : Utf8.Shaped length (path ++ highs)) (order : lows ≤ highs) :
    Adds origin goal root path (Between length path lows highs) trie
      (trie.addBetween node lows highs) := by
  have countLow := shapedLow.count
  have countHigh := shapedHigh.count
  induction lows generalizing trie node path highs with
  | nil => exact absurd rfl present
  | cons low lows ih =>
    cases highs with
    | nil => simp at order
    | cons high highs =>
      simp only [List.length_append, List.length_cons] at countLow countHigh
      by_cases same : low = high
      · subst same
        rw [addBetween]
        simp only [↓reduceIte]
        cases lows with
        | nil =>
          have ended : highs = [] := List.eq_nil_of_length_eq_zero (by simp at countLow; omega)
          subst ended
          simp only [List.isEmpty_nil, ↓reduceIte]
          refine (grown.setByte_adds placed (smallLow low (by simp)) shapedLow).congr fun word => ?_
          constructor
          · rintro rfl
            exact ⟨[low], rfl, shapedLow, List.le_refl _, List.le_refl _⟩
          · rintro ⟨rest, rfl, _, above, below⟩
            rw [List.le_antisymm below above]
        | cons second lows =>
          obtain ⟨opened, child⟩ := grown.child_adds placed (smallLow low (by simp))
            (grown.unread shapedLow)
          simp only [List.isEmpty_cons, Bool.false_eq_true, ↓reduceIte]
          have behind := ih opened.grown child
            (fun byte listed => smallLow byte (List.mem_cons_of_mem _ listed))
            (fun byte listed => smallHigh byte (List.mem_cons_of_mem _ listed)) (List.cons_ne_nil _ _)
            (by simpa using shapedLow) (by simpa using shapedHigh)
            ((List.cons_le_cons_iff.mp order).resolve_left (UInt8.lt_irrefl _)).2
            (by simp at countLow ⊢; omega) (by simp at countHigh ⊢; omega)
          exact (opened.trans_of_none behind.shorten).congr fun word =>
            (between_cons_iff path (second :: lows) highs word low).symm
      · have less : low < high := (List.cons_le_cons_iff.mp order).resolve_right fun equal => same equal.1
        exact grown.addBetween_adds_of_lt placed less smallLow smallHigh shapedLow shapedHigh

/-! ## Sets of runes -/

/-- The code points of a class have equally many bytes. -/
theorem length_encode_of_class {least greatest : Nat} (listed : (least, greatest) ∈ lengthClasses) :
    ∃ length, ∀ rune : Char, least ≤ rune.toNat → rune.toNat ≤ greatest →
      (String.utf8EncodeChar rune).length = length := by
  have size (rune : Char) : (String.utf8EncodeChar rune).length =
      if rune.toNat ≤ 0x7F then 1 else if rune.toNat ≤ 0x7FF then 2
      else if rune.toNat ≤ 0xFFFF then 3 else 4 :=
    String.length_utf8EncodeChar rune
  simp only [lengthClasses, List.mem_cons, Prod.mk.injEq, List.not_mem_nil, or_false] at listed
  rcases listed with ⟨rfl, rfl⟩ | ⟨rfl, rfl⟩ | ⟨rfl, rfl⟩ | ⟨rfl, rfl⟩
  · exact ⟨1, fun rune above below => by rw [size, if_pos below]⟩
  · exact ⟨2, fun rune above below => by rw [size]; split_ifs <;> omega⟩
  · exact ⟨3, fun rune above below => by rw [size]; split_ifs <;> omega⟩
  · exact ⟨4, fun rune above below => by rw [size]; split_ifs <;> omega⟩

theorem exists_class (rune : Char) :
    ∃ least greatest, (least, greatest) ∈ lengthClasses ∧ least ≤ rune.toNat ∧ rune.toNat ≤ greatest := by
  have bound := toNat_le rune
  simp only [lengthClasses, List.mem_cons, Prod.mk.injEq, List.not_mem_nil, or_false]
  by_cases one : rune.toNat ≤ 0x7F
  · exact ⟨0, 0x7F, by simp, Nat.zero_le _, one⟩
  · by_cases two : rune.toNat ≤ 0x7FF
    · exact ⟨0x80, 0x7FF, by simp, by omega, two⟩
    · by_cases three : rune.toNat ≤ 0xFFFF
      · exact ⟨0x800, 0xFFFF, by simp, by omega, three⟩
      · exact ⟨0x10000, lastCodePoint, by simp, by omega, bound⟩

theorem mem_parts_iff {interval : RuneInterval} {lo hi : Char} :
    (lo, hi) ∈ parts interval ↔ ∃ a b least greatest,
      (a, b) ∈ splitSurrogates interval.lo.toNat interval.hi.toNat ∧ (least, greatest) ∈ lengthClasses ∧
        lo.toNat = max a least ∧ hi.toNat = min b greatest ∧ lo ≤ hi := by
  simp only [parts, List.mem_flatMap, List.mem_filterMap, Prod.exists]
  constructor
  · rintro ⟨a, b, listed, least, greatest, classed, found⟩
    split_ifs at found with order
    split at found
    · rename_i first last low high
      simp only [Option.some.injEq, Prod.mk.injEq] at found
      obtain ⟨rfl, rfl⟩ := found
      rw [scalar?_eq_some_iff] at low high
      exact ⟨a, b, least, greatest, listed, classed, low, high, rune_le_iff.mpr (by omega)⟩
    · cases found
  · rintro ⟨a, b, least, greatest, listed, classed, low, high, order⟩
    refine ⟨a, b, listed, least, greatest, classed, ?_⟩
    rw [if_pos (by rw [rune_le_iff] at order; omega), scalar?_eq_some_iff.mpr low,
      scalar?_eq_some_iff.mpr high]

/-- A part of an interval lies on one side of the surrogates, and its ends have equally many bytes. -/
theorem mem_parts {interval : RuneInterval} {lo hi : Char} (listed : (lo, hi) ∈ parts interval) :
    lo ≤ hi ∧ (hi.toNat < firstSurrogate ∨ lastSurrogate < lo.toNat) ∧
      (String.utf8EncodeChar lo).length = (String.utf8EncodeChar hi).length := by
  obtain ⟨a, b, least, greatest, member, classed, low, high, order⟩ := mem_parts_iff.mp listed
  obtain ⟨_, _, _, apart⟩ := mem_splitSurrogates member
  obtain ⟨length, same⟩ := length_encode_of_class classed
  have ordered := rune_le_iff.mp order
  refine ⟨order, ?_, (same lo (by omega) (by omega)).trans (same hi (by omega) (by omega)).symm⟩
  rcases apart with below | above
  · exact Or.inl (by omega)
  · exact Or.inr (by omega)

theorem exists_parts_iff (interval : RuneInterval) (rune : Char) :
    (∃ lo hi, (lo, hi) ∈ parts interval ∧ lo ≤ rune ∧ rune ≤ hi) ↔ interval.Contains rune := by
  have inside : (∃ part ∈ splitSurrogates interval.lo.toNat interval.hi.toNat,
      part.1 ≤ rune.toNat ∧ rune.toNat ≤ part.2) ↔ interval.Contains rune :=
    exists_splitSurrogates_iff rune
  constructor
  · rintro ⟨lo, hi, listed, above, below⟩
    obtain ⟨a, b, least, greatest, member, _, low, high, _⟩ := mem_parts_iff.mp listed
    rw [rune_le_iff] at above below
    exact inside.mp ⟨(a, b), member, by simp only; omega, by simp only; omega⟩
  · intro contains
    obtain ⟨⟨a, b⟩, member, above, below⟩ := inside.mpr contains
    obtain ⟨least, greatest, classed, aboveClass, belowClass⟩ := exists_class rune
    obtain ⟨_, _, most, apart⟩ := mem_splitSurrogates member
    have bound := toNat_le rune
    dsimp only at above below most apart
    have apartLow : max a least < firstSurrogate ∨ lastSurrogate < max a least :=
      apart.imp (fun early => by omega) fun late => by omega
    have apartHigh : min b greatest < firstSurrogate ∨ lastSurrogate < min b greatest :=
      apart.imp (fun early => by omega) fun late => by omega
    obtain ⟨lo, low⟩ := exists_rune apartLow (le_trans (max_le above aboveClass) bound)
    obtain ⟨hi, high⟩ := exists_rune apartHigh (le_trans (min_le_left _ _)
      (le_trans most (toNat_le interval.hi)))
    refine ⟨lo, hi, mem_parts_iff.mpr ⟨a, b, least, greatest, member, classed, low, high, ?_⟩, ?_, ?_⟩
    all_goals
      rw [rune_le_iff]
      omega

theorem Grown.placed_root (grown : trie.Grown origin goal root) : trie.Placed root [] root where
  reached := rfl
  own := by
    rw [isShared_eq_false_iff, grown.aims, ne_eq, Option.some.injEq]
    exact ⟨Nat.ne_of_gt (lt_of_lt_of_le grown.below grown.new), grown.apart⟩

/-- What is added item by item is added as a whole. -/
theorem Grown.foldl_adds {Item : Type} (grown : trie.Grown origin goal root)
    (add : RuneTrie → Item → RuneTrie) (words : Item → List UInt8 → Prop) (items : List Item)
    (each : ∀ item ∈ items, ∀ trie : RuneTrie, trie.Grown origin goal root →
      Adds origin goal root [] (words item) trie (add trie item)) :
    Adds origin goal root [] (fun word => ∃ item ∈ items, words item word) trie
      (items.foldl add trie) := by
  induction items generalizing trie with
  | nil => exact (Adds.refl grown []).congr (by simp)
  | cons item rest ih =>
    have first := each item List.mem_cons_self trie grown
    have later := ih first.grown fun other listed => each other (List.mem_cons_of_mem _ listed)
    exact (first.trans later).congr (by simp)

theorem Grown.addInterval_adds (grown : trie.Grown origin goal root) (interval : RuneInterval) :
    Adds origin goal root [] (fun word => ∃ rune, interval.Contains rune ∧
      word = String.utf8EncodeChar rune) trie (addInterval root trie interval) := by
  have each (part : Char × Char) (listed : part ∈ parts interval) (trie : RuneTrie)
      (grown : trie.Grown origin goal root) :
      Adds origin goal root [] (fun word => ∃ rune, part.1 ≤ rune ∧ rune ≤ part.2 ∧
          word = String.utf8EncodeChar rune) trie
        (trie.addBetween root (String.utf8EncodeChar part.1) (String.utf8EncodeChar part.2)) := by
    obtain ⟨lo, hi⟩ := part
    obtain ⟨order, apart, equal⟩ := mem_parts listed
    obtain ⟨shapedLo, pointLo, _⟩ := Utf8.shaped_encode lo
    obtain ⟨shapedHi, pointHi, _⟩ := Utf8.shaped_encode hi
    rw [← equal] at shapedHi
    have small (rune : Char) : ∀ byte ∈ String.utf8EncodeChar rune, byte < byteCeiling :=
      fun byte listed => UInt8.lt_trans (Utf8.lt_valueTerminator rune byte listed) (by decide)
    have bytes : String.utf8EncodeChar lo ≤ String.utf8EncodeChar hi :=
      (shapedLo.le_iff shapedHi).mpr (by rwa [pointLo, pointHi])
    refine (grown.addBetween_adds grown.placed_root (small lo) (small hi) String.utf8EncodeChar_ne_nil
      shapedLo shapedHi bytes).congr fun word => ?_
    rw [Utf8.between_encode_iff equal apart]
    simp [Between]
  refine (grown.foldl_adds _ _ (parts interval) each).congr fun word => ?_
  constructor
  · rintro ⟨⟨lo, hi⟩, listed, rune, above, below, same⟩
    exact ⟨rune, (exists_parts_iff interval rune).mp ⟨lo, hi, listed, above, below⟩, same⟩
  · rintro ⟨rune, contains, same⟩
    obtain ⟨lo, hi, listed, above, below⟩ := (exists_parts_iff interval rune).mpr contains
    exact ⟨(lo, hi), listed, rune, above, below, same⟩

theorem grown_start {arena : Arena} (formed : arena.WellFormed) (inside : goal < arena.size) :
    Grown arena goal arena.size { arena := arena.pushEmpty.1, goal := some goal } ∧
      ∀ bytes, follow { arena := arena.pushEmpty.1, goal := some goal } (some arena.size) bytes ≠
        some goal := by
  have pushed := formed.grows_pushEmpty
  have other : some arena.size ≠ some goal := by simpa using Nat.ne_of_gt inside
  have stuck (byte : UInt8) (rest : List UInt8) :
      arena.pushEmpty.1.follow (some goal) (some arena.size) (byte :: rest) = none := by
    have stored : arena.pushEmpty.1.get? arena.size = some {} := Arena.get?_push_self _
    rw [Arena.follow_cons, Arena.stepFrom_of_get? other stored, Table.lookup_empty, Arena.follow_none]
  have unread (bytes : List UInt8) :
      arena.pushEmpty.1.follow (some goal) (some arena.size) bytes ≠ some goal := by
    cases bytes with
    | nil => exact other
    | cons byte rest => simp [stuck byte rest]
  refine ⟨⟨pushed.extends_, rfl, inside, Nat.le_refl _, pushed.entry, by simp, ⟨?_, ?_⟩, by simp, ?_,
    fun bytes reads => absurd reads (unread bytes)⟩, unread⟩
  · intro id state new found
    change (arena.push {}).1.get? id = some state at found
    rw [Arena.get?_push] at found
    split at found
    · rw [← Option.some.inj found]
      exact ⟨rfl, rfl, rfl⟩
    · exact absurd (Arena.lt_size_of_get? found) (Nat.not_lt.mpr new)
  · exact (Arena.leadsBack_of_size_le arena (some goal)).pushEmpty
  · rintro (_ | ⟨byte, rest⟩) (_ | ⟨second, more⟩) id leads again _
    · rfl
    · exact absurd ((stuck second more).symm.trans again) (by simp)
    · exact absurd ((stuck byte rest).symm.trans leads) (by simp)
    · exact absurd ((stuck byte rest).symm.trans leads) (by simp)

end RuneTrie

namespace Arena

variable {arena : Arena} {goal : StateId}

/-- A fragment of new states with byte steps only, which reads the bytes of one rune. -/
structure ReadsRune (arena : Arena) (goal : StateId) (holds : Char → Prop) (result : Arena × StateId) :
    Prop where
  grows : arena.Grows result
  new : arena.size ≤ result.2
  steps : result.1.StepsTo arena.size goal
  reads : ∀ bytes, result.1.follow (some goal) (some result.2) bytes = some goal ↔
    ∃ rune, holds rune ∧ bytes = String.utf8EncodeChar rune

/-- The trie of a set reads one of its runes. -/
theorem pushRuneTrie_reads (formed : arena.WellFormed) (set : RuneSet) (inside : goal < arena.size) :
    arena.ReadsRune goal set.Contains (arena.pushRuneTrie set (some goal)) := by
  obtain ⟨start, unread⟩ := RuneTrie.grown_start formed inside
  have added := start.foldl_adds (RuneTrie.addInterval arena.size) _ set.simplify
    fun interval _ trie grown => grown.addInterval_adds interval
  refine ⟨⟨added.grown.extends_, added.grown.inside⟩, Nat.le_refl _, added.grown.steps, fun bytes => ?_⟩
  have follows (trie : RuneTrie) (grown : trie.Grown arena goal arena.size) :
      trie.arena.follow (some goal) (some arena.size) bytes =
        trie.follow (some arena.size) bytes := by
    rw [RuneTrie.follow, grown.aims]
  refine (iff_of_eq (congrArg (· = some goal) (follows _ added.grown))).trans ?_
  rw [added.reads, or_iff_right (unread bytes)]
  have same (rune : Char) := set.contains_simplify rune
  constructor
  · rintro ⟨interval, listed, rune, contains, read⟩
    exact ⟨rune, (same rune).mp ⟨interval, listed, contains⟩, read⟩
  · rintro ⟨rune, contains, read⟩
    obtain ⟨interval, listed, holds⟩ := (same rune).mpr contains
    exact ⟨interval, listed, rune, holds, read⟩

end Arena

end ByteAutomata
