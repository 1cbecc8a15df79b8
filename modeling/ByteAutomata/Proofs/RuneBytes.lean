import ByteAutomata.Alphabet
import ByteAutomata.Proofs.RuneSets
import ByteAutomata.Utf8

/-!
The bytes of a rune.

UTF-8 writes a code point in base 64 behind a lead byte that tells the number of digits. Among the
bytes of this shape the order of bytes is that of code points, so between the bytes of two runes of
equal length stand exactly those of the runes between them. What is left out are surrogates, code
points with fewer digits and those that are too large.
-/

namespace ByteAutomata.Utf8

/-- Such a byte continues a rune. -/
def IsContinuation (byte : UInt8) : Prop :=
  0x80 ≤ byte ∧ byte ≤ 0xBF

instance (byte : UInt8) : Decidable (IsContinuation byte) :=
  inferInstanceAs (Decidable (_ ∧ _))

/-- Such a byte begins a rune of so many bytes. -/
def IsLead : (length : Nat) → UInt8 → Prop
  | 1, byte => byte ≤ 0x7F
  | 2, byte => 0xC0 ≤ byte ∧ byte ≤ 0xDF
  | 3, byte => 0xE0 ≤ byte ∧ byte ≤ 0xEF
  | 4, byte => 0xF0 ≤ byte ∧ byte ≤ 0xF7
  | _, _ => False

/-- The byte may stand at this place of a rune of so many bytes. -/
def Allows (length place : Nat) (byte : UInt8) : Prop :=
  if place = 0 then IsLead length byte else IsContinuation byte

/-- Every byte may stand where it stands in a rune of so many bytes. -/
def Opens (length : Nat) (bytes : List UInt8) : Prop :=
  ∀ place byte, bytes[place]? = some byte → Allows length place byte

/-- A lead byte with as many continuation bytes as it calls for. -/
structure Shaped (length : Nat) (bytes : List UInt8) : Prop where
  nonempty : 0 < length
  count : bytes.length = length
  opens : Opens length bytes

/-- What a lead byte adds to its digit, given the number of continuation bytes. -/
def leadBase : (digits : Nat) → Nat
  | 0 => 0
  | 1 => 0xC0
  | 2 => 0xE0
  | _ => 0xF0

/-- The number that bytes of the shape of a rune write in base 64. -/
def codePoint : List UInt8 → Nat
  | [] => 0
  | lead :: rest =>
    rest.foldl (fun point byte => point * 64 + (byte.toNat - 0x80))
      (lead.toNat - leadBase rest.length)

/-- The least code point that needs so many bytes. -/
def leastCodePoint : (length : Nat) → Nat
  | 2 => 0x80
  | 3 => 0x800
  | 4 => 0x10000
  | _ => 0

variable {length : Nat} {bytes more : List UInt8} {rune lo hi : Char}

theorem allows_zero (length : Nat) (byte : UInt8) : Allows length 0 byte ↔ IsLead length byte :=
  Iff.rfl

theorem allows_succ (length place : Nat) (byte : UInt8) :
    Allows length (place + 1) byte ↔ IsContinuation byte :=
  Iff.rfl

theorem length_unique {length other : Nat} {byte : UInt8} (lead : IsLead length byte)
    (second : IsLead other byte) : length = other := by
  unfold IsLead at lead second
  split at lead <;> split at second <;> simp only [UInt8.le_iff_toNat_le, UInt8.reduceToNat] at * <;>
    first | rfl | omega

theorem Allows.between {place : Nat} {low middle high : UInt8} (least : Allows length place low)
    (greatest : Allows length place high) (above : low ≤ middle) (below : middle ≤ high) :
    Allows length place middle := by
  unfold Allows at *
  split
  · rename_i first
    rw [if_pos first] at least greatest
    unfold IsLead at *
    split at least <;> simp only [UInt8.le_iff_toNat_le, UInt8.reduceToNat] at * <;> omega
  · rename_i later
    rw [if_neg later] at least greatest
    exact ⟨UInt8.le_trans least.1 above, UInt8.le_trans below greatest.2⟩

theorem opens_append_cons (path : List UInt8) (byte : UInt8) (rest : List UInt8) :
    Opens length (path ++ byte :: rest) ↔
      Opens length path ∧ Allows length path.length byte ∧ ∀ later ∈ rest, IsContinuation later := by
  constructor
  · intro opens
    refine ⟨?_, ?_, ?_⟩
    · intro place other at_
      apply opens place other
      rw [List.getElem?_append_left (List.getElem?_eq_some_iff.mp at_).1, at_]
    · exact opens path.length byte (by simp)
    · intro later member
      obtain ⟨place, at_⟩ := List.mem_iff_getElem?.mp member
      have allowed := opens (path.length + place + 1) later (by
        rw [List.getElem?_append_right (by omega), Nat.add_assoc, Nat.add_sub_cancel_left]
        exact at_)
      exact (allows_succ length (path.length + place) later).mp allowed
  · rintro ⟨before, here, after⟩ place other at_
    rcases Nat.lt_trichotomy place path.length with less | same | greater
    · rw [List.getElem?_append_left less] at at_
      exact before place other at_
    · subst same
      rw [List.getElem?_append_right (Nat.le_refl _), Nat.sub_self, List.getElem?_cons_zero,
        Option.some.injEq] at at_
      exact at_ ▸ here
    · obtain ⟨beyond, rfl⟩ := Nat.exists_eq_add_of_lt greater
      rw [List.getElem?_append_right (by omega)] at at_
      rw [show path.length + beyond + 1 - path.length = beyond + 1 by omega,
        List.getElem?_cons_succ] at at_
      exact (allows_succ length _ other).mpr (after other (List.mem_of_getElem? at_))

theorem opens_cons (byte : UInt8) (rest : List UInt8) :
    Opens length (byte :: rest) ↔ IsLead length byte ∧ ∀ later ∈ rest, IsContinuation later := by
  have whole : Opens length ([] ++ byte :: rest) ↔ _ := opens_append_cons [] byte rest
  simpa [Opens, allows_zero] using whole

/-- Words that begin with the same bytes belong to runes of one length. -/
theorem Opens.length_eq {other : Nat} {path rest : List UInt8} {byte : UInt8} (opens : Opens length path)
    (allows : Allows length path.length byte) (second : Opens other (path ++ byte :: rest)) :
    other = length := by
  obtain ⟨opensToo, allowsToo, _⟩ := (opens_append_cons path byte rest).mp second
  cases path with
  | nil => exact length_unique allowsToo allows
  | cons first more => exact length_unique (opensToo 0 first rfl) (opens 0 first rfl)

/-- Behind leading bytes of a rune, the continuation bytes that it still calls for complete its shape. -/
theorem shaped_append_cons_iff {path rest : List UInt8} {byte : UInt8} {count : Nat}
    (opens : Opens length path) (allows : Allows length path.length byte)
    (whole : path.length + 1 + count = length) :
    Shaped length (path ++ byte :: rest) ↔ rest.length = count ∧ ∀ later ∈ rest, IsContinuation later := by
  constructor
  · rintro ⟨_, size, all⟩
    rw [List.length_append, List.length_cons] at size
    exact ⟨by omega, ((opens_append_cons path byte rest).mp all).2.2⟩
  · rintro ⟨size, continues⟩
    refine ⟨by omega, ?_, (opens_append_cons path byte rest).mpr ⟨opens, allows, continues⟩⟩
    rw [List.length_append, List.length_cons]
    omega

/-- Bytes of the shape of a rune are one to four. -/
theorem Shaped.forms (shaped : Shaped length bytes) :
    (∃ a, bytes = [a] ∧ length = 1 ∧ a.toNat ≤ 0x7F) ∨
      (∃ a b, bytes = [a, b] ∧ length = 2 ∧ 0xC0 ≤ a.toNat ∧ a.toNat ≤ 0xDF ∧
        0x80 ≤ b.toNat ∧ b.toNat ≤ 0xBF) ∨
      (∃ a b c, bytes = [a, b, c] ∧ length = 3 ∧ 0xE0 ≤ a.toNat ∧ a.toNat ≤ 0xEF ∧
        0x80 ≤ b.toNat ∧ b.toNat ≤ 0xBF ∧ 0x80 ≤ c.toNat ∧ c.toNat ≤ 0xBF) ∨
      ∃ a b c d, bytes = [a, b, c, d] ∧ length = 4 ∧ 0xF0 ≤ a.toNat ∧ a.toNat ≤ 0xF7 ∧
        0x80 ≤ b.toNat ∧ b.toNat ≤ 0xBF ∧ 0x80 ≤ c.toNat ∧ c.toNat ≤ 0xBF ∧
        0x80 ≤ d.toNat ∧ d.toNat ≤ 0xBF := by
  obtain ⟨nonempty, rfl, opens⟩ := shaped
  rcases bytes with _ | ⟨a, _ | ⟨b, _ | ⟨c, _ | ⟨d, _ | ⟨e, rest⟩⟩⟩⟩⟩
  · cases nonempty
  all_goals
    simp [opens_cons, IsLead, IsContinuation, UInt8.le_iff_toNat_le] at opens
  · simpa using opens
  all_goals simp [opens]


theorem shaped_encode (rune : Char) :
    Shaped (String.utf8EncodeChar rune).length (String.utf8EncodeChar rune) ∧
      codePoint (String.utf8EncodeChar rune) = rune.toNat ∧
      leastCodePoint (String.utf8EncodeChar rune).length ≤ rune.toNat := by
  have bound : rune.val.toNat < 0x110000 := by
    rcases rune.valid with low | ⟨_, high⟩
    · have less : rune.val.toNat < 0xd800 := low
      omega
    · exact high
  have same : rune.toNat = rune.val.toNat := rfl
  rw [same]
  unfold String.utf8EncodeChar
  generalize rune.val.toNat = point at bound
  simp only []
  split_ifs
  all_goals
    refine ⟨⟨Nat.succ_pos _, rfl, (opens_cons _ _).mpr ⟨?_, ?_⟩⟩, ?_, ?_⟩
    all_goals
      simp only [IsLead, IsContinuation, List.mem_cons, List.not_mem_nil, or_false, false_imp_iff,
        implies_true, forall_eq_or_imp, forall_eq, codePoint, leadBase, leastCodePoint, List.foldl_cons,
        List.foldl_nil, List.length_cons, List.length_nil, UInt8.le_iff_toNat_le, UInt8.toNat_ofNat',
        UInt8.reduceToNat]
      try omega

theorem Shaped.le_iff (shaped : Shaped length bytes) (second : Shaped length more) :
    bytes ≤ more ↔ codePoint bytes ≤ codePoint more := by
  rcases shaped.forms with ⟨a, rfl, rfl, _⟩ | ⟨a, b, rfl, rfl, _⟩ | ⟨a, b, c, rfl, rfl, _⟩ |
    ⟨a, b, c, d, rfl, rfl, _⟩
  all_goals
    rcases second.forms with ⟨a', rfl, same, _⟩ | ⟨a', b', rfl, same, _⟩ | ⟨a', b', c', rfl, same, _⟩ |
      ⟨a', b', c', d', rfl, same, _⟩
  all_goals first
    | exact absurd same (by decide)
    | (simp only [List.cons_le_cons_iff, List.nil_le, and_true, codePoint, leadBase, List.foldl_cons,
        List.foldl_nil, List.length_cons, List.length_nil, UInt8.lt_iff_toNat_lt, ← UInt8.toNat_inj]
       omega)

theorem Shaped.eq_of_codePoint (shaped : Shaped length bytes) (second : Shaped length more)
    (same : codePoint bytes = codePoint more) : bytes = more :=
  List.le_antisymm ((shaped.le_iff second).mpr (le_of_eq same))
    ((second.le_iff shaped).mpr (ge_of_eq same))

theorem Shaped.lt_leastCodePoint (shaped : Shaped length bytes) {longer : Nat} (order : length < longer)
    (most : longer ≤ 4) : codePoint bytes < leastCodePoint longer := by
  rcases shaped.forms with ⟨a, rfl, rfl, _⟩ | ⟨a, b, rfl, rfl, _⟩ | ⟨a, b, c, rfl, rfl, _⟩ |
    ⟨a, b, c, d, rfl, rfl, _⟩
  all_goals
    interval_cases longer
    all_goals
      simp only [codePoint, leadBase, leastCodePoint, List.foldl_cons, List.foldl_nil, List.length_cons,
        List.length_nil]
      omega

theorem Shaped.length_le (shaped : Shaped length bytes) : length ≤ 4 := by
  rcases shaped.forms with ⟨_, _, rfl, _⟩ | ⟨_, _, _, rfl, _⟩ | ⟨_, _, _, _, rfl, _⟩ |
    ⟨_, _, _, _, _, rfl, _⟩
  all_goals decide

/-- Bytes of a rune's shape are those of a rune if they write its code point and are not too many. -/
theorem eq_encode_iff : bytes = String.utf8EncodeChar rune ↔
    ∃ length, Shaped length bytes ∧ codePoint bytes = rune.toNat ∧ leastCodePoint length ≤ rune.toNat := by
  obtain ⟨own, point, least⟩ := shaped_encode rune
  constructor
  · rintro rfl
    exact ⟨_, own, point, least⟩
  · rintro ⟨length, shaped, same, enough⟩
    have equal : length = (String.utf8EncodeChar rune).length := by
      rcases Nat.lt_trichotomy length (String.utf8EncodeChar rune).length with less | equal | greater
      · have below := shaped.lt_leastCodePoint less own.length_le
        omega
      · exact equal
      · have below := own.lt_leastCodePoint greater shaped.length_le
        omega
    subst equal
    exact shaped.eq_of_codePoint own (same.trans point.symm)

/-- Runes differ if their bytes do not. -/
theorem encode_injective : Function.Injective String.utf8EncodeChar := by
  intro first second same
  have points := (shaped_encode first).2.1
  rw [same, (shaped_encode second).2.1] at points
  exact Char.toNat_inj.mp points.symm

/-- No rune's bytes begin those of another. -/
theorem eq_of_encode_begins {other : Char}
    (stands : String.utf8EncodeChar rune <+: String.utf8EncodeChar other) : rune = other := by
  have first := (shaped_encode rune).1
  have second := (shaped_encode other).1
  refine encode_injective (stands.eq_of_length ?_)
  -- The lead byte that they share tells how many bytes there are.
  generalize String.utf8EncodeChar rune = bytes at *
  generalize String.utf8EncodeChar other = more at *
  obtain ⟨behind, rfl⟩ := stands
  cases bytes with
  | nil => exact absurd first.nonempty (Nat.lt_irrefl 0)
  | cons lead rest =>
    exact length_unique ((opens_cons lead rest).mp first.opens).1
      ((opens_cons lead (rest ++ behind)).mp second.opens).1

/-- Longer encodings belong to greater code points. -/
theorem length_encode_le (order : lo ≤ hi) :
    (String.utf8EncodeChar lo).length ≤ (String.utf8EncodeChar hi).length := by
  obtain ⟨shapedLo, _, least⟩ := shaped_encode lo
  obtain ⟨shapedHi, point, _⟩ := shaped_encode hi
  by_contra longer
  have below := shapedHi.lt_leastCodePoint (Nat.not_le.mp longer) shapedLo.length_le
  rw [rune_le_iff] at order
  omega

/-- Between the bytes of two runes of one length stand those of the runes between them, as long as
no surrogate lies there. -/
theorem between_encode_iff
    (equal : (String.utf8EncodeChar lo).length = (String.utf8EncodeChar hi).length)
    (apart : hi.toNat < firstSurrogate ∨ lastSurrogate < lo.toNat) :
    (∃ rune, lo ≤ rune ∧ rune ≤ hi ∧ bytes = String.utf8EncodeChar rune) ↔
      Shaped (String.utf8EncodeChar lo).length bytes ∧ String.utf8EncodeChar lo ≤ bytes ∧
        bytes ≤ String.utf8EncodeChar hi := by
  obtain ⟨shapedLo, pointLo, leastLo⟩ := shaped_encode lo
  obtain ⟨shapedHi, pointHi, _⟩ := shaped_encode hi
  rw [← equal] at shapedHi
  constructor
  · rintro ⟨rune, above, below, rfl⟩
    obtain ⟨shaped, point, _⟩ := shaped_encode rune
    rw [le_antisymm ((length_encode_le below).trans (ge_of_eq equal)) (length_encode_le above)] at shaped
    refine ⟨shaped, ?_, ?_⟩
    · rw [shapedLo.le_iff shaped, pointLo, point]
      exact above
    · rw [shaped.le_iff shapedHi, pointHi, point]
      exact below
  · rintro ⟨shaped, above, below⟩
    rw [shapedLo.le_iff shaped, pointLo] at above
    rw [shaped.le_iff shapedHi, pointHi] at below
    have apartHere : codePoint bytes < firstSurrogate ∨ lastSurrogate < codePoint bytes :=
      apart.imp below.trans_lt fun late => late.trans_le above
    obtain ⟨rune, same⟩ := exists_rune apartHere (below.trans (toNat_le hi))
    rw [← same] at above below
    exact ⟨rune, above, below, eq_encode_iff.mpr ⟨_, shaped, same.symm, leastLo.trans above⟩⟩

theorem exists_encode_iff : (∃ rune, bytes = String.utf8EncodeChar rune) ↔
    ∃ length, Shaped length bytes ∧ leastCodePoint length ≤ codePoint bytes ∧
      (codePoint bytes < firstSurrogate ∨ lastSurrogate < codePoint bytes) ∧
      codePoint bytes ≤ lastCodePoint := by
  constructor
  · rintro ⟨rune, rfl⟩
    obtain ⟨shaped, point, least⟩ := shaped_encode rune
    rw [point]
    exact ⟨_, shaped, least, toNat_apart rune, toNat_le rune⟩
  · rintro ⟨length, shaped, least, apart, bound⟩
    obtain ⟨rune, same⟩ := exists_rune apart bound
    exact ⟨rune, eq_encode_iff.mpr ⟨length, shaped, same.symm, same ▸ least⟩⟩

/-- The bytes of runes by their lead bytes. Four lead bytes leave fewer second bytes: two refuse
overlong forms, one refuses the surrogates and one what is too large. -/
theorem exists_encode_iff_forms : (∃ rune, bytes = String.utf8EncodeChar rune) ↔
    (∃ a, bytes = [a] ∧ a ≤ 0x7F) ∨
      (∃ a b, bytes = [a, b] ∧ 0xC2 ≤ a ∧ a ≤ 0xDF ∧ IsContinuation b) ∨
      (∃ a b c, bytes = [a, b, c] ∧ 0xE0 ≤ a ∧ a ≤ 0xEF ∧ IsContinuation b ∧ IsContinuation c ∧
        (a = 0xE0 → 0xA0 ≤ b) ∧ (a = 0xED → b ≤ 0x9F)) ∨
      ∃ a b c d, bytes = [a, b, c, d] ∧ 0xF0 ≤ a ∧ a ≤ 0xF4 ∧ IsContinuation b ∧ IsContinuation c ∧
        IsContinuation d ∧ (a = 0xF0 → 0x90 ≤ b) ∧ (a = 0xF4 → b ≤ 0x8F) := by
  rw [exists_encode_iff]
  constructor
  · rintro ⟨length, shaped, least, apart, bound⟩
    rcases shaped.forms with ⟨a, rfl, rfl, _⟩ | ⟨a, b, rfl, rfl, _⟩ | ⟨a, b, c, rfl, rfl, _⟩ |
      ⟨a, b, c, d, rfl, rfl, _⟩
    all_goals
      simp only [codePoint, leadBase, leastCodePoint, List.foldl_cons, List.foldl_nil, List.length_cons,
        List.length_nil, firstSurrogate, lastSurrogate, lastCodePoint] at least apart bound
    · exact Or.inl ⟨a, rfl, by rw [UInt8.le_iff_toNat_le]; simpa⟩
    · refine Or.inr (Or.inl ⟨a, b, rfl, ?_⟩)
      simp only [IsContinuation, UInt8.le_iff_toNat_le, UInt8.reduceToNat]
      omega
    · refine Or.inr (Or.inr (Or.inl ⟨a, b, c, rfl, ?_⟩))
      simp only [IsContinuation, UInt8.le_iff_toNat_le, ← UInt8.toNat_inj, UInt8.reduceToNat]
      omega
    · refine Or.inr (Or.inr (Or.inr ⟨a, b, c, d, rfl, ?_⟩))
      simp only [IsContinuation, UInt8.le_iff_toNat_le, ← UInt8.toNat_inj, UInt8.reduceToNat]
      omega
  · have shape {lead : UInt8} {rest : List UInt8} (first : IsLead (rest.length + 1) lead)
        (later : ∀ byte ∈ rest, IsContinuation byte) : Shaped (rest.length + 1) (lead :: rest) :=
      ⟨Nat.succ_pos _, rfl, (opens_cons lead rest).mpr ⟨first, later⟩⟩
    rintro (⟨a, rfl, low⟩ | ⟨a, b, rfl, low, high, first⟩ |
      ⟨a, b, c, rfl, low, high, first, second, overlong, surrogate⟩ |
      ⟨a, b, c, d, rfl, low, high, first, second, third, overlong, large⟩)
    · refine ⟨_, shape low (by simp), ?_⟩
      simp only [UInt8.le_iff_toNat_le, UInt8.reduceToNat, codePoint, leadBase, leastCodePoint,
        List.foldl_nil, List.length_nil, firstSurrogate, lastSurrogate, lastCodePoint] at low ⊢
      omega
    · refine ⟨_, shape ⟨UInt8.le_trans (by decide) low, high⟩ (by simpa using first), ?_⟩
      simp only [IsContinuation, UInt8.le_iff_toNat_le, UInt8.reduceToNat] at low high first
      simp only [codePoint, leadBase, leastCodePoint, List.foldl_cons, List.foldl_nil, List.length_cons,
        List.length_nil, firstSurrogate, lastSurrogate, lastCodePoint]
      omega
    · refine ⟨_, shape ⟨low, high⟩ (by simpa using ⟨first, second⟩), ?_⟩
      simp only [IsContinuation, UInt8.le_iff_toNat_le, ← UInt8.toNat_inj, UInt8.reduceToNat]
        at low high first second overlong surrogate
      simp only [codePoint, leadBase, leastCodePoint, List.foldl_cons, List.foldl_nil, List.length_cons,
        List.length_nil, firstSurrogate, lastSurrogate, lastCodePoint]
      omega
    · refine ⟨_, shape ⟨low, UInt8.le_trans high (by decide)⟩ (by simpa using ⟨first, second, third⟩), ?_⟩
      simp only [IsContinuation, UInt8.le_iff_toNat_le, ← UInt8.toNat_inj, UInt8.reduceToNat]
        at low high first second third overlong large
      simp only [codePoint, leadBase, leastCodePoint, List.foldl_cons, List.foldl_nil, List.length_cons,
        List.length_nil, firstSurrogate, lastSurrogate, lastCodePoint]
      omega

/-- No byte of a rune reaches the terminator. -/
theorem lt_valueTerminator (rune : Char) :
    ∀ byte ∈ String.utf8EncodeChar rune, byte < valueTerminator := by
  obtain ⟨shaped, point, _⟩ := shaped_encode rune
  have bound := toNat_le rune
  unfold lastCodePoint at bound
  rw [← point] at bound
  rcases shaped.forms with ⟨a, same, _⟩ | ⟨a, b, same, _⟩ | ⟨a, b, c, same, _⟩ | ⟨a, b, c, d, same, _⟩
  all_goals
    rw [same] at bound ⊢
    simp only [codePoint, leadBase, List.foldl_cons, List.foldl_nil, List.length_cons, List.length_nil,
      List.mem_cons, List.not_mem_nil, or_false, forall_eq_or_imp, forall_eq, UInt8.lt_iff_toNat_lt,
      valueTerminator, UInt8.reduceToNat] at bound ⊢
    omega

/-! ## Texts -/

/-- Bytes decode to the runes that encode to them. -/
theorem decode?_eq_some_iff {bytes : List UInt8} {text : List Char} :
    decode? bytes = some text ↔ encode text = bytes := by
  have same (text : List Char) (valid : (text.utf8Encode).IsValidUTF8) :
      (String.fromUTF8 text.utf8Encode valid).toList = text := by
    have read : String.fromUTF8 text.utf8Encode valid = String.ofList text :=
      String.toByteArray_inj.mp String.toByteArray_ofList.symm
    rw [read, String.toList_ofList]
  have array (text : List Char) : (⟨(encode text).toArray⟩ : ByteArray) = text.utf8Encode := by
    rw [List.utf8Encode, ByteArray.ext_iff, List.data_toByteArray, encode]
  unfold decode? String.fromUTF8?
  constructor
  · intro decoded
    split at decoded
    · rename_i valid
      obtain ⟨runes, made⟩ := id valid
      simp only [made, same, Option.map_some, Option.some.injEq] at decoded
      rw [← decoded]
      have data := congrArg (fun array => array.data.toList) (made.trans (array runes).symm)
      exact data.symm
    · cases decoded
  · rintro rfl
    have valid : (⟨(encode text).toArray⟩ : ByteArray).IsValidUTF8 := ⟨text, array text⟩
    rw [dif_pos valid]
    simp only [array, same, Option.map_some]

/-- No byte of a text reaches the terminator. -/
theorem lt_valueTerminator_of_decode? {bytes : List UInt8} {text : List Char}
    (decoded : decode? bytes = some text) : ∀ byte ∈ bytes, byte < valueTerminator := by
  rw [← decode?_eq_some_iff.mp decoded]
  intro byte listed
  obtain ⟨rune, _, member⟩ := List.mem_flatMap.mp listed
  exact lt_valueTerminator rune byte member

end ByteAutomata.Utf8
