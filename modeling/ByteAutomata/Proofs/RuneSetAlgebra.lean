import ByteAutomata.Proofs.RuneSets

/-!
Simplified sets and complements.

A simplified set lists its intervals in ascending order and leaves at least one code point between any two of them, so
simplifying it again finds nothing to join. The gaps between such intervals hold what the set leaves out, but for the
surrogates, which no interval of a complement touches. A set and its complement share out all scalar values, and so do
their counts. The bounds and counts are computed in 32-bit words, and none of these computations leaves the word.
-/

namespace ByteAutomata

/-- The code points at both ends. -/
def RuneInterval.ends (interval : RuneInterval) : Nat × Nat := (interval.lo.toNat, interval.hi.toNat)

/-- How many scalar values lie below a code point. -/
def runesBelow (point : Nat) : Nat := min point firstSurrogate + (point - (lastSurrogate + 1))

/-- How many code points a range has. -/
def rangeSize (range : Nat × Nat) : Nat := range.2 - range.1 + 1

variable {lo hi point : Nat} {rune : Char}

/-! ## Ranges of code points -/

theorem splitSurrogates_ascends (lo hi : Nat) : (splitSurrogates lo hi).Pairwise (·.2 < ·.1) := by
  unfold splitSurrogates firstSurrogate lastSurrogate
  apply List.Pairwise.filter
  split_ifs
  all_goals simp only [List.append_nil, List.nil_append, List.singleton_append, List.pairwise_cons,
    List.mem_singleton, forall_eq, List.not_mem_nil, false_imp_iff, implies_true, List.Pairwise.nil, and_true]
  omega

/-- A range that has no surrogates is not cut. -/
theorem splitSurrogates_of_apart (order : lo ≤ hi) (apart : hi < firstSurrogate ∨ lastSurrogate < lo) :
    splitSurrogates lo hi = [(lo, hi)] := by
  unfold splitSurrogates
  unfold firstSurrogate lastSurrogate at *
  rcases apart with below | above
  · have whole : min hi (0xD800 - 1) = hi := by omega
    rw [if_pos (by omega), if_neg (by omega), whole]
    simp [order]
  · have whole : max lo (0xDFFF + 1) = lo := by omega
    rw [if_neg (by omega), if_pos (by omega), whole]
    simp [order]

/-- A part that is kept only if its ends are in order counts as many code points as lie from one end to the other. -/
theorem sum_filter_singleton (lo hi : Nat) :
    (([(lo, hi)].filter fun part => part.1 ≤ part.2).map rangeSize).sum = hi + 1 - lo := by
  by_cases order : lo ≤ hi
  · simp only [List.filter_cons, order, decide_true, ↓reduceIte, List.filter_nil, List.map_cons, List.map_nil,
      List.sum_cons, List.sum_nil, rangeSize]
    omega
  · simp only [List.filter_cons, order, decide_false, Bool.false_eq_true, ↓reduceIte, List.filter_nil, List.map_nil,
      List.sum_nil]
    omega

theorem sum_filter_ite (kept : Prop) [Decidable kept] (lo hi : Nat) :
    (((if kept then [(lo, hi)] else []).filter fun part => part.1 ≤ part.2).map rangeSize).sum =
      if kept then hi + 1 - lo else 0 := by
  split_ifs
  · exact sum_filter_singleton lo hi
  · rfl

/-- The parts of a range have as many code points as there are scalar values in the range. -/
theorem runesBelow_add_sum (lo hi : Nat) (order : lo ≤ hi + 1) :
    runesBelow lo + ((splitSurrogates lo hi).map rangeSize).sum = runesBelow (hi + 1) := by
  rw [splitSurrogates, List.filter_append, List.map_append, List.sum_append, sum_filter_ite, sum_filter_ite]
  unfold runesBelow firstSurrogate lastSurrogate
  split_ifs
  all_goals omega

/-! ## Arithmetic in words -/

theorem addWords?_eq {a b : Nat} (fits : a + b < word32Bound) : addWords? a b = some (a + b) := if_pos fits

theorem subWords?_eq {a b : Nat} (order : b ≤ a) : subWords? a b = some (a - b) := if_pos order

/-- The code point behind a rune is a word. -/
theorem addWords?_toNat (rune : Char) : addWords? rune.toNat 1 = some (rune.toNat + 1) := by
  apply addWords?_eq
  have most := toNat_le rune
  unfold lastCodePoint word32Bound at *
  omega

namespace RuneSet

variable {set rest : RuneSet} {interval last : RuneInterval}

/-- The intervals ascend and do not overlap. -/
def Ascending (set : RuneSet) : Prop := set.Pairwise fun first later => first.hi < later.lo

/-- The intervals ascend with at least one code point between any two of them. -/
def Apart (set : RuneSet) : Prop := set.Pairwise fun first later => first.hi.toNat + 1 < later.lo.toNat

theorem Apart.ascending (apart : set.Apart) : set.Ascending :=
  apart.imp fun spare => rune_lt_iff.mpr (lt_trans (Nat.lt_succ_self _) spare)

/-- The intervals of a range are its parts. -/
theorem map_ends_ofRange (bound : hi ≤ lastCodePoint) :
    (ofRange lo hi).map RuneInterval.ends = splitSurrogates lo hi := by
  unfold ofRange
  rw [List.map_filterMap]
  calc
    _ = (splitSurrogates lo hi).filterMap some := by
      apply List.filterMap_congr
      intro part listed
      obtain ⟨_, order, most, apart⟩ := mem_splitSurrogates listed
      have top : part.2 ≤ lastCodePoint := most.trans bound
      obtain ⟨low, lowest⟩ : ∃ rune : Char, rune.toNat = part.1 := exists_rune (by omega) (order.trans top)
      obtain ⟨high, highest⟩ : ∃ rune : Char, rune.toNat = part.2 := exists_rune (by omega) top
      rw [scalar?_eq_some_iff.mpr lowest, scalar?_eq_some_iff.mpr highest]
      simp [RuneInterval.ends, lowest, highest]
    _ = _ := List.filterMap_some

theorem mem_ofRange (bound : hi ≤ lastCodePoint) (listed : interval ∈ ofRange lo hi) :
    lo ≤ interval.lo.toNat ∧ interval.hi.toNat ≤ hi ∧
      (interval.hi.toNat < firstSurrogate ∨ lastSurrogate < interval.lo.toNat) := by
  have part : interval.ends ∈ splitSurrogates lo hi := map_ends_ofRange bound ▸ List.mem_map_of_mem listed
  obtain ⟨least, _, most, apart⟩ := mem_splitSurrogates part
  exact ⟨least, most, apart⟩

theorem ofRange_ascending (bound : hi ≤ lastCodePoint) : (ofRange lo hi).Ascending := by
  have parts := splitSurrogates_ascends lo hi
  rw [← map_ends_ofRange bound, List.pairwise_map] at parts
  exact parts

theorem contains_ofRange (bound : hi ≤ lastCodePoint) (rune : Char) :
    (ofRange lo hi).Contains rune ↔ lo ≤ rune.toNat ∧ rune.toNat ≤ hi := by
  rw [← exists_splitSurrogates_iff, ← map_ends_ofRange bound]
  simp only [List.mem_map, exists_exists_and_eq_and]
  rfl

theorem contains_append (first second : RuneSet) (rune : Char) :
    Contains (first ++ second) rune ↔ first.Contains rune ∨ second.Contains rune := by
  simp [Contains, or_and_right, exists_or]

/-! ## Simplified sets -/

theorem lo_le_of_mem_joinFrom (sorted : (last :: set).Pairwise (·.lo ≤ ·.lo)) (listed : interval ∈ joinFrom last set) :
    last.lo ≤ interval.lo := by
  induction set generalizing last with
  | nil =>
    rw [joinFrom, List.mem_singleton] at listed
    exact listed ▸ Char.le_refl _
  | cons next rest ih =>
    obtain ⟨below, sortedRest⟩ := List.pairwise_cons.mp sorted
    have least := below next List.mem_cons_self
    rw [joinFrom] at listed
    by_cases adjoins : next.lo.toNat ≤ last.hi.toNat + 1
    · obtain ⟨wide, widened, lo, _⟩ := exists_joined last next
      rw [if_pos adjoins, widened] at listed
      exact lo ▸ ih (sorted_joined sorted lo) listed
    · rw [if_neg adjoins] at listed
      rcases List.mem_cons.mp listed with first | later
      · exact first ▸ Char.le_refl _
      · exact Char.le_trans least (ih sortedRest later)

/-- Where an interval is not joined to the next one, it leaves a code point free. -/
theorem joinFrom_apart (sorted : (last :: set).Pairwise (·.lo ≤ ·.lo)) : (joinFrom last set).Apart := by
  induction set generalizing last with
  | nil => exact List.pairwise_singleton _ _
  | cons next rest ih =>
    have sortedRest := (List.pairwise_cons.mp sorted).2
    rw [joinFrom]
    by_cases adjoins : next.lo.toNat ≤ last.hi.toNat + 1
    · obtain ⟨wide, widened, lo, _⟩ := exists_joined last next
      rw [if_pos adjoins, widened]
      exact ih (sorted_joined sorted lo)
    · -- Nothing that follows begins before the interval that was not joined.
      rw [if_neg adjoins]
      apply List.pairwise_cons.mpr
      refine ⟨fun other later => ?_, ih sortedRest⟩
      have least := rune_le_iff.mp (lo_le_of_mem_joinFrom sortedRest later)
      omega

theorem simplify_apart (set : RuneSet) : set.simplify.Apart := by
  have sorted := sorted_mergeSort set
  unfold simplify
  cases ordered : set.mergeSort fun a b => a.lo ≤ b.lo with
  | nil => exact List.Pairwise.nil
  | cons interval rest => exact joinFrom_apart (ordered ▸ sorted)

theorem joinFrom_of_apart (apart : Apart (last :: set)) : joinFrom last set = last :: set := by
  induction set generalizing last with
  | nil => rfl
  | cons next rest ih =>
    obtain ⟨spare, apartRest⟩ := List.pairwise_cons.mp apart
    have free := spare next List.mem_cons_self
    rw [joinFrom, if_neg (by omega), ih apartRest]

/-- Where there is nothing to sort and nothing to join, simplifying changes nothing. -/
theorem simplify_of_apart (proper : set.Proper) (apart : set.Apart) : set.simplify = set := by
  have sorted : set.Pairwise fun first later => decide (first.lo ≤ later.lo) = true := by
    apply apart.imp_of_mem
    intro first later listed _ spare
    have order := rune_le_iff.mp (proper first listed)
    rw [decide_eq_true_eq, rune_le_iff]
    omega
  rw [simplify, List.mergeSort_of_pairwise sorted]
  cases set with
  | nil => rfl
  | cons interval rest => exact joinFrom_of_apart apart

/-! ## Gaps -/

/-- Proper intervals that ascend from a point on. -/
structure From (point : Nat) (set : RuneSet) : Prop where
  proper : set.Proper
  ascending : set.Ascending
  above : ∀ interval ∈ set, point ≤ interval.lo.toNat

theorem from_simplify (proper : set.Proper) : From 0 set.simplify where
  proper := simplify_proper proper
  ascending := (simplify_apart set).ascending
  above := fun _ _ => Nat.zero_le _

namespace From

theorem behind (placed : From point (interval :: rest)) : From (interval.hi.toNat + 1) rest where
  proper := fun other listed => placed.proper other (List.mem_cons_of_mem _ listed)
  ascending := (List.pairwise_cons.mp placed.ascending).2
  above := fun other listed => rune_lt_iff.mp ((List.pairwise_cons.mp placed.ascending).1 other listed)

theorem start (placed : From point (interval :: rest)) : point ≤ interval.lo.toNat :=
  placed.above interval List.mem_cons_self

theorem order (placed : From point (interval :: rest)) : interval.lo.toNat ≤ interval.hi.toNat :=
  rune_le_iff.mp (placed.proper interval List.mem_cons_self)

end From

/-- The code point below a rune is no further than the last one. -/
theorem pred_toNat_le (rune : Char) : rune.toNat - 1 ≤ lastCodePoint :=
  (Nat.sub_le _ _).trans (toNat_le rune)

/-- The gaps ascend from the point on, and none of them has a surrogate. -/
theorem gapsFrom_ascending (placed : From point set) :
    (gapsFrom point set).Ascending ∧ ∀ gap ∈ gapsFrom point set, point ≤ gap.lo.toNat ∧
      (gap.hi.toNat < firstSurrogate ∨ lastSurrogate < gap.lo.toNat) := by
  induction set generalizing point with
  | nil =>
    rw [gapsFrom]
    split_ifs with inside
    · refine ⟨ofRange_ascending le_rfl, fun gap listed => ?_⟩
      obtain ⟨least, _, apart⟩ := mem_ofRange le_rfl listed
      exact ⟨least, apart⟩
    · exact ⟨List.Pairwise.nil, fun _ absent => (List.not_mem_nil absent).elim⟩
  | cons interval rest ih =>
    have start := placed.start
    have order := placed.order
    have bound := pred_toNat_le interval.lo
    obtain ⟨gaps, behind⟩ := ih placed.behind
    rw [gapsFrom]
    split_ifs with free
    · refine ⟨List.pairwise_append.mpr ⟨ofRange_ascending bound, gaps, fun gap here other there => ?_⟩, ?_⟩
      · have most := (mem_ofRange bound here).2.1
        have least := (behind other there).1
        rw [rune_lt_iff]
        omega
      · intro gap listed
        rcases List.mem_append.mp listed with here | there
        · obtain ⟨least, _, apart⟩ := mem_ofRange bound here
          exact ⟨least, apart⟩
        · obtain ⟨least, apart⟩ := behind gap there
          exact ⟨by omega, apart⟩
    · refine ⟨gaps, fun gap there => ?_⟩
      obtain ⟨least, apart⟩ := behind gap there
      exact ⟨by omega, apart⟩

/-- The gaps hold the runes from the point on that no interval holds. -/
theorem contains_gapsFrom (placed : From point set) (rune : Char) :
    (gapsFrom point set).Contains rune ↔ point ≤ rune.toNat ∧ ¬ set.Contains rune := by
  induction set generalizing point with
  | nil =>
    have most := toNat_le rune
    have nothing : ¬ Contains [] rune := by simp [Contains]
    rw [gapsFrom, and_iff_left nothing]
    split_ifs with inside
    · rw [contains_ofRange le_rfl, and_iff_left most]
    · exact iff_of_false nothing (by omega)
  | cons interval rest ih =>
    have start := placed.start
    have order := placed.order
    have bound := pred_toNat_le interval.lo
    have apart (held : Contains rest rune) : interval.hi.toNat < rune.toNat := by
      obtain ⟨other, listed, low, _⟩ := held
      exact lt_of_lt_of_le (placed.behind.above other listed) (rune_le_iff.mp low)
    have here : Contains (if point < interval.lo.toNat then ofRange point (interval.lo.toNat - 1) else []) rune ↔
        point ≤ rune.toNat ∧ rune.toNat < interval.lo.toNat := by
      split_ifs with free
      · rw [contains_ofRange bound]
        omega
      · exact iff_of_false (by simp [Contains]) (by omega)
    rw [gapsFrom, contains_append, here, ih placed.behind, contains_cons, RuneInterval.Contains, rune_le_iff, rune_le_iff]
    -- A rune of a later interval lies beyond this one, and so in no gap before it.
    by_cases held : Contains rest rune
    · have far := apart held
      simp only [held, not_true_eq_false, and_false, or_false, or_true, iff_false]
      omega
    · simp only [held, not_false_eq_true, and_true, or_false]
      omega

/-- A complement holds the runes that the set leaves out. -/
theorem contains_invert (proper : set.Proper) (rune : Char) : set.invert.Contains rune ↔ ¬ set.Contains rune := by
  rw [invert, contains_gapsFrom (from_simplify proper), contains_simplify]
  exact and_iff_right (Nat.zero_le _)

/-! ## Counts -/

theorem count_eq_sum (set : RuneSet) : set.count = (set.scalarRanges.map rangeSize).sum := by
  rw [List.sum_eq_foldl, List.foldl_map]
  rfl

theorem count_nil : count [] = 0 := rfl

theorem count_append (first second : RuneSet) : count (first ++ second) = first.count + second.count := by
  simp only [count_eq_sum, scalarRanges, List.flatMap_append, List.map_append, List.sum_append]

theorem count_cons (interval : RuneInterval) (rest : RuneSet) : count (interval :: rest) =
    ((splitSurrogates interval.lo.toNat interval.hi.toNat).map rangeSize).sum + rest.count := by
  simp only [count_eq_sum, scalarRanges, List.flatMap_cons, List.map_append, List.sum_append]

theorem runesBelow_add_count_ofRange (lo : Nat) (order : lo ≤ hi + 1) (bound : hi ≤ lastCodePoint) :
    runesBelow lo + (ofRange lo hi).count = runesBelow (hi + 1) := by
  have whole : (ofRange lo hi).scalarRanges = splitSurrogates lo hi := by
    calc
      _ = (ofRange lo hi).flatMap fun interval => [interval.ends] := by
        apply List.flatMap_congr
        intro interval listed
        have sides := (mem_ofRange bound listed).2.2
        exact splitSurrogates_of_apart (rune_le_iff.mp (ofRange_proper lo hi interval listed)) sides
      _ = (ofRange lo hi).map RuneInterval.ends := (List.map_eq_flatMap).symm
      _ = splitSurrogates lo hi := map_ends_ofRange bound
  rw [count_eq_sum, whole]
  exact runesBelow_add_sum lo hi order

/-- Intervals and the gaps between them share out the scalar values from the point on. -/
theorem runesBelow_add_counts (placed : From point set) (inside : point ≤ lastCodePoint + 1) :
    runesBelow point + (set.count + (gapsFrom point set).count) = runesBelow (lastCodePoint + 1) := by
  induction set generalizing point with
  | nil =>
    rw [gapsFrom, count_nil, Nat.zero_add]
    split_ifs with some_
    · exact runesBelow_add_count_ofRange point inside le_rfl
    · have last : point = lastCodePoint + 1 := by omega
      rw [count_nil, last, Nat.add_zero]
  | cons interval rest ih =>
    have start := placed.start
    have order := placed.order
    have behind := ih placed.behind (Nat.add_le_add_right (toNat_le interval.hi) 1)
    have gap : runesBelow point +
        count (if point < interval.lo.toNat then ofRange point (interval.lo.toNat - 1) else []) =
          runesBelow interval.lo.toNat := by
      split_ifs with free
      · have counted := runesBelow_add_count_ofRange point (by omega) (pred_toNat_le interval.lo)
        rwa [show interval.lo.toNat - 1 + 1 = interval.lo.toNat by omega] at counted
      · have same : point = interval.lo.toNat := by omega
        rw [count_nil, same, Nat.add_zero]
    -- The scalar values below the interval, those in it and those behind it follow upon each other.
    have held := runesBelow_add_sum interval.lo.toNat interval.hi.toNat (by omega)
    rw [gapsFrom, count_append, count_cons]
    omega

theorem count_simplify_add_count_invert (proper : set.Proper) :
    set.simplify.count + set.invert.count = 0x110000 - 0x800 := by
  have counts := runesBelow_add_counts (from_simplify proper) (Nat.zero_le _)
  have none_ : runesBelow 0 = 0 := by simp [runesBelow]
  have all : runesBelow (lastCodePoint + 1) = 0x110000 - 0x800 := by
    simp [runesBelow, firstSurrogate, lastSurrogate, lastCodePoint]
  rwa [none_, all, Nat.zero_add] at counts

/-! ## No computation leaves the word -/

theorem joinInWords?_eq (last : RuneInterval) (set : RuneSet) : joinInWords? last set = some (joinFrom last set) := by
  induction set generalizing last with
  | nil => rfl
  | cons interval rest ih =>
    rw [joinInWords?, joinFrom, addWords?_toNat, Option.bind_eq_bind, Option.bind_some]
    by_cases adjoins : interval.lo.toNat ≤ last.hi.toNat + 1
    · rw [if_pos adjoins, if_pos adjoins, ih]
    · rw [if_neg adjoins, if_neg adjoins, ih]
      rfl

theorem simplifyInWords?_eq (set : RuneSet) : set.simplifyInWords? = some set.simplify := by
  unfold simplifyInWords? simplify
  cases set.mergeSort fun a b => a.lo ≤ b.lo with
  | nil => rfl
  | cons interval rest => exact joinInWords?_eq interval rest

theorem gapsInWords?_eq (point : Nat) (set : RuneSet) : gapsInWords? point set = some (gapsFrom point set) := by
  induction set generalizing point with
  | nil => rfl
  | cons interval rest ih =>
    rw [gapsInWords?, gapsFrom, addWords?_toNat]
    by_cases free : point < interval.lo.toNat
    · rw [if_pos free, if_pos free, subWords?_eq (by omega)]
      simp only [Option.map_some, Option.bind_eq_bind, Option.bind_some, Option.pure_def, ih]
    · rw [if_neg free, if_neg free]
      simp only [Option.bind_eq_bind, Option.bind_some, Option.pure_def, ih]

theorem invertInWords?_eq (set : RuneSet) : set.invertInWords? = some set.invert := by
  rw [invertInWords?, simplifyInWords?_eq, Option.bind_eq_bind, Option.bind_some, gapsInWords?_eq, invert]

theorem addSizeInWords?_eq {total : Nat} {part : Nat × Nat} (order : part.1 ≤ part.2)
    (fits : total + rangeSize part < word32Bound) : addSizeInWords? total part = some (total + rangeSize part) := by
  unfold rangeSize at *
  rw [addSizeInWords?, subWords?_eq order, Option.bind_eq_bind, Option.bind_some, addWords?_eq (by omega),
    Option.bind_some, addWords?_eq fits]

theorem foldlM_addSizeInWords? {total : Nat} {parts : List (Nat × Nat)} (order : ∀ part ∈ parts, part.1 ≤ part.2)
    (fits : total + (parts.map rangeSize).sum < word32Bound) :
    parts.foldlM addSizeInWords? total = some (total + (parts.map rangeSize).sum) := by
  induction parts generalizing total with
  | nil => rfl
  | cons part rest ih =>
    rw [List.map_cons, List.sum_cons] at fits
    rw [List.foldlM_cons, addSizeInWords?_eq (order part List.mem_cons_self) (by omega), Option.bind_eq_bind,
      Option.bind_some, ih (fun other listed => order other (List.mem_cons_of_mem _ listed)) (by omega), List.map_cons,
      List.sum_cons, Nat.add_assoc]

theorem le_of_mem_scalarRanges {part : Nat × Nat} (listed : part ∈ set.scalarRanges) : part.1 ≤ part.2 := by
  obtain ⟨_, _, inside⟩ := List.mem_flatMap.mp listed
  exact (mem_splitSurrogates inside).2.1

/-- A count that is a word is found by adding words. -/
theorem countWord_eq (fits : set.count < word32Bound) : set.countWord = .ok set.count := by
  rw [count_eq_sum] at fits
  rw [countWord, foldlM_addSizeInWords? (fun _ => le_of_mem_scalarRanges) (by omega), count_eq_sum, Nat.zero_add]

/-! ## A set and its complement -/

/-- The same runes, in intervals that ascend and leave at least one code point free between any two of them. -/
structure Joins (set joined : RuneSet) : Prop where
  proper : joined.Proper
  apart : joined.Apart
  contains (rune : Char) : joined.Contains rune ↔ set.Contains rune

/-- The other runes, in intervals that ascend and have no surrogates. -/
structure Complements (set others : RuneSet) : Prop where
  proper : others.Proper
  ascending : others.Ascending
  scalar : ∀ interval ∈ others, interval.hi.toNat < firstSurrogate ∨ lastSurrogate < interval.lo.toNat
  contains (rune : Char) : others.Contains rune ↔ ¬ set.Contains rune

theorem joins_simplify (proper : set.Proper) : Joins set set.simplify :=
  ⟨simplify_proper proper, simplify_apart set, contains_simplify set⟩

theorem complements_invert (proper : set.Proper) : Complements set set.invert := by
  have gaps := gapsFrom_ascending (from_simplify proper)
  exact
    { proper := invert_proper set
      ascending := gaps.1
      scalar := fun interval listed => (gaps.2 interval listed).2
      contains := contains_invert proper }

/-- A set with proper intervals, however they overlap and in whatever order they come, and its complement: both are
computed without leaving the word, simplifying is idempotent, a complement is undone by another, and the two counts add
up to all scalar values. -/
theorem simplify_invert_count (proper : set.Proper) :
    Joins set set.simplify ∧ set.simplify.simplify = set.simplify ∧
    Complements set set.invert ∧ (∀ rune, set.invert.invert.Contains rune ↔ set.Contains rune) ∧
    set.simplifyInWords? = some set.simplify ∧ set.simplify.simplifyInWords? = some set.simplify.simplify ∧
    set.invertInWords? = some set.invert ∧ set.invert.invertInWords? = some set.invert.invert ∧
    set.simplify.countWord = .ok set.simplify.count ∧ set.invert.countWord = .ok set.invert.count ∧
    set.simplify.count + set.invert.count = 0x110000 - 0x800 := by
  have inside := joins_simplify proper
  have outside := complements_invert proper
  have total := count_simplify_add_count_invert proper
  have fitsInside : set.simplify.count < word32Bound := by
    unfold word32Bound
    omega
  have fitsOutside : set.invert.count < word32Bound := by
    unfold word32Bound
    omega
  have undone (rune : Char) : set.invert.invert.Contains rune ↔ set.Contains rune := by
    rw [contains_invert outside.proper, outside.contains, not_not]
  exact ⟨inside, simplify_of_apart inside.proper inside.apart, outside, undone,
    simplifyInWords?_eq _, simplifyInWords?_eq _, invertInWords?_eq _, invertInWords?_eq _,
    countWord_eq fitsInside, countWord_eq fitsOutside, total⟩

/-- Intervals out of order, one inside another, two that adjoin, one up to the surrogates and one from behind them to
the last rune. -/
def unsortedIntervals : RuneSet :=
  [⟨'\uE000', Char.ofNat lastCodePoint⟩, ⟨'m', 'p'⟩, ⟨'n', 'n'⟩, ⟨'a', 'c'⟩, ⟨'q', 's'⟩, ⟨'\uD000', '\uD7FF'⟩]

theorem simplify_invert_count_unsorted :
    unsortedIntervals.Proper ∧ Joins unsortedIntervals unsortedIntervals.simplify ∧
      unsortedIntervals.simplify.simplify = unsortedIntervals.simplify ∧
      Complements unsortedIntervals unsortedIntervals.invert ∧
      unsortedIntervals.simplify.count + unsortedIntervals.invert.count = 0x110000 - 0x800 := by
  have proper : unsortedIntervals.Proper := by
    unfold Proper unsortedIntervals
    decide
  obtain ⟨inside, same, outside, _, _, _, _, _, _, _, total⟩ := simplify_invert_count proper
  exact ⟨proper, inside, same, outside, total⟩

end RuneSet

end ByteAutomata
