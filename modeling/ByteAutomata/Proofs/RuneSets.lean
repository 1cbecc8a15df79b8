import ByteAutomata.RuneSet
import Mathlib

/-!
Which runes a set holds.

Intervals are proper if none of them has swapped ends. Sorting and joining intervals changes none of the
runes and leaves proper ones proper, and cutting out the surrogates loses no rune.
-/

namespace ByteAutomata

theorem scalar?_eq_some_iff {point : Nat} {rune : Char} :
    scalar? point = some rune ↔ rune.toNat = point := by
  unfold scalar?
  constructor
  · intro named
    by_cases valid : point.isValidChar
    · rw [if_pos valid, Option.some.injEq] at named
      rw [← named, Char.toNat_ofNat, if_pos valid]
    · rw [if_neg valid] at named
      cases named
  · rintro rfl
    have valid : rune.toNat.isValidChar := rune.valid
    rw [if_pos valid, Char.ofNat_toNat]

/-- A code point that is no surrogate and not too large belongs to a rune. -/
theorem exists_rune {point : Nat} (apart : point < firstSurrogate ∨ lastSurrogate < point)
    (bound : point ≤ lastCodePoint) : ∃ rune : Char, rune.toNat = point := by
  unfold firstSurrogate lastSurrogate lastCodePoint at *
  have valid : point.isValidChar := by
    rcases apart with below | above
    · exact Or.inl below
    · exact Or.inr ⟨above, Nat.lt_succ_of_le bound⟩
  exact ⟨Char.ofNat point, by rw [Char.toNat_ofNat, if_pos valid]⟩

theorem toNat_apart (rune : Char) : rune.toNat < firstSurrogate ∨ lastSurrogate < rune.toNat := by
  rcases rune.valid with below | ⟨above, _⟩
  · exact Or.inl below
  · exact Or.inr above

theorem toNat_le (rune : Char) : rune.toNat ≤ lastCodePoint := by
  rcases rune.valid with below | ⟨_, above⟩
  · exact le_trans (le_of_lt below) (by decide)
  · exact Nat.le_of_lt_succ above

theorem rune_le_iff {first second : Char} : first ≤ second ↔ first.toNat ≤ second.toNat :=
  Iff.rfl

theorem rune_lt_iff {first second : Char} : first < second ↔ first.toNat < second.toNat :=
  Iff.rfl

variable {lo hi : Nat} {rune : Char}

theorem mem_splitSurrogates {part : Nat × Nat} (listed : part ∈ splitSurrogates lo hi) :
    lo ≤ part.1 ∧ part.1 ≤ part.2 ∧ part.2 ≤ hi ∧
      (part.2 < firstSurrogate ∨ lastSurrogate < part.1) := by
  obtain ⟨first, last⟩ := part
  simp only [splitSurrogates, List.mem_filter, List.mem_append, decide_eq_true_eq] at listed
  obtain ⟨below | above, order⟩ := listed
  · split at below
    · rename_i early
      simp only [List.mem_singleton, Prod.mk.injEq] at below
      unfold firstSurrogate at *
      omega
    · cases below
  · split at above
    · rename_i late
      simp only [List.mem_singleton, Prod.mk.injEq] at above
      unfold lastSurrogate at *
      omega
    · cases above

theorem exists_splitSurrogates_iff (rune : Char) :
    (∃ part ∈ splitSurrogates lo hi, part.1 ≤ rune.toNat ∧ rune.toNat ≤ part.2) ↔
      lo ≤ rune.toNat ∧ rune.toNat ≤ hi := by
  constructor
  · rintro ⟨part, listed, above, below⟩
    obtain ⟨least, _, most, _⟩ := mem_splitSurrogates listed
    exact ⟨le_trans least above, le_trans below most⟩
  · rintro ⟨above, below⟩
    rcases toNat_apart rune with early | late
    · refine ⟨(lo, min hi (firstSurrogate - 1)), ?_, above, ?_⟩
      · simp only [splitSurrogates, List.mem_filter, List.mem_append, decide_eq_true_eq]
        refine ⟨Or.inl ?_, ?_⟩
        · rw [if_pos (lt_of_le_of_lt above early)]
          exact List.mem_singleton_self _
        · unfold firstSurrogate at *
          omega
      · unfold firstSurrogate at *
        omega
    · refine ⟨(max lo (lastSurrogate + 1), hi), ?_, ?_, below⟩
      · simp only [splitSurrogates, List.mem_filter, List.mem_append, decide_eq_true_eq]
        refine ⟨Or.inr ?_, ?_⟩
        · rw [if_pos (lt_of_lt_of_le late below)]
          exact List.mem_singleton_self _
        · omega
      · omega

namespace RuneSet

/-- No interval has swapped ends. -/
def Proper (set : RuneSet) : Prop :=
  ∀ interval ∈ set, interval.lo ≤ interval.hi

variable {set : RuneSet} {last : RuneInterval}

theorem firstSwapped?_eq_none_iff : set.firstSwapped? = none ↔ set.Proper := by
  simp [firstSwapped?, Proper]

theorem contains_cons (interval : RuneInterval) (set : RuneSet) :
    Contains (interval :: set) rune ↔ interval.Contains rune ∨ set.Contains rune := by
  simp [Contains]

/-- Of two intervals that overlap or adjoin, joining keeps the first low end and the greater high end. -/
theorem exists_joined (last interval : RuneInterval) : ∃ wide : RuneInterval,
    (if last.hi < interval.hi then { last with hi := interval.hi } else last) = wide ∧
      wide.lo = last.lo ∧ wide.hi.toNat = max last.hi.toNat interval.hi.toNat := by
  refine ⟨_, rfl, ?_⟩
  by_cases longer : last.hi < interval.hi
  · rw [if_pos longer]
    exact ⟨rfl, (Nat.max_eq_right (le_of_lt (rune_lt_iff.mp longer))).symm⟩
  · rw [if_neg longer]
    exact ⟨rfl, (Nat.max_eq_left (rune_le_iff.mp (Char.not_lt.mp longer))).symm⟩

/-- The joined interval takes the place of both in the order of low ends. -/
theorem sorted_joined {interval wide : RuneInterval} (sorted : (last :: interval :: set).Pairwise (·.lo ≤ ·.lo))
    (lo : wide.lo = last.lo) : (wide :: set).Pairwise (·.lo ≤ ·.lo) := by
  obtain ⟨below, sortedRest⟩ := List.pairwise_cons.mp sorted
  apply List.pairwise_cons.mpr
  exact ⟨fun other member => lo ▸ below other (List.mem_cons_of_mem _ member), (List.pairwise_cons.mp sortedRest).2⟩

/-- Joining keeps the runes. An interval with swapped ends that joins another one adds nothing to it. -/
theorem contains_joinFrom (sorted : (last :: set).Pairwise (·.lo ≤ ·.lo)) (rune : Char) :
    (joinFrom last set).Contains rune ↔ last.Contains rune ∨ set.Contains rune := by
  induction set generalizing last with
  | nil => simp [joinFrom, Contains]
  | cons interval rest ih =>
    obtain ⟨below, sortedRest⟩ := List.pairwise_cons.mp sorted
    have least := below interval List.mem_cons_self
    simp only [joinFrom]
    by_cases adjoins : interval.lo.toNat ≤ last.hi.toNat + 1
    · obtain ⟨wide, widened, lo, hi⟩ := exists_joined last interval
      rw [if_pos adjoins, widened, ih (sorted_joined sorted lo), contains_cons, ← or_assoc]
      refine or_congr_left ?_
      simp only [RuneInterval.Contains, rune_le_iff, lo, hi] at *
      omega
    · rw [if_neg adjoins, contains_cons, ih sortedRest, contains_cons]

theorem proper_single (rune : Char) : Proper [.single rune] := by
  intro interval listed
  rw [List.mem_singleton.mp listed]
  exact Char.le_refl rune

theorem proper_append {first second : RuneSet} (here : first.Proper) (there : second.Proper) :
    Proper (first ++ second) :=
  List.forall_mem_append.mpr ⟨here, there⟩

/-- A range with swapped ends yields no interval. -/
theorem ofCodePoints_proper (ranges : List (Nat × Nat)) : (ofCodePoints ranges).Proper := by
  intro interval listed
  obtain ⟨range, _, made⟩ := List.mem_filterMap.mp listed
  split at made
  · split at made
    · rename_i order
      exact Option.some.inj made ▸ order
    · cases made
  · cases made

theorem ofRange_proper (lo hi : Nat) : (ofRange lo hi).Proper := by
  intro interval listed
  obtain ⟨part, split_, made⟩ := List.mem_filterMap.mp listed
  split at made
  · rename_i low high
    obtain ⟨_, order, _⟩ := mem_splitSurrogates split_
    rw [scalar?_eq_some_iff] at low high
    rw [← Option.some.inj made, rune_le_iff, low, high]
    exact order
  · cases made

theorem gapsFrom_proper (point : Nat) (set : RuneSet) : (gapsFrom point set).Proper := by
  induction set generalizing point with
  | nil =>
    rw [gapsFrom]
    split
    · exact ofRange_proper _ _
    · exact fun _ listed => nomatch listed
  | cons interval rest ih =>
    rw [gapsFrom]
    intro other listed
    rcases List.mem_append.mp listed with here | there
    · split at here
      · exact ofRange_proper _ _ other here
      · cases here
    · exact ih _ other there

/-- Whatever the intervals of a set are, those that it leaves out are proper. -/
theorem invert_proper (set : RuneSet) : set.invert.Proper :=
  gapsFrom_proper 0 set.simplify

/-- Joining keeps the intervals proper. -/
theorem joinFrom_proper (order : last.lo ≤ last.hi) (proper : set.Proper) : (joinFrom last set).Proper := by
  induction set generalizing last with
  | nil => simp [joinFrom, Proper, order]
  | cons interval rest ih =>
    have properRest : Proper rest := fun other member => proper other (List.mem_cons_of_mem _ member)
    simp only [joinFrom]
    by_cases adjoins : interval.lo.toNat ≤ last.hi.toNat + 1
    · obtain ⟨wide, widened, lo, hi⟩ := exists_joined last interval
      have orderWide : wide.lo ≤ wide.hi := by
        rw [rune_le_iff, lo, hi]
        exact le_trans order (le_max_left _ _)
      rw [if_pos adjoins, widened]
      exact ih orderWide properRest
    · rw [if_neg adjoins]
      intro other listed
      rcases List.mem_cons.mp listed with first | later
      · exact first ▸ order
      · exact ih (proper interval List.mem_cons_self) properRest other later

/-- The intervals in ascending order of their low ends. -/
theorem sorted_mergeSort (set : RuneSet) : (set.mergeSort fun a b => a.lo ≤ b.lo).Pairwise (·.lo ≤ ·.lo) := by
  simpa using @List.pairwise_mergeSort RuneInterval (fun a b => decide (a.lo ≤ b.lo))
    (by simpa using fun a b c => Char.le_trans) (by simpa using fun a b => Char.le_total _ _) set

/-- Simplifying keeps the runes, whether intervals have swapped ends or not. -/
theorem contains_simplify (set : RuneSet) (rune : Char) : set.simplify.Contains rune ↔ set.Contains rune := by
  have sorted := sorted_mergeSort set
  have member (interval : RuneInterval) :
      interval ∈ set.mergeSort (fun a b => a.lo ≤ b.lo) ↔ interval ∈ set := List.mem_mergeSort
  unfold simplify
  generalize set.mergeSort (fun a b => a.lo ≤ b.lo) = ordered at sorted member
  have same : Contains ordered rune ↔ set.Contains rune := by
    simp only [Contains, member]
  cases ordered with
  | nil => exact same
  | cons interval rest => rw [contains_joinFrom sorted, ← contains_cons, same]

theorem simplify_proper (proper : set.Proper) : set.simplify.Proper := by
  have member (interval : RuneInterval) :
      interval ∈ set.mergeSort (fun a b => a.lo ≤ b.lo) ↔ interval ∈ set := List.mem_mergeSort
  unfold simplify
  generalize set.mergeSort (fun a b => a.lo ≤ b.lo) = ordered at member
  have properSorted : Proper ordered := fun interval listed => proper interval ((member interval).mp listed)
  cases ordered with
  | nil => exact properSorted
  | cons interval rest =>
    exact joinFrom_proper (properSorted interval List.mem_cons_self)
      fun other later => properSorted other (List.mem_cons_of_mem _ later)

end RuneSet

end ByteAutomata
