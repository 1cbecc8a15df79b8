import Mathlib

/-!
Naming keys in the order in which they come.

Worklists name what they find by consecutive numbers and keep the names in a map. Such a map is
described by the list of its keys: a key's name is its place in that list, counted from the first
name that was free.
-/

namespace ByteAutomata

/-! ## Places in a growing list -/

section

variable {α : Type} {list more : List α} {place : Nat} {item last : α}

theorem getElem?_of_isPrefix (grows : list <+: more) (found : list[place]? = some item) :
    more[place]? = some item := by
  obtain ⟨rest, rfl⟩ := grows
  rw [List.getElem?_append_left (List.getElem?_eq_some_iff.mp found).1, found]

/-- One item more is held at the end, and all others where they were. -/
theorem getElem?_concat_eq_some_iff :
    (list ++ [last])[place]? = some item ↔ list[place]? = some item ∨ place = list.length ∧ item = last := by
  constructor
  · intro found
    rcases Nat.lt_or_ge place list.length with earlier | later
    · exact Or.inl ((List.getElem?_append_left earlier).symm.trans found)
    · have bound := (List.getElem?_eq_some_iff.mp found).1
      rw [List.length_append, List.length_singleton] at bound
      obtain rfl : place = list.length := by omega
      rw [List.getElem?_concat_length, Option.some.injEq] at found
      exact Or.inr ⟨rfl, found.symm⟩
  · rintro (found | ⟨rfl, rfl⟩)
    · exact getElem?_of_isPrefix (List.prefix_append _ _) found
    · exact List.getElem?_concat_length

end

/-! ## Names by place -/

/-- The map names the keys of a list without repetitions from `first` on, and no other key. -/
structure Interns {κ : Type} [BEq κ] [Hashable κ] (named : Std.HashMap κ Nat) (first : Nat)
    (keys : List κ) : Prop where
  distinct : keys.Nodup
  named_iff : ∀ key name, named[key]? = some name ↔
    ∃ place, keys[place]? = some key ∧ name = first + place

namespace Interns

variable {κ : Type} [BEq κ] [LawfulBEq κ] [Hashable κ] {named : Std.HashMap κ Nat} {first : Nat}
  {keys : List κ} {key : κ}

omit [LawfulBEq κ] in
theorem unnamed_iff (interns : Interns named first keys) : named[key]? = none ↔ key ∉ keys := by
  constructor
  · intro unnamed member
    obtain ⟨place, found⟩ := List.mem_iff_getElem?.mp member
    have known := (interns.named_iff key (first + place)).mpr ⟨place, found, rfl⟩
    rw [unnamed] at known
    cases known
  · intro absent
    cases known : named[key]? with
    | none => rfl
    | some name =>
      obtain ⟨place, found, _⟩ := (interns.named_iff key name).mp known
      exact absurd (List.mem_of_getElem? found) absent

theorem empty (first : Nat) : Interns (∅ : Std.HashMap κ Nat) first [] where
  distinct := List.nodup_nil
  named_iff := by simp

/-- Naming a new key by the next number puts it at the end of the list. -/
theorem insert (interns : Interns named first keys) (absent : key ∉ keys) :
    Interns (named.insert key (first + keys.length)) first (keys ++ [key]) where
  distinct := by
    rw [List.nodup_append']
    exact ⟨interns.distinct, List.nodup_singleton key, by simpa using absent⟩
  named_iff := by
    intro other name
    simp only [Std.HashMap.getElem?_insert, getElem?_concat_eq_some_iff]
    by_cases same : key = other
    · subst same
      rw [if_pos BEq.rfl, Option.some.injEq]
      constructor
      · rintro rfl
        exact ⟨keys.length, Or.inr ⟨rfl, rfl⟩, rfl⟩
      · rintro ⟨place, found | ⟨rfl, _⟩, rfl⟩
        · exact absurd (List.mem_of_getElem? found) absent
        · rfl
    · simp only [beq_eq_false_iff_ne.mpr same, Bool.false_eq_true, ↓reduceIte,
        interns.named_iff]
      exact exists_congr fun place => and_congr_left fun _ => (or_iff_left fun last => same last.2.symm).symm

end Interns

/-- Distinct names below a bound are at most that many. -/
theorem length_le_of_nodup {ids : List Nat} {bound : Nat} (distinct : ids.Nodup)
    (inside : ∀ id ∈ ids, id < bound) : ids.length ≤ bound := by
  have within : ids ⊆ List.range bound := fun id member => List.mem_range.mpr (inside id member)
  simpa using (List.subperm_of_subset distinct within).length_le

/-! ## Ascending lists -/

theorem eraseReps_loop_eq {α : Type} (same : α → α → Bool) (first : α) (rest found : List α) :
    List.eraseRepsBy.loop same first rest found =
      found.reverse ++ List.eraseRepsBy.loop same first rest [] := by
  induction rest generalizing first found with
  | nil => simp [List.eraseRepsBy.loop]
  | cons second rest ih =>
    simp only [List.eraseRepsBy.loop]
    cases same first second with
    | true => exact ih first found
    | false =>
      simp only []
      rw [ih second (first :: found), ih second [first]]
      simp

section

variable {α : Type} [LE α] [LT α] [Std.IsLinearOrder α] [Std.LawfulOrderLT α] [DecidableEq α]

theorem eraseReps_loop_ascends (first : α) (rest : List α)
    (ordered : (first :: rest).Pairwise (· ≤ ·)) :
    (List.eraseRepsBy.loop (· == ·) first rest []).Pairwise (· < ·) ∧
      ∀ other, other ∈ List.eraseRepsBy.loop (· == ·) first rest [] ↔ other ∈ first :: rest := by
  induction rest generalizing first with
  | nil => simp [List.eraseRepsBy.loop]
  | cons second rest ih =>
    have later : ∀ other ∈ second :: rest, first ≤ other := fun _ =>
      List.rel_of_pairwise_cons ordered
    have shorter := ordered.of_cons
    simp only [List.eraseRepsBy.loop]
    by_cases same : first = second
    · subst same
      obtain ⟨ascends, members⟩ := ih first shorter
      rw [beq_self_eq_true]
      refine ⟨ascends, fun other => ?_⟩
      rw [members other]
      simp
    · obtain ⟨ascends, members⟩ := ih second shorter
      rw [beq_eq_false_iff_ne.mpr same]
      simp only []
      rw [eraseReps_loop_eq, List.reverse_singleton, List.singleton_append]
      refine ⟨List.pairwise_cons.mpr ⟨?_, ascends⟩, ?_⟩
      · intro other member
        have less : first < second := Std.lt_of_le_of_ne (later second List.mem_cons_self) same
        rcases List.mem_cons.mp ((members other).mp member) with here | behind
        · exact here ▸ less
        · exact Std.lt_of_lt_of_le less (List.rel_of_pairwise_cons shorter behind)
      · intro other
        rw [List.mem_cons, members other, List.mem_cons (a := other) (b := first)]

/-- Sorting and dropping repetitions gives the same members in strictly ascending order. -/
theorem sorted_ascends [DecidableLE α] (list : List α) :
    ((list.mergeSort (fun a b => decide (a ≤ b))).eraseReps).Pairwise (· < ·) ∧
      ∀ member, member ∈ (list.mergeSort (fun a b => decide (a ≤ b))).eraseReps ↔
        member ∈ list := by
  have ordered : (list.mergeSort (fun a b => decide (a ≤ b))).Pairwise (· ≤ ·) := by
    have sorted := @List.pairwise_mergeSort _ (fun a b : α => decide (a ≤ b))
      (fun a b c => by simpa using Std.le_trans)
      (fun a b => by simpa using Std.le_total) list
    simpa using sorted
  have members (member : α) :
      member ∈ list.mergeSort (fun a b => decide (a ≤ b)) ↔ member ∈ list := List.mem_mergeSort
  cases sorted : list.mergeSort (fun a b => decide (a ≤ b)) with
  | nil =>
    rw [sorted] at members
    exact ⟨List.Pairwise.nil, members⟩
  | cons first rest =>
    rw [sorted] at ordered members
    obtain ⟨ascends, same⟩ := eraseReps_loop_ascends first rest ordered
    exact ⟨ascends, fun member => (same member).trans (members member)⟩

end

end ByteAutomata
