import ByteAutomata.SparseSet
import ByteAutomata.Proofs.EpsilonClosure

/-!
A sparse set is a list without repetitions.

The places that clearing, swapping and growing leave behind in both arrays do no harm: a member is
trusted only where the two arrays agree below the size, and there they always agree.
-/

namespace ByteAutomata

namespace SparseSet

/-- Below its size a set notes for each member the place at which it stands. What the arrays hold
beyond that is free. -/
structure Valid (set : SparseSet) : Prop where
  fits : set.size ≤ set.dense.size
  even : set.sparse.size = set.dense.size
  placed : ∀ place id, place < set.size → set.dense[place]? = some id →
    set.sparse[id]? = some place

variable {set : SparseSet} {id : StateId}

theorem getElem?_toList (set : SparseSet) (place : Nat) :
    set.toList[place]? = if place < set.size then set.dense[place]? else none := by
  simp only [toList, Array.take_eq_extract, Array.toList_extract, List.extract_eq_take_drop,
    List.drop_zero, Nat.sub_zero, List.getElem?_take, Array.getElem?_toList]

theorem mem_toList_iff (set : SparseSet) (id : StateId) :
    id ∈ set.toList ↔ ∃ place < set.size, set.dense[place]? = some id := by
  simp only [List.mem_iff_getElem?, getElem?_toList]
  constructor
  · rintro ⟨place, found⟩
    by_cases inside : place < set.size
    · exact ⟨place, inside, by simpa [inside] using found⟩
    · simp [inside] at found
  · rintro ⟨place, inside, found⟩
    exact ⟨place, by simpa [inside] using found⟩

theorem length_toList (valid : set.Valid) : set.toList.length = set.size := by
  have fits := valid.fits
  simp [toList, fits]

theorem isEmpty_iff (valid : set.Valid) : set.isEmpty = true ↔ set.toList = [] := by
  rw [← List.length_eq_zero_iff, length_toList valid, isEmpty, beq_iff_eq]

namespace Valid

theorem lt_capacity (valid : set.Valid) (member : id ∈ set.toList) : id < set.capacity := by
  obtain ⟨place, inside, found⟩ := (mem_toList_iff set id).mp member
  have noted := valid.placed place id inside found
  exact lt_of_lt_of_eq (Array.getElem?_eq_some_iff.mp noted).1 valid.even

theorem nodup (valid : set.Valid) : set.toList.Nodup := by
  rw [List.nodup_iff_getElem?_ne_getElem?]
  intro low high order inside same
  rw [length_toList valid] at inside
  rw [getElem?_toList, getElem?_toList, if_pos (order.trans inside), if_pos inside] at same
  have within : low < set.dense.size := lt_of_lt_of_le (order.trans inside) valid.fits
  have first := valid.placed low _ (order.trans inside) (Array.getElem?_eq_getElem within)
  have second := valid.placed high _ inside (same ▸ Array.getElem?_eq_getElem within)
  rw [first, Option.some.injEq] at second
  omega

theorem contains_eq (valid : set.Valid) (room : id < set.capacity) :
    set.contains id = .ok (decide (id ∈ set.toList)) := by
  have inside : id < set.sparse.size := lt_of_lt_of_eq room valid.even.symm
  have noted := Array.getElem?_eq_getElem inside
  generalize set.sparse[id] = place at noted
  simp only [contains, noted, Except.ok.injEq]
  rw [Bool.eq_iff_iff, decide_eq_true_iff, mem_toList_iff]
  constructor
  · intro agrees
    simp only [Bool.and_eq_true, decide_eq_true_eq, beq_iff_eq] at agrees
    exact ⟨place, agrees⟩
  · rintro ⟨other, below, found⟩
    have back := valid.placed other id below found
    rw [noted, Option.some.injEq] at back
    simp [back, below, found]

/-- Where a state is no member there is a place left for it. -/
theorem size_lt_capacity (valid : set.Valid) (room : id < set.capacity) (absent : id ∉ set.toList) :
    set.size < set.capacity := by
  have distinct : (set.toList ++ [id]).Nodup := by
    rw [List.nodup_append']
    exact ⟨valid.nodup, List.nodup_singleton id, by simpa using absent⟩
  have bound := length_le_of_nodup distinct (by
    intro other listed
    rcases List.mem_append.mp listed with earlier | last
    · exact valid.lt_capacity earlier
    · exact List.mem_singleton.mp last ▸ room)
  rwa [List.length_append, length_toList valid] at bound

end Valid

/-- The set with a state at its end. -/
def appended (set : SparseSet) (id : StateId) : SparseSet where
  size := set.size + 1
  dense := set.dense.setIfInBounds set.size id
  sparse := set.sparse.setIfInBounds id set.size

theorem toList_appended (valid : set.Valid) (space : set.size < set.capacity) :
    (set.appended id).toList = set.toList ++ [id] := by
  rw [capacity] at space
  apply List.ext_getElem?
  intro place
  rw [getElem?_toList, List.getElem?_append, length_toList valid, getElem?_toList]
  simp only [appended, Array.getElem?_setIfInBounds]
  by_cases earlier : place < set.size
  · have different : set.size ≠ place := by omega
    simp [earlier, different, Nat.lt_succ_of_lt earlier]
  · by_cases last : set.size = place
    · simp [← last, space]
    · have beyond : ¬ place < set.size + 1 := by omega
      have positive : place - set.size ≠ 0 := by omega
      simp [earlier, beyond, positive]

namespace Valid

theorem appended (valid : set.Valid) (room : id < set.capacity) (absent : id ∉ set.toList) :
    (set.appended id).Valid where
  fits := by
    have space : set.size < set.dense.size := valid.size_lt_capacity room absent
    simpa [SparseSet.appended] using space
  even := by simpa [SparseSet.appended] using valid.even
  placed := by
    have space : set.size < set.dense.size := valid.size_lt_capacity room absent
    have inside : id < set.sparse.size := lt_of_lt_of_eq room valid.even.symm
    intro place other below found
    simp only [SparseSet.appended, Array.getElem?_setIfInBounds] at below found ⊢
    by_cases last : set.size = place
    · subst last
      simp only [↓reduceIte, space, Option.some.injEq] at found
      subst found
      simp [inside]
    · simp only [last, ↓reduceIte] at found
      have earlier : place < set.size := by omega
      have different : id ≠ other := by
        rintro rfl
        exact absent ((mem_toList_iff set id).mpr ⟨place, earlier, found⟩)
      simp only [different, ↓reduceIte]
      exact valid.placed place other earlier found

/-- Inserting appends a state that is no member yet and leaves every other set as it is. -/
theorem insert_eq (valid : set.Valid) (room : id < set.capacity) :
    ∃ after, set.insert id = .ok (after, decide (id ∉ set.toList)) ∧ after.Valid ∧
      after.capacity = set.capacity ∧
      after.toList = if id ∈ set.toList then set.toList else set.toList ++ [id] := by
  by_cases member : id ∈ set.toList
  · refine ⟨set, ?_, valid, rfl, by rw [if_pos member]⟩
    simp [SparseSet.insert, valid.contains_eq room, member, bind, Except.bind, pure, Except.pure]
  · have space := valid.size_lt_capacity room member
    refine ⟨set.appended id, ?_, valid.appended room member, by simp [capacity, SparseSet.appended], ?_⟩
    · have fits : ¬ set.dense.size ≤ set.size := Nat.not_le.mpr space
      simp [SparseSet.insert, valid.contains_eq room, member, bind, Except.bind, pure, Except.pure, fits,
        SparseSet.appended]
    · rw [if_neg member, toList_appended valid space]

/-- A state beyond the capacity cannot be inserted. -/
theorem exists_fault_insert (valid : set.Valid) (outside : set.capacity ≤ id) :
    ∃ fault, set.insert id = .error fault := by
  have absent : set.sparse[id]? = none :=
    Array.getElem?_eq_none_iff.mpr (le_of_eq_of_le valid.even outside)
  exact ⟨.outsideCapacity id, by simp only [SparseSet.insert, contains, absent, bind, Except.bind]⟩

theorem clear (valid : set.Valid) : set.clear.Valid where
  fits := Nat.zero_le _
  even := valid.even
  placed := fun _ _ below => absurd below (Nat.not_lt_zero _)

theorem ensureCapacity (valid : set.Valid) (wanted : Nat) :
    (set.ensureCapacity wanted).Valid ∧ wanted ≤ (set.ensureCapacity wanted).capacity := by
  by_cases grows : set.capacity < wanted
  · have even := valid.even
    simp only [SparseSet.ensureCapacity, if_pos grows]
    refine ⟨⟨Nat.zero_le _, ?_, fun _ _ below => absurd below (Nat.not_lt_zero _)⟩, ?_⟩
    · simp only [Array.size_append, Array.size_replicate, even]
    · simp only [capacity, Array.size_append, Array.size_replicate]
      omega
  · rw [SparseSet.ensureCapacity_of_le (Nat.not_lt.mp grows)]
    exact ⟨valid, Nat.not_lt.mp grows⟩

end Valid

theorem capacity_ensureCapacity_of_lt {wanted : Nat} (grows : set.capacity < wanted) :
    (set.ensureCapacity wanted).capacity = wanted := by
  rw [ensureCapacity, if_pos grows]
  change (set.dense ++ Array.replicate (wanted - set.dense.size) 0).size = wanted
  rw [Array.size_append, Array.size_replicate]
  exact Nat.add_sub_cancel' grows.le

/-- A set that grows loses its members. -/
theorem toList_ensureCapacity_of_lt {wanted : Nat} (grows : set.capacity < wanted) :
    (set.ensureCapacity wanted).toList = [] := by
  rw [ensureCapacity, if_pos grows]
  simp [toList]

theorem valid_ofCapacity (capacity : Nat) : (ofCapacity capacity).Valid where
  fits := Nat.zero_le _
  even := by simp [ofCapacity]
  placed := fun _ _ below => absurd below (Nat.not_lt_zero _)

theorem valid_empty : ({} : SparseSet).Valid where
  fits := Nat.le_refl _
  even := rfl
  placed := fun _ _ below => absurd below (Nat.not_lt_zero _)

end SparseSet

/-- Both sets of a pair of frontiers are valid. -/
structure Frontiers.Valid (frontiers : Frontiers) : Prop where
  current : frontiers.current.Valid
  next : frontiers.next.Valid

theorem Frontiers.valid_empty : ({} : Frontiers).Valid :=
  ⟨SparseSet.valid_empty, SparseSet.valid_empty⟩

end ByteAutomata
