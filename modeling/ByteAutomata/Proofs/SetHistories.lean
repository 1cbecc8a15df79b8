import ByteAutomata.Proofs.SparseSets

/-!
Histories of sparse sets.

Calls to a pair of frontiers go to one of its sets, or clear, grow or exchange both. However often this has happened
before, each set answers as a list without repetitions would, for the places that stay behind in its arrays are never
trusted.
-/

namespace ByteAutomata

/-- A call that can change a set. -/
inductive SetCall where
  | insert (id : StateId)
  | clear
  | ensureCapacity (capacity : Nat)
  deriving DecidableEq, Repr

/-- A call that can change a pair of frontiers. -/
inductive FrontierCall where
  | current (call : SetCall)
  | next (call : SetCall)
  | clear
  | ensureCapacity (capacity : Nat)
  | advance
  deriving DecidableEq, Repr

/-- What the call leaves, and what an insertion answers. -/
def SparseSet.call (set : SparseSet) : SetCall → Checked (SparseSet × Option Bool)
  | .insert id => do
    let (after, added) ← set.insert id
    return (after, some added)
  | .clear => .ok (set.clear, none)
  | .ensureCapacity capacity => .ok (set.ensureCapacity capacity, none)

namespace Frontiers

def call (frontiers : Frontiers) : FrontierCall → Checked (Frontiers × Option Bool)
  | .current call => do
    let (current, answer) ← frontiers.current.call call
    return ({ frontiers with current }, answer)
  | .next call => do
    let (next, answer) ← frontiers.next.call call
    return ({ frontiers with next }, answer)
  | .clear => .ok (frontiers.clear, none)
  | .ensureCapacity capacity => .ok (frontiers.ensureCapacity capacity, none)
  | .advance => .ok (frontiers.advance, none)

/-- Calls one after the other: what they leave, and the answer to each. -/
def callAll (frontiers : Frontiers) : List FrontierCall → Checked (Frontiers × List (Option Bool))
  | [] => .ok (frontiers, [])
  | first :: rest => do
    let (middle, answer) ← frontiers.call first
    let (after, answers) ← middle.callAll rest
    return (after, answer :: answers)

end Frontiers

/-! ## Lists without repetitions -/

/-- The members in the order in which they came, and the bound below which states have room. -/
structure OrderedSet where
  capacity : Nat
  members : List StateId := []

namespace OrderedSet

/-- A state that is no member yet is added at the end. A set that grows loses its members, and one that need not grow
keeps them. -/
def call (set : OrderedSet) : SetCall → OrderedSet × Option Bool
  | .insert id =>
    if id ∈ set.members then (set, some false) else ({ set with members := set.members ++ [id] }, some true)
  | .clear => ({ set with members := [] }, none)
  | .ensureCapacity capacity => if set.capacity < capacity then ({ capacity }, none) else (set, none)

/-- A state that is inserted lies below the capacity. -/
def Admits (set : OrderedSet) : SetCall → Prop
  | .insert id => id < set.capacity
  | .clear => True
  | .ensureCapacity _ => True

instance (set : OrderedSet) : DecidablePred set.Admits
  | .insert id => inferInstanceAs (Decidable (id < set.capacity))
  | .clear => .isTrue trivial
  | .ensureCapacity _ => .isTrue trivial

end OrderedSet

structure OrderedSets where
  current : OrderedSet
  next : OrderedSet

namespace OrderedSets

def ofCapacity (capacity : Nat) : OrderedSets := ⟨{ capacity }, { capacity }⟩

def call (sets : OrderedSets) : FrontierCall → OrderedSets × Option Bool
  | .current call => ({ sets with current := (sets.current.call call).1 }, (sets.current.call call).2)
  | .next call => ({ sets with next := (sets.next.call call).1 }, (sets.next.call call).2)
  | .clear => (⟨{ sets.current with members := [] }, { sets.next with members := [] }⟩, none)
  | .ensureCapacity capacity =>
    (⟨(sets.current.call (.ensureCapacity capacity)).1, (sets.next.call (.ensureCapacity capacity)).1⟩, none)
  | .advance => (⟨sets.next, { sets.current with members := [] }⟩, none)

def callAll (sets : OrderedSets) : List FrontierCall → OrderedSets × List (Option Bool)
  | [] => (sets, [])
  | first :: rest =>
    (((sets.call first).1.callAll rest).1, (sets.call first).2 :: ((sets.call first).1.callAll rest).2)

def Admits (sets : OrderedSets) : FrontierCall → Prop
  | .current call => sets.current.Admits call
  | .next call => sets.next.Admits call
  | .clear => True
  | .ensureCapacity _ => True
  | .advance => True

/-- Each state that is inserted lies below the capacity that its set has at that time. -/
def AdmitsAll (sets : OrderedSets) : List FrontierCall → Prop
  | [] => True
  | first :: rest => sets.Admits first ∧ (sets.call first).1.AdmitsAll rest

instance (sets : OrderedSets) : DecidablePred sets.Admits
  | .current call => inferInstanceAs (Decidable (sets.current.Admits call))
  | .next call => inferInstanceAs (Decidable (sets.next.Admits call))
  | .clear => .isTrue trivial
  | .ensureCapacity _ => .isTrue trivial
  | .advance => .isTrue trivial

instance decidableAdmitsAll (sets : OrderedSets) : (calls : List FrontierCall) → Decidable (sets.AdmitsAll calls)
  | [] => .isTrue trivial
  | first :: rest =>
    have := decidableAdmitsAll (sets.call first).1 rest
    inferInstanceAs (Decidable (sets.Admits first ∧ (sets.call first).1.AdmitsAll rest))

end OrderedSets

/-! ## One call -/

/-- A valid set with the capacity and the members of the list. -/
structure SparseSet.Follows (set : SparseSet) (ordered : OrderedSet) : Prop where
  valid : set.Valid
  capacity : set.capacity = ordered.capacity
  members : set.toList = ordered.members

namespace SparseSet.Follows

variable {set : SparseSet} {ordered : OrderedSet}

theorem ofCapacity (capacity : Nat) : (SparseSet.ofCapacity capacity).Follows { capacity } where
  valid := valid_ofCapacity capacity
  capacity := by simp [SparseSet.ofCapacity, SparseSet.capacity]
  members := toList_ofCapacity capacity

theorem clear (follows : set.Follows ordered) : set.clear.Follows { ordered with members := [] } where
  valid := follows.valid.clear
  capacity := follows.capacity
  members := toList_clear set

theorem ensureCapacity (follows : set.Follows ordered) (capacity : Nat) :
    (set.ensureCapacity capacity).Follows (ordered.call (.ensureCapacity capacity)).1 := by
  by_cases grows : ordered.capacity < capacity
  · have wider : set.capacity < capacity := follows.capacity ▸ grows
    rw [OrderedSet.call, if_pos grows]
    exact ⟨(follows.valid.ensureCapacity capacity).1, capacity_ensureCapacity_of_lt wider,
      toList_ensureCapacity_of_lt wider⟩
  · rw [SparseSet.ensureCapacity_of_le (follows.capacity ▸ Nat.not_lt.mp grows), OrderedSet.call, if_neg grows]
    exact follows

theorem insert (follows : set.Follows ordered) {id : StateId} (room : id < ordered.capacity) :
    ∃ after, set.insert id = .ok (after, decide (id ∉ ordered.members)) ∧
      after.Follows (ordered.call (.insert id)).1 := by
  obtain ⟨after, inserted, valid, capacity, members⟩ := follows.valid.insert_eq (follows.capacity ▸ room)
  rw [follows.members] at inserted members
  refine ⟨after, inserted, valid, ?_, ?_⟩
  · rw [capacity, follows.capacity, OrderedSet.call]
    split <;> rfl
  · rw [members, OrderedSet.call]
    split <;> rfl

theorem call (follows : set.Follows ordered) {call : SetCall} (admits : ordered.Admits call) :
    ∃ after, set.call call = .ok (after, (ordered.call call).2) ∧ after.Follows (ordered.call call).1 := by
  cases call with
  | insert id =>
    obtain ⟨after, inserted, further⟩ := follows.insert admits
    refine ⟨after, ?_, further⟩
    simp only [SparseSet.call, inserted, bind, Except.bind, pure, Except.pure, OrderedSet.call]
    split <;> simp [*]
  | clear => exact ⟨_, rfl, follows.clear⟩
  | ensureCapacity capacity =>
    refine ⟨_, ?_, follows.ensureCapacity capacity⟩
    simp only [SparseSet.call, OrderedSet.call]
    split <;> rfl

end SparseSet.Follows

/-- Both sets of a pair follow their lists. -/
structure Frontiers.Follows (frontiers : Frontiers) (sets : OrderedSets) : Prop where
  current : frontiers.current.Follows sets.current
  next : frontiers.next.Follows sets.next

namespace Frontiers.Follows

variable {frontiers : Frontiers} {sets : OrderedSets}

theorem call (follows : frontiers.Follows sets) {call : FrontierCall} (admits : sets.Admits call) :
    ∃ after, frontiers.call call = .ok (after, (sets.call call).2) ∧ after.Follows (sets.call call).1 := by
  cases call with
  | current call =>
    obtain ⟨current, called, further⟩ := follows.current.call admits
    refine ⟨{ frontiers with current }, ?_, further, follows.next⟩
    simp only [Frontiers.call, called]
    rfl
  | next call =>
    obtain ⟨next, called, further⟩ := follows.next.call admits
    refine ⟨{ frontiers with next }, ?_, follows.current, further⟩
    simp only [Frontiers.call, called]
    rfl
  | clear => exact ⟨_, rfl, follows.current.clear, follows.next.clear⟩
  | ensureCapacity capacity =>
    exact ⟨_, rfl, follows.current.ensureCapacity capacity, follows.next.ensureCapacity capacity⟩
  | advance => exact ⟨_, rfl, follows.next, follows.current.clear⟩

/-- By induction on the calls, each of which leaves sets that follow their lists again. -/
theorem callAll (follows : frontiers.Follows sets) {calls : List FrontierCall} (admits : sets.AdmitsAll calls) :
    ∃ after, frontiers.callAll calls = .ok (after, (sets.callAll calls).2) ∧
      after.Follows (sets.callAll calls).1 := by
  induction calls generalizing frontiers sets with
  | nil => exact ⟨frontiers, rfl, follows⟩
  | cons first rest ih =>
    obtain ⟨middle, called, further⟩ := follows.call admits.1
    obtain ⟨after, calledAll, last⟩ := ih further admits.2
    refine ⟨after, ?_, last⟩
    simp only [Frontiers.callAll, called, bind, Except.bind, calledAll]
    rfl

end Frontiers.Follows

/-- What can be seen of the set is what the list holds, which has no repetitions. -/
structure SparseSet.Shows (set : SparseSet) (ordered : OrderedSet) : Prop where
  members : set.toList = ordered.members
  distinct : ordered.members.Nodup
  size : set.size = ordered.members.length
  isEmpty : set.isEmpty = ordered.members.isEmpty
  capacity : set.capacity = ordered.capacity
  contains : ∀ id < ordered.capacity, set.contains id = .ok (decide (id ∈ ordered.members))

theorem SparseSet.Follows.shows {set : SparseSet} {ordered : OrderedSet} (follows : set.Follows ordered) :
    set.Shows ordered where
  members := follows.members
  distinct := follows.members ▸ follows.valid.nodup
  size := by rw [← follows.members, length_toList follows.valid]
  isEmpty := by
    rw [Bool.eq_iff_iff, isEmpty_iff follows.valid, follows.members, List.isEmpty_iff]
  capacity := follows.capacity
  contains := by
    intro id room
    rw [follows.valid.contains_eq (follows.capacity ▸ room), follows.members]

namespace Frontiers

/-- Whatever calls are made to a pair of new sets, or to one of them alone: as long as each state that is inserted lies
below the capacity that its set has by then, none of the calls faults, each insertion answers whether the state was new,
and both sets show the lists that the calls leave. -/
theorem callAll_shows (capacity : Nat) {calls : List FrontierCall}
    (admitted : (OrderedSets.ofCapacity capacity).AdmitsAll calls) :
    ∃ after,
      (ofCapacity capacity).callAll calls = .ok (after, ((OrderedSets.ofCapacity capacity).callAll calls).2) ∧
      after.current.Shows ((OrderedSets.ofCapacity capacity).callAll calls).1.current ∧
      after.next.Shows ((OrderedSets.ofCapacity capacity).callAll calls).1.next := by
  have new : (ofCapacity capacity).Follows (.ofCapacity capacity) := ⟨.ofCapacity capacity, .ofCapacity capacity⟩
  obtain ⟨after, called, follows⟩ := new.callAll admitted
  exact ⟨after, called, follows.current.shows, follows.next.shows⟩

/-- The second set is filled before the first one grows and both are exchanged. -/
def exchanged : List FrontierCall :=
  [.next (.insert 2), .next (.insert 0), .next (.insert 2), .current (.insert 1), .current (.ensureCapacity 5),
    .advance, .current (.insert 0), .next (.insert 4), .ensureCapacity 2, .advance, .current .clear,
    .current (.insert 1), .current (.insert 4)]

theorem callAll_shows_exchanged :
    (OrderedSets.ofCapacity 3).AdmitsAll exchanged ∧
      ∃ after, (ofCapacity 3).callAll exchanged = .ok (after, [some true, some true, some false, some true, none, none,
        some false, some true, none, none, none, some true, some true]) ∧
        after.current.Shows ⟨5, [1, 4]⟩ ∧ after.next.Shows ⟨3, []⟩ := by
  have admitted : (OrderedSets.ofCapacity 3).AdmitsAll exchanged := by decide
  exact ⟨admitted, callAll_shows 3 admitted⟩

end Frontiers

end ByteAutomata
