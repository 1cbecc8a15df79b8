import ByteAutomata.Fault

/-!
Sets of states in insertion order.

A sparse set keeps its members in the first `size` places of `dense`, in the order they came, and for
each state its place in `sparse`. Membership trusts a place only if it lies below `size` and `dense`
agrees, so clearing a set resets `size` and leaves both arrays as they are.
-/

namespace ByteAutomata

structure SparseSet where
  size : Nat := 0
  dense : Array StateId := #[]
  sparse : Array Nat := #[]
  deriving DecidableEq, Repr

namespace SparseSet

def ofCapacity (capacity : Nat) : SparseSet where
  dense := Array.replicate capacity 0
  sparse := Array.replicate capacity 0

def capacity (set : SparseSet) : Nat := set.dense.size

def isEmpty (set : SparseSet) : Bool := set.size == 0

/-- The members in the order they came. -/
def toList (set : SparseSet) : List StateId := (set.dense.take set.size).toList

def clear (set : SparseSet) : SparseSet := { set with size := 0 }

/-- Makes room for the states below `capacity`. A set that has to grow is cleared. -/
def ensureCapacity (set : SparseSet) (capacity : Nat) : SparseSet :=
  if set.capacity < capacity then
    { size := 0
      dense := set.dense ++ Array.replicate (capacity - set.dense.size) 0
      sparse := set.sparse ++ Array.replicate (capacity - set.sparse.size) 0 }
  else set

def contains (set : SparseSet) (id : StateId) : Checked Bool :=
  match set.sparse[id]? with
  | none => .error (.outsideCapacity id)
  | some place => .ok (place < set.size && set.dense[place]? == some id)

/-- Adds a state at the end unless it is a member; tells whether it was added. -/
def insert (set : SparseSet) (id : StateId) : Checked (SparseSet × Bool) := do
  if ← set.contains id then return (set, false)
  if set.dense.size ≤ set.size then throw (.outsideCapacity id)
  let { size, dense, sparse } := set
  return ({ size := size + 1
            dense := dense.setIfInBounds size id
            sparse := sparse.setIfInBounds id size }, true)

@[simp] theorem toList_clear (set : SparseSet) : set.clear.toList = [] := by
  simp [toList, clear]

@[simp] theorem toList_ofCapacity (capacity : Nat) : (ofCapacity capacity).toList = [] := by
  simp [toList, ofCapacity]

theorem ensureCapacity_of_le {set : SparseSet} {capacity : Nat} (h : capacity ≤ set.capacity) :
    set.ensureCapacity capacity = set := by
  simp [ensureCapacity, Nat.not_lt.mpr h]

end SparseSet

/-- The states active now and those active after the next byte. -/
structure Frontiers where
  current : SparseSet := {}
  next : SparseSet := {}
  deriving DecidableEq, Repr

namespace Frontiers

def ofCapacity (capacity : Nat) : Frontiers :=
  ⟨.ofCapacity capacity, .ofCapacity capacity⟩

def ensureCapacity (frontiers : Frontiers) (capacity : Nat) : Frontiers :=
  ⟨frontiers.current.ensureCapacity capacity, frontiers.next.ensureCapacity capacity⟩

def clear (frontiers : Frontiers) : Frontiers :=
  ⟨frontiers.current.clear, frontiers.next.clear⟩

def advance (frontiers : Frontiers) : Frontiers :=
  ⟨frontiers.next, frontiers.current.clear⟩

end Frontiers

end ByteAutomata
