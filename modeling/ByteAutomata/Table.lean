import ByteAutomata.Fault

/-!
Transition tables.

A table cuts the bytes below `byteCeiling` into ranges. Each range has an exclusive upper bound, its
ceiling, and one step. Beside its byte steps a table lists the epsilon edges of a state and its
spinout: one more destination on every byte except the terminator.

`unpack` writes a table out as one target per byte, and `withCells` packs such a list again with as
few ranges as it needs. A table in which ceilings ascend up to `byteCeiling`, with one step each, is
`WellFormed`; on every other table `step` and `unpack` can fault.
-/

namespace ByteAutomata

structure Table where
  ceilings : List UInt8
  steps : List Target
  epsilons : List Target := []
  spinout : Target := none
  deriving DecidableEq, Repr

namespace Table

def always (target : Target) : Table where
  ceilings := [byteCeiling]
  steps := [target]

def empty : Table := always none

instance : Inhabited Table := ⟨empty⟩

/-- Ceilings ascend up to `byteCeiling` and have one step each. -/
def isWellFormed (table : Table) : Bool :=
  !table.ceilings.isEmpty
    && table.ceilings.length == table.steps.length
    && (table.ceilings.zip table.ceilings.tail).all (fun pair => pair.1 < pair.2)
    && table.ceilings.getLast? == some byteCeiling

abbrev WellFormed (table : Table) : Prop := table.isWellFormed = true

/-! ## Looking up one byte -/

def firstAbove (byte : UInt8) : List UInt8 → List Target → Checked (Option Target)
  | [], _ => .ok none
  | ceiling :: ceilings, steps =>
    if byte < ceiling then
      match steps with
      | [] => .error .missingStep
      | target :: _ => .ok (some target)
    else firstAbove byte ceilings steps.tail

/-- Where `byte` leads. A byte at or above the ceiling leads nowhere. -/
def step (table : Table) (byte : UInt8) : Checked Target := do
  match ← firstAbove byte table.ceilings table.steps with
  | some target => return target
  | none =>
    if byte < byteCeiling then throw (.lostFinalCeiling table.ceilings) else return none

/-- `step`, with a byte that cannot be looked up read as one that leads nowhere. -/
def lookup (table : Table) (byte : UInt8) : Target :=
  match table.step byte with
  | .ok target => target
  | .error _ => none

@[simp] theorem wellFormed_always (target : Target) : (always target).WellFormed := by
  rfl

theorem step_always (target : Target) (byte : UInt8) :
    (always target).step byte = .ok (if byte < byteCeiling then target else none) := by
  by_cases h : byte < byteCeiling <;> simp [step, always, firstAbove, h] <;> rfl

theorem lookup_of_step {table : Table} {byte : UInt8} {target : Target}
    (h : table.step byte = .ok target) : table.lookup byte = target := by
  simp [lookup, h]

def hasNoByteSteps (table : Table) : Bool :=
  table.steps.all (·.isNone)

/-- The ranges with their lower bounds: floor, ceiling and step of each. -/
def ranges (table : Table) : List (UInt8 × UInt8 × Target) :=
  (0 :: table.ceilings).zip (table.ceilings.zip table.steps)

/-! ## One target per byte -/

def cellsFrom (floor : Nat) : List UInt8 → List Target → Checked (List Target)
  | [], _ => .ok (List.replicate (tableWidth - floor) none)
  | ceiling :: ceilings, steps =>
    let top := min ceiling.toNat tableWidth
    if floor < top then
      match steps with
      | [] => .error .missingStep
      | target :: steps => (List.replicate (top - floor) target ++ ·) <$> cellsFrom top ceilings steps
    else cellsFrom floor ceilings steps.tail

def unpack (table : Table) : Checked (List Target) :=
  cellsFrom 0 table.ceilings table.steps

/-- `unpack`, with a table that cannot be unpacked read as one that leads nowhere. -/
def cells (table : Table) : List Target :=
  match table.unpack with
  | .ok cells => cells
  | .error _ => List.replicate tableWidth none

/-- Ceiling and step of each run of equal targets, where `last` is the target of the byte before
`floor`. -/
def runsFrom (floor : Nat) (last : Target) : List Target → List (UInt8 × Target)
  | [] => [(byteCeiling, last)]
  | target :: rest =>
    if target = last then runsFrom (floor + 1) last rest
    else (UInt8.ofNat floor, last) :: runsFrom (floor + 1) target rest

def withRuns (table : Table) (runs : List (UInt8 × Target)) : Table :=
  { table with ceilings := runs.map (·.1), steps := runs.map (·.2) }

def withCells (table : Table) (cells : List Target) : Table :=
  table.withRuns (runsFrom 0 (cells.headD none) cells)

def ofCells (cells : List Target) : Table :=
  empty.withCells cells

/-- Sets every cell from `lo` to `hi`, both included. -/
def fillCells (cells : List Target) (lo hi : Nat) (target : Target) : List Target :=
  cells.take lo ++ List.replicate (hi + 1 - lo) target ++ cells.drop (hi + 1)

/-! ## Growing a table range by range -/

def runs (table : Table) : List (UInt8 × Target) :=
  table.ceilings.zip table.steps

/-- Adds a range above those listed, of which the topmost stands first. A range with the target of
the one below extends that one. -/
def extendRuns (ceiling : UInt8) (target : Target) :
    List (UInt8 × Target) → List (UInt8 × Target)
  | [] => [(ceiling, target)]
  | (below, last) :: rest =>
    if last = target then (ceiling, target) :: rest else (ceiling, target) :: (below, last) :: rest

/-! ## Changing byte steps -/

def override (table : Table) (byte : UInt8) (target : Target) : Table :=
  table.withCells (table.cells.set byte.toNat target)

/-- Leads the bytes from `lo` to `hi`, both included, elsewhere. -/
def overrideRange (table : Table) (lo hi : UInt8) (target : Target) : Table :=
  table.withCells (fillCells table.cells lo.toNat hi.toNat target)

def mapping (fallback : Target) (entries : List (UInt8 × Target)) : Table :=
  ofCells (entries.foldl (fun cells entry => cells.set entry.1.toNat entry.2)
    (List.replicate tableWidth fallback))

def single (byte : UInt8) (target : Target) : Table :=
  mapping none [(byte, target)]

/-- Leads all bytes to one target; epsilons and spinout stay. -/
def setDefault (table : Table) (target : Target) : Table :=
  { table with ceilings := [byteCeiling], steps := [target] }

/-- `override` for a byte below the ceiling of a table that can be unpacked. -/
def setStep (table : Table) (byte : UInt8) (target : Target) : Checked Table := do
  if byteCeiling ≤ byte then throw (.byteAtCeiling byte)
  return table.withCells ((← table.unpack).set byte.toNat target)

/-- `overrideRange` for a range of the table; `hi + 1 = lo` is the empty range. -/
def setRange (table : Table) (lo hi : Nat) (target : Target) : Checked Table := do
  let cells ← table.unpack
  if hi + 1 < lo ∨ tableWidth ≤ hi then throw (.rangeOutsideTable lo hi)
  return table.withCells (fillCells cells lo hi target)

/-- `mapping` for ascending bytes below the ceiling, with one target each. -/
def withMappings (fallback : Target) (bytes : List UInt8) (targets : List Target) :
    Checked Table := do
  if bytes.length ≠ targets.length then
    throw (.unevenMapping bytes.length targets.length)
  if (bytes.zip bytes.tail).any (fun pair => pair.2 ≤ pair.1) then throw .unorderedMapping
  if let some byte := bytes.find? (byteCeiling ≤ ·) then throw (.byteOutsideTable byte)
  return mapping fallback (bytes.zip targets)

/-! ## Renaming states -/

/-- Passes every target through `name`. Ranges are packed again only where two neighbours have
come to lead to the same target. -/
def rename (table : Table) (name : Target → Target) : Checked Table := do
  let renamed : Table :=
    { ceilings := table.ceilings
      steps := table.steps.map name
      epsilons := table.epsilons.map name
      spinout := name table.spinout }
  if (renamed.steps.zip renamed.steps.tail).any (fun pair => pair.1 = pair.2) then
    return renamed.withCells (← renamed.unpack)
  else
    return renamed

end Table

end ByteAutomata
