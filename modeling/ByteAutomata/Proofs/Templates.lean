import ByteAutomata.Proofs.Extraction
import ByteAutomata.Proofs.Fragments
import ByteAutomata.Proofs.Relocation
import ByteAutomata.Template

/-!
Templates read what the captured fragment reads.

A fragment is captured up to an exit that only forwards. Where the exit forwards to a state of another
arena, the fragment reads its words in front of that state, and a graft is a renamed copy of just this.
-/

namespace ByteAutomata

/-- Two renamings one after the other. -/
theorem State.Copies.trans {name further : Target → Target} {state copy last : State}
    (first : state.Copies name copy) (second : copy.Copies further last)
    (nowhere : further none = none) : state.Copies (fun target => further (name target)) last where
  continuations := second.continuations.trans first.continuations
  table := second.table
  epsilons := by rw [second.epsilons, first.epsilons, List.map_map]; rfl
  spinout := by rw [second.spinout, first.spinout]
  steps := by
    intro id listed
    obtain ⟨target, member, named⟩ := List.mem_map.mp (second.steps id listed)
    cases target with
    | none =>
      rw [nowhere] at named
      cases named
    | some between =>
      obtain ⟨original, there, same⟩ := List.mem_map.mp (first.steps between member)
      exact List.mem_map.mpr ⟨original, there, by rw [same, named]⟩
  lookup := fun byte => by rw [second.lookup, first.lookup]

/-- Raising all targets is renaming them. -/
theorem State.renamesTo_raise (below : Nat) (state : State) :
    state.RenamesTo (below + ·) (state.raise below) where
  continuations := rfl
  lookup := fun byte => Table.lookup_raise state.table byte
  spinout := rfl
  epsilons := rfl

namespace Arena

/-- Adds states with these tables. -/
def pushTables (arena : Arena) (tables : List Table) : Arena :=
  tables.foldl (fun arena table => (arena.pushTable table).1) arena

variable {arena : Arena} {tables : List Table} {id : StateId}

theorem states_pushTables (arena : Arena) (tables : List Table) :
    (arena.pushTables tables).states = arena.states ++ (tables.map fun table => ({ table } : State)).toArray := by
  induction tables generalizing arena with
  | nil => simp [pushTables]
  | cons table rest ih =>
    have behind := ih (arena.pushTable table).1
    simp only [pushTables, List.foldl_cons] at behind ⊢
    rw [behind]
    simp [pushTable, push]

theorem size_pushTables (arena : Arena) (tables : List Table) :
    (arena.pushTables tables).size = arena.size + tables.length := by
  simp [size, states_pushTables]

theorem get?_pushTables_of_lt (tables : List Table) (inside : id < arena.size) :
    (arena.pushTables tables).get? id = arena.get? id := by
  rw [get?, states_pushTables]
  exact Array.getElem?_append_left inside

theorem get?_pushTables (arena : Arena) (tables : List Table) (place : Nat) :
    (arena.pushTables tables).get? (arena.size + place) =
      tables[place]?.map fun table => { table } := by
  rw [get?, states_pushTables, size, Array.getElem?_append_right (Nat.le_add_right _ _)]
  simp

/-! ## Capturing -/

/-- The states that are reached from an entry without passing through an exit. -/
inductive Enclosed (arena : Arena) (entry exit : StateId) : StateId → Prop
  | entry : entry ≠ exit → Enclosed arena entry exit entry
  | target {id next : StateId} {state : State} :
      Enclosed arena entry exit id → arena.get? id = some state → some next ∈ state.targets → next ≠ exit →
        Enclosed arena entry exit next

theorem enclosed_of_reached {entry exit : StateId} (apart : entry ≠ exit)
    (reached : Relation.ReflTransGen (arena.Leads (some exit)) entry id) : arena.Enclosed entry exit id := by
  induction reached with
  | refl => exact .entry apart
  | tail _ leads ih =>
    obtain ⟨state, stored, target, other⟩ := leads
    exact .target ih stored target fun same => other (congrArg some same)

/-- The list holds the states from an entry up to an exit. -/
structure Captured (arena : Arena) (entry exit : StateId) (found : Discovery) (ids : List StateId) :
    Prop where
  lists : found.Lists ids
  inside : ∀ id ∈ ids, id < arena.size
  reached : entry ∈ ids ∨ entry = exit
  apart : exit ∉ ids
  enclosed : ∀ id ∈ ids, arena.Enclosed entry exit id
  closed : ∀ id ∈ ids, ∀ state, arena.get? id = some state → ∀ next, some next ∈ state.targets →
    next ∈ ids ∨ next = exit

theorem captured_eq {entry : StateId} (formed : arena.WellFormed) (inside : entry < arena.size)
    (exit : StateId) :
    ∃ found ids, (if some entry = some exit then pure {}
        else do arena.explore (← requireState (some entry)) (some exit) : Checked Discovery) = .ok found ∧
      arena.Captured entry exit found ids := by
  by_cases same : some entry = some exit
  · rw [if_pos same]
    exact ⟨{}, [], rfl, ⟨rfl, .empty 0⟩, by simp, Or.inr (Option.some.inj same), by simp, by simp, by simp⟩
  · rw [if_neg same]
    obtain ⟨found, ids, ran, lists, explored⟩ := explore_eq formed inside (some exit)
    refine ⟨found, ids, ran, lists, explored.inside, Or.inl (List.mem_of_getElem? explored.first), ?_,
      fun id listed => enclosed_of_reached (fun here => same (congrArg some here)) ((explored.mem_iff id).mp listed),
      ?_⟩
    · intro listed
      rcases Relation.ReflTransGen.cases_tail ((explored.mem_iff exit).mp listed) with here | ⟨_, _, leads⟩
      · exact same (congrArg some here.symm)
      · obtain ⟨_, _, _, other⟩ := leads
        exact other rfl
    · intro id listed state stored next target
      by_cases last : next = exit
      · exact Or.inr last
      · have leads : arena.Leads (some exit) id next :=
          ⟨state, stored, target, fun same => last (Option.some.inj same)⟩
        exact Or.inl ((explored.mem_iff next).mpr (((explored.mem_iff id).mp listed).tail leads))

namespace Captured

variable {entry exit : StateId} {found : Discovery} {ids : List StateId}

/-- What is captured is what the entry and the exit enclose. -/
theorem mem_iff (captured : arena.Captured entry exit found ids) : id ∈ ids ↔ arena.Enclosed entry exit id := by
  refine ⟨captured.enclosed id, fun enclosed => ?_⟩
  induction enclosed with
  | entry apart => exact captured.reached.resolve_right apart
  | target _ stored target other ih =>
    exact (captured.closed _ ih _ stored _ target).resolve_right other

theorem localName_exit (captured : arena.Captured entry exit found ids) :
    Template.localName found (some exit) (some exit) = some ids.length := by
  rw [← captured.lists.order, Array.length_toList, Template.localName, if_pos rfl]

theorem localName_eq (captured : arena.Captured entry exit found ids) {place : Nat}
    (listed : ids[place]? = some id) :
    Template.localName found (some exit) (some id) = some place := by
  have other : ¬ some id = some exit := fun same =>
    captured.apart (Option.some.inj same ▸ List.mem_of_getElem? listed)
  rw [Template.localName, if_neg other]
  exact (captured.lists.place_iff place).mpr listed

/-- Every target of a captured state has a name, which is the exit's or that of a captured state. -/
theorem exists_localName (captured : arena.Captured entry exit found ids)
    (known : id ∈ ids ∨ id = exit) :
    ∃ place < ids.length + 1, Template.localName found (some exit) (some id) = some place := by
  rcases known with listed | rfl
  · obtain ⟨place, there⟩ := List.mem_iff_getElem?.mp listed
    exact ⟨place, Nat.lt_succ_of_lt (List.getElem?_eq_some_iff.mp there).1, captured.localName_eq there⟩
  · exact ⟨_, Nat.lt_succ_self _, captured.localName_exit⟩

end Captured

/-- The template holds copies of the states from an entry up to an exit. -/
structure CapturedBy (arena : Arena) (entry exit : StateId) (found : Discovery) (ids : List StateId)
    (template : Template) : Prop where
  captured : arena.Captured entry exit found ids
  entry_eq : template.entry = Template.localName found (some exit) (some entry)
  copies : List.Forall₂ (fun id table => ∃ state, arena.get? id = some state ∧
    state.Copies (Template.localName found (some exit)) { table }) ids template.tables

/-- Capturing never faults. -/
theorem capture_eq {entry : StateId} (formed : arena.WellFormed) (inside : entry < arena.size)
    (exit : StateId) (silent : ∀ id x, ¬ arena.Holds id x) :
    ∃ template found ids, Template.capture arena (some entry) (some exit) = .ok template ∧
      arena.CapturedBy entry exit found ids template := by
  obtain ⟨found, ids, ran, captured⟩ := captured_eq formed inside exit
  have each : ∀ id ∈ found.order.toList, ∃ table,
      (do (← arena.get id).table.rename (Template.localName found (some exit)) : Checked Table) =
        .ok table ∧
      ∃ state, arena.get? id = some state ∧
        state.Copies (Template.localName found (some exit)) { table } := by
    intro id listed
    rw [captured.lists.order] at listed
    obtain ⟨state, stored⟩ := exists_get? (captured.inside id listed)
    have blank : [] = state.continuations :=
      (List.eq_nil_iff_forall_not_mem.mpr fun x held => silent id x ⟨state, stored, held⟩).symm
    obtain ⟨table, renamed, copies⟩ := (formed.fits stored).copies
      (Template.localName found (some exit)) rfl [] blank
    refine ⟨table, ?_, state, stored, copies⟩
    simp only [get_of_get? stored, bind, Except.bind, renamed]
  obtain ⟨tables, computed, related⟩ := Checked.mapM_eq_ok _ each
  rw [captured.lists.order] at related
  refine ⟨⟨tables, _⟩, found, ids, ?_, captured, rfl, related⟩
  have split : Template.capture arena (some entry) (some exit) =
      (if some entry = some exit then pure {}
        else do arena.explore (← requireState (some entry)) (some exit) : Checked Discovery) >>= fun found => do
        let tables ← found.order.toList.mapM fun id => do
          (← arena.get id).table.rename (Template.localName found (some exit))
        return { tables, entry := Template.localName found (some exit) (some entry) } := by
    unfold Template.capture
    by_cases same : some entry = some exit
    · rw [if_pos same, if_pos same]
    · rw [if_neg same, if_neg same]
      rfl
  rw [split, ran]
  simp only [bind, Except.bind] at computed ⊢
  rw [computed]
  rfl

end Arena

namespace Template

open Arena

variable {arena : Arena} {template : Template} {base next place : Nat}

@[simp] theorem graftedName_none (template : Template) (base : Nat) (next : Target) :
    template.graftedName base next none = none := rfl

theorem graftedName_exit (template : Template) (base : Nat) (next : Target) :
    template.graftedName base next (some template.size) = next := by
  rw [graftedName, if_pos rfl]

theorem graftedName_of_lt (base : Nat) (next : Target) (inside : place < template.size) :
    template.graftedName base next (some place) = some (base + place) := by
  rw [graftedName, if_neg (Nat.ne_of_lt inside)]

/-- The template can be copied in front of any state. -/
def Grafts (template : Template) : Prop :=
  ∀ (arena : Arena) (next : StateId), arena.WellFormed → next < arena.size →
    ∃ built entry, template.graft arena (some next) = .ok (built, some entry) ∧
      Extends arena.size arena built ∧ entry < built.size

/-- A copy of the template reads these words in front of the state that its exit is bound to. -/
def Reads (template : Template) (words : Language UInt8) : Prop :=
  ∀ (arena : Arena) (next : StateId), arena.WellFormed → next < arena.size →
    ∃ built entry, template.graft arena (some next) = .ok (built, some entry) ∧
      Fragment arena built entry next words

theorem Reads.grafts {words : Language UInt8} (reads : template.Reads words) : template.Grafts := by
  intro arena next formed inside
  obtain ⟨built, entry, grafted, fragment⟩ := reads arena next formed inside
  exact ⟨built, entry, grafted, fragment.extends_, fragment.inside⟩

end Template

/-! ## Grafting -/

namespace Arena

/-- The name in the arena of a graft for a target of the captured part. -/
def boundName (template : Template) (found : Discovery) (exit base next : StateId) (target : Target) :
    Target :=
  template.graftedName base (some next) (Template.localName found (some exit) target)

namespace CapturedBy

variable {arena source : Arena} {entry exit next id : StateId} {found : Discovery} {ids : List StateId}
  {template : Template}

theorem size_eq (taken : source.CapturedBy entry exit found ids template) :
    template.size = ids.length :=
  taken.copies.length_eq.symm

theorem boundName_exit (taken : source.CapturedBy entry exit found ids template) (base next : StateId) :
    boundName template found exit base next (some exit) = some next := by
  rw [boundName, taken.captured.localName_exit, ← taken.size_eq, Template.graftedName_exit]

theorem boundName_eq (taken : source.CapturedBy entry exit found ids template) (base next : StateId)
    {place : Nat} (listed : ids[place]? = some id) :
    boundName template found exit base next (some id) = some (base + place) := by
  have short : place < template.size := taken.size_eq ▸ (List.getElem?_eq_some_iff.mp listed).1
  rw [boundName, taken.captured.localName_eq listed, Template.graftedName_of_lt base _ short]

theorem exists_boundName (taken : source.CapturedBy entry exit found ids template) {base : StateId}
    (inside : next < base) (known : id ∈ ids ∨ id = exit) :
    ∃ aim < base + ids.length, boundName template found exit base next (some id) = some aim := by
  rcases known with listed | rfl
  · obtain ⟨place, there⟩ := List.mem_iff_getElem?.mp listed
    have short := (List.getElem?_eq_some_iff.mp there).1
    exact ⟨_, Nat.add_lt_add_left short base, taken.boundName_eq base next there⟩
  · exact ⟨next, lt_of_lt_of_le inside (Nat.le_add_right _ _), taken.boundName_exit base next⟩

/-- The entry of a graft is a new state unless the captured part is empty. -/
theorem exists_entry (taken : source.CapturedBy entry exit found ids template) {base : StateId}
    (inside : next < base) : ∃ start < base + ids.length,
      boundName template found exit base next (some entry) = some start ∧
        (base ≤ start ∨ start = next ∧ entry = exit) := by
  obtain ⟨start, bound, named⟩ := taken.exists_boundName inside taken.captured.reached
  refine ⟨start, bound, named, ?_⟩
  rcases taken.captured.reached with listed | same
  · obtain ⟨place, there⟩ := List.mem_iff_getElem?.mp listed
    rw [taken.boundName_eq base next there, Option.some.injEq] at named
    exact Or.inl (named ▸ Nat.le_add_right _ _)
  · rw [same, taken.boundName_exit, Option.some.injEq] at named
    exact Or.inr ⟨named.symm, same⟩

/-- A captured state shares its name with no other target. -/
theorem eq_of_boundName_eq (taken : source.CapturedBy entry exit found ids template) {base : StateId}
    (inside : next < base) {other : StateId} (member : id ∈ ids) (known : other ∈ ids ∨ other = exit)
    (same : boundName template found exit base next (some other) =
      boundName template found exit base next (some id)) : other = id := by
  obtain ⟨place, there⟩ := List.mem_iff_getElem?.mp member
  rw [taken.boundName_eq base next there] at same
  rcases known with listed | rfl
  · obtain ⟨first, here⟩ := List.mem_iff_getElem?.mp listed
    rw [taken.boundName_eq base next here, Option.some.injEq] at same
    rw [Nat.add_left_cancel same, there, Option.some.injEq] at here
    exact here.symm
  · rw [taken.boundName_exit, Option.some.injEq] at same
    exact absurd same (Nat.ne_of_lt (lt_of_lt_of_le inside (Nat.le_add_right _ _)))

/-- Grafting never faults. It adds a copy of every captured state. -/
theorem graft_eq (taken : source.CapturedBy entry exit found ids template) (formed : source.WellFormed)
    (arena : Arena) (next : StateId) :
    ∃ tables, template.graft arena (some next) =
        .ok (arena.pushTables tables, boundName template found exit arena.size next (some entry)) ∧
      List.Forall₂ (fun id table => ∃ state, source.get? id = some state ∧
        state.Copies (boundName template found exit arena.size next) { table }) ids tables := by
  have each : ∀ table ∈ template.tables, ∃ grafted,
      table.rename (template.graftedName arena.size (some next)) = .ok grafted ∧
        State.Copies (template.graftedName arena.size (some next)) { table } { table := grafted } := by
    intro table listed
    obtain ⟨id, member, state, stored, copied⟩ := Checked.exists_item_of_mem taken.copies listed
    have fits : State.Fits (ids.length + 1) { table } :=
      copied.fits rfl (formed.fits stored) fun next target =>
        taken.captured.exists_localName (taken.captured.closed id member state stored next target)
    exact fits.copies _ rfl [] rfl
  obtain ⟨tables, computed, related⟩ := Checked.mapM_eq_ok _ each
  refine ⟨tables, ?_, Checked.related_trans ?_ taken.copies related⟩
  · rw [boundName, ← taken.entry_eq]
    simp only [Template.graft, computed, bind, Except.bind]
    rfl
  · rintro id table grafted ⟨state, stored, copied⟩ further
    exact ⟨state, stored, copied.trans further rfl⟩

end CapturedBy

/-- Tables that copy states become states that do so. -/
theorem get?_pushTables_of_copies (arena : Arena) {source : Arena} {ids : List StateId} {tables : List Table}
    {name : Target → Target} {id : StateId} {place : Nat}
    (copies : List.Forall₂ (fun id table => ∃ state, source.get? id = some state ∧
      state.Copies name { table }) ids tables) (listed : ids[place]? = some id) :
    ∃ state copy, source.get? id = some state ∧
      (arena.pushTables tables).get? (arena.size + place) = some copy ∧ state.Copies name copy := by
  obtain ⟨table, there, state, found, copied⟩ := Checked.getElem?_of_related copies listed
  refine ⟨state, { table }, found, ?_, copied⟩
  rw [get?_pushTables, there]
  rfl

/-- Tables that copy states whose targets all have names extend an arena. -/
theorem extends_pushTables {arena source : Arena} {ids : List StateId} {tables : List Table}
    {name : Target → Target} (formed : arena.WellFormed) (sourceFormed : source.WellFormed)
    (nowhere : name none = none)
    (named : ∀ id ∈ ids, ∀ state, source.get? id = some state → ∀ next, some next ∈ state.targets →
      ∃ aim < arena.size + ids.length, name (some next) = some aim)
    (copies : List.Forall₂ (fun id table => ∃ state, source.get? id = some state ∧
      state.Copies name { table }) ids tables) :
    Extends arena.size arena (arena.pushTables tables) := by
  have size : (arena.pushTables tables).size = arena.size + ids.length := by
    rw [size_pushTables, copies.length_eq]
  refine ⟨wellFormed_iff.mpr fun id state stored => ?_, size ▸ Nat.le_add_right _ _,
    fun id inside => get?_pushTables_of_lt tables inside, ?_⟩
  · rw [size]
    by_cases old : id < arena.size
    · rw [get?_pushTables_of_lt tables old] at stored
      exact (formed.fits stored).mono (Nat.le_add_right _ _)
    · obtain ⟨place, rfl⟩ := Nat.exists_eq_add_of_le (Nat.not_lt.mp old)
      have bound := lt_size_of_get? stored
      rw [size] at bound
      have short : place < ids.length := Nat.lt_of_add_lt_add_left bound
      have listed := List.getElem?_eq_getElem short
      obtain ⟨original, copy, there, found, copied⟩ := get?_pushTables_of_copies arena copies listed
      rw [stored, Option.some.injEq] at found
      subst copy
      exact copied.fits nowhere (sourceFormed.fits there) (named _ (List.getElem_mem short) original there)
  · rintro id x ⟨state, stored, held⟩
    by_cases old : id < arena.size
    · rw [get?_pushTables_of_lt tables old] at stored
      exact ⟨id, state, stored, held⟩
    · obtain ⟨place, rfl⟩ := Nat.exists_eq_add_of_le (Nat.not_lt.mp old)
      rw [get?_pushTables] at stored
      obtain ⟨table, _, rfl⟩ := Option.map_eq_some_iff.mp stored
      cases held

namespace CapturedBy

variable {source arena : Arena} {entry exit next : StateId} {found : Discovery} {ids : List StateId}
  {template : Template}

/-- Grafting adds a copy of every captured state to an arena, and the entry is the exit or new. -/
theorem graft_grows (taken : source.CapturedBy entry exit found ids template) (sourceFormed : source.WellFormed)
    (formed : arena.WellFormed) (inside : next < arena.size) :
    ∃ tables start, template.graft arena (some next) = .ok (arena.pushTables tables, some start) ∧
      boundName template found exit arena.size next (some entry) = some start ∧
      arena.Grows (arena.pushTables tables, start) ∧ (arena.size ≤ start ∨ start = next ∧ entry = exit) ∧
      List.Forall₂ (fun id table => ∃ state, source.get? id = some state ∧
        state.Copies (boundName template found exit arena.size next) { table }) ids tables := by
  obtain ⟨tables, grafted, copies⟩ := taken.graft_eq sourceFormed arena next
  obtain ⟨start, bound, named, place⟩ := taken.exists_entry inside
  rw [copies.length_eq, ← size_pushTables] at bound
  have extends_ := extends_pushTables formed sourceFormed rfl (fun id listed state stored aim target =>
    taken.exists_boundName inside (taken.captured.closed id listed state stored aim target)) copies
  exact ⟨tables, start, named ▸ grafted, named, ⟨extends_, bound⟩, place, copies⟩

theorem grafts (taken : source.CapturedBy entry exit found ids template) (sourceFormed : source.WellFormed) :
    template.Grafts := by
  intro arena next formed inside
  obtain ⟨tables, start, grafted, _, grows, _⟩ := taken.graft_grows sourceFormed formed inside
  exact ⟨_, start, grafted, grows.extends_, grows.entry⟩

end CapturedBy

end Arena

/-! ## Copies of a captured fragment -/

namespace Arena

/-- What a fragment with an open exit is built on. -/
def openExit : Arena := ({} : Arena).pushPlaceholder.1

theorem get?_openExit :
    openExit.get? 0 = some { table := { Table.empty with epsilons := [some 0] } } := rfl

theorem wellFormed_openExit : openExit.WellFormed := by decide

/-- What is built on an open exit reports nothing by itself. -/
theorem Extends.silent {kept : Nat} {built : Arena} (extends_ : Extends kept openExit built)
    (id : StateId) (x : Continuation) : ¬ built.Holds id x := by
  intro holds
  obtain ⟨original, state, found, held⟩ := extends_.holds id x holds
  have first : original = 0 := Nat.lt_one_iff.mp (lt_size_of_get? found)
  rw [first, get?_openExit, Option.some.injEq] at found
  subst found
  cases held

variable {built future : Arena} {entry next : StateId} {words : Language UInt8} {x : Continuation}

/-- The exit of a fragment forwards to a state of another arena, which is put behind the fragment. -/
def bridge (built future : Arena) (next : StateId) : Arena :=
  (built.above future).setEpsilons 0 [some (built.size + next)]

namespace Fragment

theorem exit_eq (fragment : Fragment openExit built entry 0 words) :
    built.get? 0 = some { table := { Table.empty with epsilons := [some 0] } } :=
  (fragment.extends_.kept 0 Nat.zero_lt_one).trans get?_openExit

theorem get?_bridge_of_ne (built future : Arena) (next : StateId) {id : StateId} (other : id ≠ 0)
    (inside : id < built.size) : (bridge built future next).get? id = built.get? id := by
  rw [bridge, setEpsilons, get?_modifyTable_of_ne _ _ other.symm, get?_above_of_lt future inside]

theorem get?_bridge_zero (fragment : Fragment openExit built entry 0 words) (future : Arena)
    (next : StateId) : (bridge built future next).get? 0 =
      some { table := { Table.empty with epsilons := [some (built.size + next)] } } :=
  get?_modifyTable_self _
    ((get?_above_of_lt future (fragment.extends_.lt Nat.zero_lt_one)).trans fragment.exit_eq)

theorem wellFormed_bridge (fragment : Fragment openExit built entry 0 words) (formed : future.WellFormed)
    (inside : next < future.size) : (bridge built future next).WellFormed := by
  have above := fragment.formed.above formed
  unfold bridge setEpsilons
  apply above.modifyTable
  intro state found
  apply (above.fits found).setEpsilons
  intro target listed
  refine ⟨built.size + next, ?_, List.mem_singleton.mp listed⟩
  rw [size_above]
  exact Nat.add_lt_add_left inside built.size

/-- From the bridge on the other arena accepts what it accepts by itself. -/
theorem accepted_bridge (fragment : Fragment openExit built entry 0 words) (formed : future.WellFormed)
    {id : StateId} (inside : id < future.size) :
    (bridge built future next).accepted x (built.size + id) = future.accepted x id := by
  have positive : 0 < built.size := fragment.extends_.lt Nat.zero_lt_one
  ext read
  symm
  refine yields_iff_of_renamed (built.size + ·) (· < future.size) (fun _ => False) (fun id bound => ?_)
    (fun _ outside => outside.elim) inside read
  obtain ⟨state, found⟩ := exists_get? bound
  refine ⟨state, state.raise built.size, found, ?_, state.renamesTo_raise built.size, fun next leads =>
    ⟨Or.inl ((formed.fits found).lt_of_leadsTo leads), fun same => Nat.add_left_cancel same⟩⟩
  have apart : 0 ≠ built.size + id :=
    Nat.ne_of_lt (lt_of_lt_of_le positive (Nat.le_add_right _ _))
  rw [bridge, setEpsilons, get?_modifyTable_of_ne _ _ apart, get?_above, found]
  rfl

/-- A renamed copy of a fragment reads its words in front of the state that stands for the exit. -/
theorem accepted_copy (fragment : Fragment openExit built entry 0 words) (formed : future.WellFormed)
    (inside : next < future.size) (rename : StateId → StateId) (exit : rename 0 = next)
    (captured : StateId → Prop) (apart : ¬ captured 0) (reached : captured entry ∨ entry = 0)
    (copied : ∀ id, captured id → ∃ state copy, built.get? id = some state ∧
      future.get? (rename id) = some copy ∧ state.RenamesTo rename copy ∧
      ∀ aim, state.LeadsTo aim → (captured aim ∨ aim = 0) ∧ (rename aim = rename id → aim = id)) :
    future.accepted x (rename entry) = words * future.accepted x next := by
  let bridged := bridge built future next
  have positive : 0 < built.size := fragment.extends_.lt Nat.zero_lt_one
  have forwards : bridged.accepted x 0 = future.accepted x next := by
    have away : built.size + next ≠ 0 := by
      have bound := Nat.le_add_right built.size next
      exact Nat.ne_of_gt (lt_of_lt_of_le positive bound)
    rw [accepted_splice (fragment.get?_bridge_zero future next) (built.size + next) (built.size + next)
      (by simp) away away, Language.add_self, fragment.accepted_bridge formed inside]
  have keeps : built.KeptIn openExit.size bridged := by
    refine ⟨fragment.wellFormed_bridge formed inside, ?_, fun id state found there => ?_⟩
    · simp [bridged, bridge, setEpsilons]
    · have other : id ≠ 0 := by
        rintro rfl
        rcases there with new | silent
        · exact absurd new (by decide)
        · rw [fragment.exit_eq, Option.some.injEq] at found
          subst found
          cases silent
      exact (get?_bridge_of_ne built future next other (lt_size_of_get? found)).trans found
  have renamed (id : StateId) (known : captured id ∨ id = 0) :
      bridged.accepted x id = future.accepted x (rename id) := by
    rcases known with member | rfl
    · ext read
      refine yields_iff_of_renamed rename captured (· = 0) (fun id listed => ?_) ?_ member read
      · obtain ⟨state, copy, found, stored, same, leads⟩ := copied id listed
        refine ⟨state, copy, ?_, stored, same, leads⟩
        have other : id ≠ 0 := by
          rintro rfl
          exact apart listed
        exact (get?_bridge_of_ne built future next other (lt_size_of_get? found)).trans found
      · rintro _ rfl read
        rw [exit, ← mem_accepted, forwards, mem_accepted]
    · rw [forwards, exit]
  rw [← renamed entry reached, fragment.reads bridged keeps x, forwards]

end Fragment

/-- What is captured in front of an open exit can be copied. -/
theorem capture_grafts {kept : Nat} (extends_ : Extends kept openExit built) (inside : entry < built.size) :
    ∃ template, Template.capture built (some entry) (some 0) = .ok template ∧ template.Grafts := by
  obtain ⟨template, found, ids, ran, taken⟩ :=
    capture_eq extends_.formed inside 0 extends_.silent
  exact ⟨template, ran, taken.grafts extends_.formed⟩

/-- What is captured of a fragment is a template that reads the words of the fragment. -/
theorem capture_reads (fragment : Fragment openExit built entry 0 words) :
    ∃ template, Template.capture built (some entry) (some 0) = .ok template ∧ template.Reads words := by
  obtain ⟨template, found, ids, ran, taken⟩ :=
    capture_eq fragment.formed fragment.inside 0 fragment.extends_.silent
  refine ⟨template, ran, fun arena next formed inside => ?_⟩
  obtain ⟨tables, start, grafted, named, grows, place, copies⟩ := taken.graft_grows fragment.formed formed inside
  let rename (id : StateId) : StateId := (boundName template found 0 arena.size next (some id)).getD 0
  have renamed {id : StateId} (known : id ∈ ids ∨ id = 0) :
      boundName template found 0 arena.size next (some id) = some (rename id) := by
    obtain ⟨aim, _, same⟩ := taken.exists_boundName inside known
    simp [rename, same]
  have atExit : rename 0 = next := by
    simp [rename, taken.boundName_exit]
  have atPlace {id place : Nat} (listed : ids[place]? = some id) : rename id = arena.size + place := by
    simp [rename, taken.boundName_eq arena.size next listed]
  obtain rfl : rename entry = start :=
    Option.some.inj ((renamed taken.captured.reached).symm.trans named)
  refine ⟨_, rename entry, grafted, grows.extends_, grows.entry, inside, ?_, ?_⟩
  · refine place.imp_right fun here => ⟨here.1, ?_⟩
    obtain rfl := here.2
    exact (fragment.place.resolve_left (by decide)).2
  · intro future keeps x
    apply fragment.accepted_copy keeps.formed (lt_of_lt_of_le (grows.extends_.lt inside) keeps.size) rename atExit
      (· ∈ ids) taken.captured.apart taken.captured.reached
    intro id listed
    obtain ⟨place, there⟩ := List.mem_iff_getElem?.mp listed
    obtain ⟨state, copy, stored, found', copied⟩ :=
      get?_pushTables_of_copies arena copies there
    have fits := fragment.formed.fits stored
    have known {aim : StateId} (leads : state.LeadsTo aim) : aim ∈ ids ∨ aim = 0 :=
      taken.captured.closed id listed state stored aim (leads.mem_targets fits)
    refine ⟨state, copy, stored, ?_, copied.renamesTo rfl fits fun aim leads => renamed (known leads),
      fun aim leads => ⟨known leads, fun same => ?_⟩⟩
    · rw [atPlace there]
      exact keeps.states _ copy found' (Or.inl (Nat.le_add_right _ _))
    · exact taken.eq_of_boundName_eq inside listed (known leads)
        (by rw [renamed (known leads), renamed (Or.inl listed), same])

end Arena

end ByteAutomata
