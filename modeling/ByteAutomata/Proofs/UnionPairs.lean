import ByteAutomata.Proofs.ArenaStates
import ByteAutomata.Proofs.Checked
import ByteAutomata.Proofs.Naming
import ByteAutomata.Union

/-!
A union names pairs of states.

The pairs named so far are kept as a ghost list: the state of a pair stands behind the arena's own
states, at the pair's place in that list. Each pair is pending or joined, and only the states of
pairs are ever written. Every pair is one of two different states of the arena, so their number is
bounded.
-/

namespace ByteAutomata

variable {size : Nat} {pairs more : List (StateId × StateId)}

theorem orderedPair_proper {a b : StateId} (different : a ≠ b) (left : a < size) (right : b < size) :
    (orderedPair a b).1 < (orderedPair a b).2 ∧ (orderedPair a b).2 < size := by
  unfold orderedPair
  by_cases order : a < b
  · rw [if_pos order]
    exact ⟨order, right⟩
  · rw [if_neg order]
    exact ⟨lt_of_le_of_ne (Nat.not_lt.mp order) different.symm, left⟩

/-- Each state makes a pair with the states in front of it. -/
theorem length_le_of_pairs (distinct : pairs.Nodup)
    (proper : ∀ pair ∈ pairs, pair.1 < pair.2 ∧ pair.2 < size) : pairs.length ≤ size * (size - 1) / 2 := by
  let places := (Finset.range size).sigma Finset.range
  have within : Set.MapsTo (fun pair : StateId × StateId => (⟨pair.2, pair.1⟩ : Σ _ : Nat, Nat))
      pairs.toFinset places := by
    intro pair listed
    obtain ⟨order, inside⟩ := proper pair (List.mem_toFinset.mp listed)
    exact Finset.mem_sigma.mpr ⟨Finset.mem_range.mpr inside, Finset.mem_range.mpr order⟩
  have apart : Set.InjOn (fun pair : StateId × StateId => (⟨pair.2, pair.1⟩ : Σ _ : Nat, Nat))
      pairs.toFinset := by
    rintro ⟨low, high⟩ _ ⟨lowToo, highToo⟩ _ same
    cases same
    rfl
  calc pairs.length = pairs.toFinset.card := (List.toFinset_card_of_nodup distinct).symm
    _ ≤ places.card := Finset.card_le_card_of_injOn _ within apart
    _ = ∑ high ∈ Finset.range size, high := by simp [places, Finset.card_sigma]
    _ = size * (size - 1) / 2 := Finset.sum_range_id size

/-! ## Pairs of states -/

/-- Where the union moves when the two automata move to these targets. -/
inductive Resolves (size : Nat) (pairs : List (StateId × StateId)) :
    Target → Target → Target → Prop
  | left (a : Target) : Resolves size pairs a none a
  | right (b : Target) : Resolves size pairs none b b
  | same (id : StateId) : Resolves size pairs (some id) (some id) (some id)
  | pair {a b : StateId} {place : Nat} (different : a ≠ b)
      (named : pairs[place]? = some (orderedPair a b)) :
      Resolves size pairs (some a) (some b) (some (size + place))

theorem Resolves.mono {a b target : Target} (resolves : Resolves size pairs a b target)
    (grows : pairs <+: more) : Resolves size more a b target := by
  cases resolves with
  | left => exact .left _
  | right => exact .right _
  | same => exact .same _
  | pair different named => exact .pair different (getElem?_of_isPrefix grows named)

theorem Resolves.lt {a b target : Target} (resolves : Resolves size pairs a b target)
    (left : ∀ id, a = some id → id < size) (right : ∀ id, b = some id → id < size) {id : StateId}
    (leads : target = some id) : id < size + pairs.length := by
  cases resolves with
  | left => exact lt_of_lt_of_le (left id leads) (Nat.le_add_right _ _)
  | right => exact lt_of_lt_of_le (right id leads) (Nat.le_add_right _ _)
  | same => exact lt_of_lt_of_le (left id leads) (Nat.le_add_right _ _)
  | pair _ named =>
    have bound := (List.getElem?_eq_some_iff.mp named).1
    rw [← Option.some.inj leads]
    exact Nat.add_lt_add_left bound size

/-- A state without epsilons does what two states without epsilons do together. -/
structure State.Combines (size : Nat) (pairs : List (StateId × StateId)) (left right state : State) :
    Prop where
  silentLeft : left.table.epsilons = []
  silentRight : right.table.epsilons = []
  epsilons : state.table.epsilons = []
  continuations : ∀ x, x ∈ state.continuations ↔ x ∈ left.continuations ∨ x ∈ right.continuations
  lookup : ∀ byte, Resolves size pairs (left.table.lookup byte) (right.table.lookup byte)
    (state.table.lookup byte)
  spinout : Resolves size pairs left.table.spinout right.table.spinout state.table.spinout

/-- The state forwards to two states of the arena or combines them. -/
def Arena.Joins (source : Arena) (pairs : List (StateId × StateId)) (pair : StateId × StateId)
    (state : State) : Prop :=
  ∃ a b, orderedPair a b = pair ∧
    (state = { table := { Table.empty with epsilons := [some a, some b] } } ∨
      ∃ left right, source.get? a = some left ∧ source.get? b = some right ∧
        State.Combines source.size pairs left right state)

theorem Arena.Joins.mono {source : Arena} {pair : StateId × StateId} {state : State}
    (joins : source.Joins pairs pair state) (grows : pairs <+: more) :
    source.Joins more pair state := by
  obtain ⟨a, b, same, splice | ⟨left, right, atLeft, atRight, combines⟩⟩ := joins
  · exact ⟨a, b, same, Or.inl splice⟩
  · refine ⟨a, b, same, Or.inr ⟨left, right, atLeft, atRight, ?_⟩⟩
    exact { combines with
      lookup := fun byte => (combines.lookup byte).mono grows
      spinout := combines.spinout.mono grows }

namespace Joining

/-! ## One step -/

section

variable {joining after : Joining} {a b id : StateId}

/-- A pair that has no name yet is combined if neither state has epsilons, and spliced otherwise. The
second state is looked up only if the first one has none. -/
theorem resolvePair_of_unnamed {left right : State} (absent : joining.named[orderedPair a b]? = none)
    (found : joining.arena.get a = .ok left)
    (second : left.table.epsilons.isEmpty → joining.arena.get b = .ok right) :
    joining.resolvePair a b = .ok
      (if left.table.epsilons.isEmpty && right.table.epsilons.isEmpty then
        ({ (joining.name a b {}).1 with
            pending := ⟨(joining.name a b {}).2, a, b⟩ :: joining.pending }, (joining.name a b {}).2)
      else joining.name a b { table := { Table.empty with epsilons := [some a, some b] } }) := by
  unfold resolvePair
  rw [absent]
  simp only [found, bind, Except.bind]
  by_cases silent : left.table.epsilons.isEmpty
  · simp only [silent, ↓reduceIte, second silent, Bool.true_and]
    by_cases silentToo : right.table.epsilons.isEmpty
    · simp only [silentToo, pure, Except.pure, Bool.not_true, Bool.false_eq_true, ↓reduceIte]
      rfl
    · simp [silentToo, pure, Except.pure]
  · simp [silent, pure, Except.pure]

/-- What is looked up for a pair that has no name yet. -/
theorem exists_of_resolvePair (absent : joining.named[orderedPair a b]? = none)
    (resolved : joining.resolvePair a b = .ok (after, id)) :
    ∃ left right, joining.arena.get a = .ok left ∧
      (left.table.epsilons.isEmpty → joining.arena.get b = .ok right) := by
  unfold resolvePair at resolved
  rw [absent] at resolved
  obtain ⟨left, found, resolved⟩ := Checked.exists_of_bind_eq_ok resolved
  by_cases silent : left.table.epsilons.isEmpty
  · rw [if_pos silent] at resolved
    obtain ⟨right, there, _⟩ := Checked.exists_of_bind_eq_ok resolved
    exact ⟨left, right, found, fun _ => there⟩
  · exact ⟨left, left, found, fun none => absurd none silent⟩

/-- A pair has its name already, or is opened, or is spliced because one of its states has epsilons. -/
theorem resolvePair_cases (resolved : joining.resolvePair a b = .ok (after, id)) :
    (after = joining ∧ joining.named[orderedPair a b]? = some id) ∨
      id = joining.arena.size ∧
        (after = { (joining.name a b {}).1 with pending := ⟨id, a, b⟩ :: joining.pending } ∨
          after = (joining.name a b { table := { Table.empty with epsilons := [some a, some b] } }).1 ∧
            ∃ other state, (other = a ∨ other = b) ∧ joining.arena.get other = .ok state ∧
              state.table.epsilons ≠ []) := by
  cases known : joining.named[orderedPair a b]? with
  | some joint =>
    simp only [Joining.resolvePair, known] at resolved
    cases resolved
    exact Or.inl ⟨rfl, rfl⟩
  | none =>
    obtain ⟨left, right, found, second⟩ := exists_of_resolvePair known resolved
    rw [resolvePair_of_unnamed known found second, Except.ok.injEq] at resolved
    by_cases combined : left.table.epsilons.isEmpty && right.table.epsilons.isEmpty
    · rw [if_pos combined] at resolved
      obtain ⟨rfl, rfl⟩ := Prod.mk.inj resolved
      exact Or.inr ⟨rfl, Or.inl rfl⟩
    · rw [if_neg combined] at resolved
      obtain ⟨rfl, rfl⟩ := Prod.mk.inj resolved
      refine Or.inr ⟨rfl, Or.inr ⟨rfl, ?_⟩⟩
      by_cases silent : left.table.epsilons.isEmpty
      · refine ⟨b, right, Or.inr rfl, second silent, fun none => combined ?_⟩
        rw [silent, none]
        rfl
      · exact ⟨a, left, Or.inl rfl, found, fun none => silent (none ▸ rfl)⟩

/-- Two different states are resolved by the state of their pair, and otherwise a target is kept. -/
theorem resolve_cases {a b target : Target} (resolved : joining.resolve a b = .ok (after, target)) :
    (after = joining ∧ (target = a ∨ target = b)) ∨
      ∃ left right id, a = some left ∧ b = some right ∧ target = some id ∧
        joining.resolvePair left right = .ok (after, id) := by
  unfold resolve at resolved
  split at resolved
  · cases resolved
    exact Or.inl ⟨rfl, Or.inl rfl⟩
  · cases resolved
    exact Or.inl ⟨rfl, Or.inr rfl⟩
  · rename_i left right
    by_cases same : left = right
    · rw [if_pos same] at resolved
      cases resolved
      exact Or.inl ⟨rfl, Or.inl rfl⟩
    · rw [if_neg same] at resolved
      cases ran : joining.resolvePair left right with
      | error fault =>
        rw [ran] at resolved
        cases resolved
      | ok pair =>
        rw [ran] at resolved
        cases resolved
        exact Or.inr ⟨left, right, pair.2, rfl, rfl, rfl, ran⟩

end

/-! ## What is tracked -/

/-- A pair to be joined: its name is known and neither state has epsilons. -/
structure Open (source : Arena) (pairs : List (StateId × StateId)) (pairing : Pairing) : Prop where
  named : ∃ place, pairing.joint = source.size + place ∧
    pairs[place]? = some (orderedPair pairing.left pairing.right)
  left : ∃ left, source.get? pairing.left = some left ∧ left.table.epsilons = []
  right : ∃ right, source.get? pairing.right = some right ∧ right.table.epsilons = []

theorem Open.mono {source : Arena} {pairing : Pairing} (opened : Open source pairs pairing)
    (grows : pairs <+: more) : Open source more pairing := by
  obtain ⟨⟨place, joint, named⟩, left, right⟩ := opened
  exact ⟨⟨place, joint, getElem?_of_isPrefix grows named⟩, left, right⟩

/-- The pairs named so far stand behind the states of `source`. Each is joined, except those pending
and the one that is being filled just now. -/
structure Tracks (source : Arena) (pairs : List (StateId × StateId)) (busy : Option StateId)
    (joining : Joining) : Prop where
  interns : Interns joining.named source.size pairs
  size : joining.arena.size = source.size + pairs.length
  proper : ∀ pair ∈ pairs, pair.1 < pair.2 ∧ pair.2 < source.size
  kept : ∀ id < source.size, joining.arena.get? id = source.get? id
  formed : joining.arena.WellFormed
  pending : ∀ pairing ∈ joining.pending, Open source pairs pairing
  distinct : (joining.pending.map (·.joint)).Nodup
  idle : ∀ id ∈ busy, id ∉ joining.pending.map (·.joint)
  joined : ∀ place pair, pairs[place]? = some pair → source.size + place ∉ busy →
    source.size + place ∉ joining.pending.map (·.joint) →
    ∃ state, joining.arena.get? (source.size + place) = some state ∧ source.Joins pairs pair state

/-- A pair that gets the next name is joined by its state or pending. -/
inductive Settles (source : Arena) (pairs : List (StateId × StateId)) (joining : Joining) (a b : StateId)
    (state : State) : List Pairing → Prop
  | joined : source.Joins pairs (orderedPair a b) state →
      Settles source pairs joining a b state joining.pending
  | opened : Open source (pairs ++ [orderedPair a b]) ⟨joining.arena.size, a, b⟩ →
      Settles source pairs joining a b state (⟨joining.arena.size, a, b⟩ :: joining.pending)

namespace Settles

variable {source : Arena} {joining : Joining} {a b id : StateId} {state : State} {pending : List Pairing}
  (settles : Settles source pairs joining a b state pending)
include settles

theorem eq_or_mem (listed : id ∈ pending.map (·.joint)) :
    id = joining.arena.size ∨ id ∈ joining.pending.map (·.joint) := by
  cases settles with
  | joined _ => exact Or.inr listed
  | opened _ => exact List.mem_cons.mp listed

theorem mem_of_mem (listed : id ∈ joining.pending.map (·.joint)) : id ∈ pending.map (·.joint) := by
  cases settles with
  | joined _ => exact listed
  | opened _ => exact List.mem_cons_of_mem _ listed

theorem open_of_mem (tracked : ∀ pairing ∈ joining.pending, Open source pairs pairing) {pairing : Pairing}
    (listed : pairing ∈ pending) : Open source (pairs ++ [orderedPair a b]) pairing := by
  have grows : pairs <+: pairs ++ [orderedPair a b] := List.prefix_append _ _
  cases settles with
  | joined _ => exact (tracked pairing listed).mono grows
  | opened opened =>
    rcases List.mem_cons.mp listed with rfl | earlier
    · exact opened
    · exact (tracked pairing earlier).mono grows

theorem nodup (distinct : (joining.pending.map (·.joint)).Nodup)
    (fresh : joining.arena.size ∉ joining.pending.map (·.joint)) : (pending.map (·.joint)).Nodup := by
  cases settles with
  | joined _ => exact distinct
  | opened _ => exact List.nodup_cons.mpr ⟨fresh, distinct⟩

theorem joins_of_not_mem (notPending : joining.arena.size ∉ pending.map (·.joint)) :
    source.Joins pairs (orderedPair a b) state := by
  cases settles with
  | joined joins => exact joins
  | opened _ => exact absurd List.mem_cons_self notPending

end Settles

namespace Tracks

variable {source : Arena} {busy : Option StateId} {joining : Joining} {a b : StateId} {state : State}

theorem joint_lt (tracks : Tracks source pairs busy joining) {id : StateId}
    (listed : id ∈ joining.pending.map (·.joint)) : id < joining.arena.size := by
  obtain ⟨pairing, member, rfl⟩ := List.mem_map.mp listed
  obtain ⟨place, joint, named⟩ := (tracks.pending pairing member).named
  have bound := (List.getElem?_eq_some_iff.mp named).1
  rw [joint, tracks.size]
  exact Nat.add_lt_add_left bound source.size

/-- A pair that has no name yet gets the next one. If its state is not joined already, the pair is
pending. -/
theorem name (tracks : Tracks source pairs busy joining) (different : a ≠ b) (left : a < source.size)
    (right : b < source.size) (absent : orderedPair a b ∉ pairs)
    (known : ∀ id ∈ busy, id < joining.arena.size) (fits : state.Fits (joining.arena.size + 1))
    {pending : List Pairing} (settles : Settles source pairs joining a b state pending) :
    Tracks source (pairs ++ [orderedPair a b]) busy
      { (joining.name a b state).1 with pending } where
  interns := by
    have named := tracks.interns.insert absent
    rw [← tracks.size] at named
    exact named
  size := by
    have grown : (joining.name a b state).1.arena.size = joining.arena.size + 1 :=
      Arena.size_push _ _
    rw [grown, tracks.size, List.length_append, List.length_singleton, Nat.add_assoc]
  proper := by
    intro pair listed
    rcases List.mem_append.mp listed with earlier | last
    · exact tracks.proper pair earlier
    · exact List.mem_singleton.mp last ▸ orderedPair_proper different left right
  kept := by
    intro id inside
    have longer : source.size ≤ joining.arena.size := tracks.size ▸ Nat.le_add_right _ _
    exact (Arena.get?_push_of_lt (lt_of_lt_of_le inside longer)).trans (tracks.kept id inside)
  formed := tracks.formed.push fits
  pending := fun _ listed => settles.open_of_mem tracks.pending listed
  distinct := settles.nodup tracks.distinct fun listed => Nat.lt_irrefl _ (tracks.joint_lt listed)
  idle := by
    intro id current listed
    rcases settles.eq_or_mem listed with last | earlier
    · exact Nat.lt_irrefl _ (last ▸ known id current)
    · exact tracks.idle id current earlier
  joined := by
    intro place pair named notBusy notPending
    have grows : pairs <+: pairs ++ [orderedPair a b] := List.prefix_append _ _
    rcases getElem?_concat_eq_some_iff.mp named with earlier | ⟨rfl, rfl⟩
    · obtain ⟨old, found, joins⟩ :=
        tracks.joined place pair earlier notBusy fun listed => notPending (settles.mem_of_mem listed)
      exact ⟨old, (Arena.get?_push_of_lt (Arena.lt_size_of_get? found)).trans found, joins.mono grows⟩
    · rw [← tracks.size] at notPending ⊢
      exact ⟨state, Arena.get?_push_self state, (settles.joins_of_not_mem notPending).mono grows⟩

/-- The next pair is taken from the pending ones. -/
theorem start {pairing : Pairing} {rest : List Pairing} (tracks : Tracks source pairs none joining)
    (pending : joining.pending = pairing :: rest) :
    Tracks source pairs (some pairing.joint) { joining with pending := rest } := by
  have distinct := tracks.distinct
  rw [pending, List.map_cons, List.nodup_cons] at distinct
  exact {
    interns := tracks.interns
    size := tracks.size
    proper := tracks.proper
    kept := tracks.kept
    formed := tracks.formed
    pending := fun other listed => tracks.pending other (pending ▸ List.mem_cons_of_mem _ listed)
    distinct := distinct.2
    idle := by
      intro other busy
      exact Option.some.inj busy ▸ distinct.1
    joined := by
      intro place pair named notBusy notPending
      refine tracks.joined place pair named (by simp) ?_
      rw [pending, List.map_cons, List.mem_cons]
      rintro (here | later)
      · exact notBusy (here ▸ rfl)
      · exact notPending later }

/-- The state of the busy pair is put in its place. -/
theorem finish {place : Nat} {pair : StateId × StateId} {state : State}
    (tracks : Tracks source pairs (some (source.size + place)) joining)
    (named : pairs[place]? = some pair) (fits : state.Fits joining.arena.size)
    (joins : source.Joins pairs pair state) :
    Tracks source pairs none
      { joining with arena := joining.arena.put (source.size + place) state } where
  interns := tracks.interns
  size := (Arena.size_put _ _ _).trans tracks.size
  proper := tracks.proper
  kept := by
    intro id inside
    refine (Arena.get?_put_of_ne _ _ ?_).trans (tracks.kept id inside)
    exact Nat.ne_of_gt (lt_of_lt_of_le inside (Nat.le_add_right _ _))
  formed := tracks.formed.put fits
  pending := tracks.pending
  distinct := tracks.distinct
  idle := by simp
  joined := by
    intro other otherPair otherNamed _ notPending
    have bound := (List.getElem?_eq_some_iff.mp named).1
    by_cases same : source.size + place = source.size + other
    · have here : place = other := Nat.add_left_cancel same
      subst here
      rw [named, Option.some.injEq] at otherNamed
      refine ⟨state, Arena.get?_put_self ?_, otherNamed ▸ joins⟩
      exact tracks.size.symm ▸ Nat.add_lt_add_left bound source.size
    · have idle : source.size + other ∉ some (source.size + place) :=
        fun busy => same (Option.some.inj busy)
      obtain ⟨old, found, joined⟩ := tracks.joined other otherPair otherNamed idle notPending
      exact ⟨old, (Arena.get?_put_of_ne _ _ same).trans found, joined⟩

end Tracks

/-! ## One move -/

/-- What follows from naming further pairs: none is lost, and no more come to be pending than named. -/
structure Advances (source : Arena) (busy : Option StateId) (pairs more : List (StateId × StateId))
    (before after : Joining) : Prop where
  grows : pairs <+: more
  tracks : Tracks source more busy after
  count : pairs.length + after.pending.length ≤ more.length + before.pending.length

namespace Advances

variable {source : Arena} {busy : Option StateId} {before middle after : Joining}
  {all : List (StateId × StateId)}

theorem refl (tracks : Tracks source pairs busy before) :
    Advances source busy pairs pairs before before :=
  ⟨List.prefix_refl _, tracks, Nat.le_refl _⟩

theorem trans (first : Advances source busy pairs more before middle)
    (second : Advances source busy more all middle after) :
    Advances source busy pairs all before after := by
  refine ⟨first.grows.trans second.grows, second.tracks, ?_⟩
  have early := first.count
  have late := second.count
  omega

/-- A name that was given stays given. -/
theorem known (advances : Advances source busy pairs more before after)
    (tracks : Tracks source pairs busy before) (named : ∀ id ∈ busy, id < before.arena.size) :
    ∀ id ∈ busy, id < after.arena.size := by
  intro id current
  refine lt_of_lt_of_le (named id current) ?_
  rw [tracks.size, advances.tracks.size]
  exact Nat.add_le_add_left advances.grows.length_le _

end Advances

section Resolving

variable {source : Arena} {busy : Option StateId} {joining : Joining} {a b : StateId}

/-- Two different states get the state of their pair. -/
theorem resolvePair_eq (tracks : Tracks source pairs busy joining) (different : a ≠ b)
    (left : a < source.size) (right : b < source.size)
    (known : ∀ id ∈ busy, id < joining.arena.size) :
    ∃ after id more, joining.resolvePair a b = .ok (after, id) ∧
      Advances source busy pairs more joining after ∧
      Resolves source.size more (some a) (some b) (some id) := by
  obtain ⟨leftState, leftFound⟩ := Arena.exists_get? left
  obtain ⟨rightState, rightFound⟩ := Arena.exists_get? right
  have leftHeld := Arena.get_of_get? ((tracks.kept a left).trans leftFound)
  have rightHeld := Arena.get_of_get? ((tracks.kept b right).trans rightFound)
  have longer : source.size ≤ joining.arena.size := tracks.size ▸ Nat.le_add_right _ _
  cases named : joining.named[orderedPair a b]? with
  | some id =>
    obtain ⟨place, found, same⟩ := (tracks.interns.named_iff _ id).mp named
    exact ⟨joining, id, pairs, by simp only [resolvePair, named]; rfl, .refl tracks, same ▸ .pair different found⟩
  | none =>
    have absent := tracks.interns.unnamed_iff.mp named
    have grows : pairs <+: pairs ++ [orderedPair a b] := List.prefix_append _ _
    have fresh : (pairs ++ [orderedPair a b])[pairs.length]? = some (orderedPair a b) :=
      List.getElem?_concat_length
    have resolved : Resolves source.size (pairs ++ [orderedPair a b]) (some a) (some b)
        (some joining.arena.size) := tracks.size ▸ .pair different fresh
    rw [resolvePair_of_unnamed named leftHeld fun _ => rightHeld]
    by_cases silent : leftState.table.epsilons.isEmpty && rightState.table.epsilons.isEmpty
    · rw [if_pos silent]
      rw [Bool.and_eq_true, List.isEmpty_iff, List.isEmpty_iff] at silent
      have opened : Open source (pairs ++ [orderedPair a b]) ⟨joining.arena.size, a, b⟩ :=
        ⟨⟨pairs.length, tracks.size, fresh⟩, ⟨leftState, leftFound, silent.1⟩, ⟨rightState, rightFound, silent.2⟩⟩
      refine ⟨_, joining.arena.size, pairs ++ [orderedPair a b], rfl, ⟨grows, ?_, ?_⟩, resolved⟩
      · exact tracks.name different left right absent known (.of_idle _ []) (.opened opened)
      · simp only [name, List.length_cons, List.length_append, List.length_nil]
        omega
    · rw [if_neg silent]
      have fits : State.Fits (joining.arena.size + 1)
          { table := { Table.empty with epsilons := [some a, some b] } } := by
        refine .of_splice fun target listed => ?_
        rcases List.mem_cons.mp listed with here | later
        · exact ⟨a, Nat.lt_succ_of_lt (lt_of_lt_of_le left longer), here⟩
        · exact ⟨b, Nat.lt_succ_of_lt (lt_of_lt_of_le right longer), List.mem_singleton.mp later⟩
      refine ⟨_, joining.arena.size, pairs ++ [orderedPair a b], rfl, ⟨grows, ?_, ?_⟩, resolved⟩
      · exact tracks.name different left right absent known fits (.joined ⟨a, b, rfl, Or.inl rfl⟩)
      · simp only [List.length_append]
        omega

theorem resolve_eq (tracks : Tracks source pairs busy joining) {a b : Target}
    (left : source.TargetWithin a) (right : source.TargetWithin b)
    (known : ∀ id ∈ busy, id < joining.arena.size) :
    ∃ after target more, joining.resolve a b = .ok (after, target) ∧
      Advances source busy pairs more joining after ∧ Resolves source.size more a b target := by
  cases b with
  | none => exact ⟨joining, a, pairs, by cases a <;> rfl, .refl tracks, .left a⟩
  | some b =>
    cases a with
    | none => exact ⟨joining, some b, pairs, rfl, .refl tracks, .right _⟩
    | some a =>
      by_cases same : a = b
      · subst same
        exact ⟨joining, some a, pairs, by simp [resolve], .refl tracks, .same a⟩
      · obtain ⟨after, id, more, resolved, advances, resolves⟩ :=
          resolvePair_eq tracks same (left a rfl) (right b rfl) known
        refine ⟨after, some id, more, ?_, advances, resolves⟩
        simp only [resolve, same, ↓reduceIte, resolved]
        rfl

end Resolving

end Joining

end ByteAutomata
