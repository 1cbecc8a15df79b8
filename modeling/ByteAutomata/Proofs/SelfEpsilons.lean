import ByteAutomata.Proofs.LoopBodies
import ByteAutomata.Proofs.SharedTemplates

/-!
States that forward to themselves.

A state that lists itself among its epsilons stays alive on every byte. What is built for a regexp has none:
states that forward do so to states that were there before them or, once they are wired into a loop, to the
body of the loop. This rests on the body being new, so it fails where nothing is built for the body of a loop.
-/

namespace ByteAutomata

open Arena

namespace Arena

variable {arena middle built : Arena} {entry between next other : StateId} {kept : Nat}
  {skips more : Prop}

/-- No state from `kept` on lists itself among its epsilons. -/
def MovesOn (arena : Arena) (kept : Nat) : Prop :=
  ∀ id state, kept ≤ id → arena.get? id = some state → some id ∉ state.table.epsilons

theorem movesOn_zero_iff (arena : Arena) : arena.MovesOn 0 ↔ ∀ id, arena.hasSelfEpsilon id ≠ .ok true := by
  unfold MovesOn hasSelfEpsilon get
  refine forall_congr' fun id => ?_
  cases arena.get? id with
  | none => simp [bind, Except.bind]
  | some state => simp [bind, Except.bind, pure, Except.pure]

namespace MovesOn

theorem of_size (arena : Arena) : arena.MovesOn arena.size :=
  fun _ _ new found => absurd (lt_size_of_get? found) (Nat.not_lt.mpr new)

theorem append (first : middle.MovesOn kept) (extends_ : Extends middle.size middle built)
    (second : built.MovesOn middle.size) : built.MovesOn kept := by
  intro id state new found
  by_cases old : id < middle.size
  · exact first id state new ((extends_.kept id old).symm.trans found)
  · exact second id state (Nat.not_lt.mp old) found

theorem pushTable {table : Table} (apart : some arena.size ∉ table.epsilons) :
    (arena.pushTable table).1.MovesOn arena.size := by
  intro id state new found
  rw [Arena.pushTable, get?_push] at found
  split at found
  · rename_i same
    rw [← Option.some.inj found, same]
    exact apart
  · exact absurd (lt_size_of_get? found) (Nat.not_lt.mpr new)

theorem of_unites {pairs : List (StateId × StateId)} (unites : middle.Unites pairs built) :
    built.MovesOn middle.size := by
  intro id state new found
  obtain ⟨place, rfl⟩ := Nat.exists_eq_add_of_le new
  have bound := lt_size_of_get? found
  rw [unites.size] at bound
  have named := List.getElem?_eq_getElem (Nat.lt_of_add_lt_add_left bound)
  obtain ⟨joint, stored, a, b, same, joins⟩ := unites.joins place _ named
  obtain rfl := Option.some.inj (found.symm.trans stored)
  rcases joins with rfl | ⟨_, _, _, _, combines⟩
  · have early := unites.lt_size (same ▸ named)
    have later := Nat.le_add_right middle.size place
    simp [Nat.ne_of_gt (lt_of_lt_of_le early.1 later), Nat.ne_of_gt (lt_of_lt_of_le early.2 later)]
  · simp [combines.epsilons]

end MovesOn

/-! ## What is built in front of a state -/

/-- A part of an arena that is built in front of a state. Its entry is new, or it is that state if the part
`skips`; no new state lists itself among its epsilons. -/
structure Segment (arena built : Arena) (entry next : StateId) (skips : Prop) : Prop where
  extends_ : Extends arena.size arena built
  inside : entry < built.size
  goal : next < arena.size
  place : arena.size ≤ entry ∨ entry = next ∧ skips
  movesOn : built.MovesOn arena.size

namespace Segment

theorem refl (formed : arena.WellFormed) (inside : next < arena.size) (skipping : skips) :
    Segment arena arena next next skips :=
  ⟨.refl _ formed, inside, inside, Or.inr ⟨rfl, skipping⟩, .of_size arena⟩

theorem mono (segment : Segment arena built entry next skips) (implies : skips → more) :
    Segment arena built entry next more :=
  { segment with place := segment.place.imp_right (And.imp_right implies) }

theorem trans (first : Segment arena middle between next skips)
    (second : Segment middle built entry between more) : Segment arena built entry next (more ∧ skips) where
  extends_ := first.extends_.append second.extends_
  inside := second.inside
  goal := first.goal
  place := by
    rcases second.place with new | ⟨rfl, skipping⟩
    · exact Or.inl (Nat.le_trans first.extends_.size new)
    · exact first.place.imp_right fun here => ⟨here.1, skipping, here.2⟩
  movesOn := first.movesOn.append second.extends_ second.movesOn

theorem new (segment : Segment arena built entry next skips) (proper : ¬ skips) : arena.size ≤ entry :=
  segment.place.resolve_right fun here => proper here.2

/-- A new state may forward into a part or to any state. -/
theorem splice (segment : Segment arena built entry next skips) (bound : other < built.size) :
    Segment arena (built.pushSplice [some entry, some other]).1 built.size next more := by
  have pushed : built.Grows (built.pushSplice [some entry, some other]) :=
    segment.extends_.formed.grows_pushSplice (by simp [segment.inside, bound])
  refine ⟨segment.extends_.append pushed.extends_, pushed.entry, segment.goal, Or.inl segment.extends_.size,
    segment.movesOn.append pushed.extends_ (.pushTable ?_)⟩
  simp [Nat.ne_of_gt segment.inside, Nat.ne_of_gt bound]

/-- A union of two parts is a part, and it is new unless the parts are the same. -/
theorem union (left : Segment arena middle entry next skips) (right : Segment middle built other next more) :
    ∃ joined start, built.union (some entry) (some other) = .ok (joined, some start) ∧
      Segment arena joined start next (skips ∨ more) := by
  have formed := right.extends_.formed
  have insideLeft : built.TargetWithin (some entry) := targetWithin_some (right.extends_.lt left.inside)
  have insideRight : built.TargetWithin (some other) := targetWithin_some right.inside
  obtain ⟨joined, target, pairs, united, unites, resolves⟩ := union_eq formed insideLeft insideRight
  obtain ⟨start, rfl, inside, place⟩ := unites.exists_start insideLeft insideRight resolves
  have grown := left.extends_.append right.extends_
  refine ⟨joined, start, united, grown.append unites.extends_, inside, left.goal, ?_,
    (left.movesOn.append right.extends_ right.movesOn).append unites.extends_ (.of_unites unites)⟩
  rcases place with rfl | new
  · exact left.place.imp_right (And.imp_right Or.inl)
  · exact Or.inl (Nat.le_trans grown.size new)

/-- A state is wired to forward into a part that was built in front of it. The part must be new. -/
theorem closeLoop (formed : arena.WellFormed) (inside : next < arena.size)
    (body : Segment (arena.pushSplice [some next]).1 built entry arena.size skips) (proper : ¬ skips)
    (targets : List Target) (listed : ∀ target ∈ targets, target = some entry ∨ target = some next) :
    Extends arena.size arena (built.setEpsilons arena.size targets) ∧ arena.size ≤ entry ∧
      (built.setEpsilons arena.size targets).MovesOn arena.size := by
  have size : (arena.pushSplice [some next]).1.size = arena.size + 1 := size_push arena _
  have new : arena.size < entry := by
    have behind := body.new proper
    rwa [size] at behind
  refine ⟨formed.extends_wired inside body.extends_ body.inside listed, new.le, fun id state later found => ?_⟩
  rw [setEpsilons, get?_modifyTable] at found
  by_cases same : arena.size = id
  · subst same
    rw [if_pos rfl] at found
    obtain ⟨original, _, rfl⟩ := Option.map_eq_some_iff.mp found
    intro own
    rcases listed _ own with same | same
    · exact absurd (Option.some.inj same) (Nat.ne_of_lt new)
    · exact absurd (Option.some.inj same) (Nat.ne_of_gt inside)
  · rw [if_neg same] at found
    exact body.movesOn id state (size ▸ Nat.lt_of_le_of_ne later same) found

theorem loop (formed : arena.WellFormed) (inside : next < arena.size)
    (body : Segment (arena.pushSplice [some next]).1 built entry arena.size skips) (proper : ¬ skips) :
    Segment arena (built.setEpsilons arena.size [some entry, some next]) arena.size next more := by
  obtain ⟨grown, _, movesOn⟩ := body.closeLoop formed inside proper [some entry, some next] (by simp)
  have bound := body.extends_.lt body.goal
  rw [← size_modifyTable built arena.size] at bound
  exact ⟨grown, bound, inside, Or.inl (Nat.le_refl _), movesOn⟩

theorem loopAtLeastOnce (formed : arena.WellFormed) (inside : next < arena.size)
    (body : Segment (arena.pushSplice [some next]).1 built entry arena.size skips) (proper : ¬ skips) :
    Segment arena (built.setEpsilons arena.size [some next, some entry]) entry next more := by
  obtain ⟨grown, new, movesOn⟩ := body.closeLoop formed inside proper [some next, some entry] (by simp [or_comm])
  have bound := body.inside
  rw [← size_modifyTable built arena.size] at bound
  exact ⟨grown, bound, inside, Or.inl new, movesOn⟩

theorem single (formed : arena.WellFormed) (inside : next < arena.size) (byte : UInt8) :
    Segment arena (arena.pushTable (.single byte (some next))).1 arena.size next skips := by
  have pushed := formed.grows_single byte inside
  exact ⟨pushed.extends_, pushed.entry, inside, Or.inl (Nat.le_refl _),
    .pushTable (by simp [Table.single, Table.mapping, Table.ofCells, Table.empty, Table.always])⟩

end Segment

theorem ReadsRune.segment {holds : Char → Prop} {result : Arena × StateId}
    (reads : arena.ReadsRune next holds result) (inside : next < arena.size) :
    Segment arena result.1 result.2 next skips :=
  ⟨reads.grows.extends_, reads.grows.entry, inside, Or.inl reads.new, fun id state new found => by
    simp [(reads.steps.only id state new found).epsilons]⟩

end Arena

/-! ## Copies -/

namespace Template

/-- Copies of the template in front of any state are parts that may skip if the template `skips`. -/
def Leads (template : Template) (skips : Prop) : Prop :=
  ∀ (arena : Arena) (next : StateId), arena.WellFormed → next < arena.size →
    ∃ built entry, template.graft arena (some next) = .ok (built, some entry) ∧
      Segment arena built entry next skips

end Template

namespace Arena

variable {source : Arena} {entry exit : StateId} {found : Discovery} {ids : List StateId}
  {template : Template} {skips : Prop}

/-- Copies of states that do not list themselves do not list themselves either. -/
theorem CapturedBy.movesOn_graft {arena : Arena} {next : StateId} {tables : List Table}
    (taken : source.CapturedBy entry exit found ids template)
    (copies : List.Forall₂ (fun id table => ∃ state, source.get? id = some state ∧
      state.Copies (boundName template found exit arena.size next) { table }) ids tables)
    (inside : next < arena.size)
    (apart : ∀ id ∈ ids, ∀ state, source.get? id = some state → some id ∉ state.table.epsilons) :
    (arena.pushTables tables).MovesOn arena.size := by
  intro id copy new stored own
  obtain ⟨here, member, named, state, held, copied⟩ := taken.exists_original copies new stored
  rw [copied.epsilons] at own
  obtain ⟨target, listed, same⟩ := List.mem_map.mp own
  cases target with
  | none => cases same
  | some aim =>
    have known := taken.captured.closed here member state held aim (by simp [State.targets, listed])
    have back := taken.eq_of_boundName_eq inside member known (same.trans named.symm)
    exact apart here member state held (back ▸ listed)

/-- What is captured of a part is a template for such parts. -/
theorem Segment.capture (segment : Segment openExit source entry 0 skips) :
    ∃ template, Template.capture source (some entry) (some 0) = .ok template ∧ template.Leads skips := by
  obtain ⟨template, found, ids, ran, taken⟩ :=
    capture_eq segment.extends_.formed segment.inside 0 segment.extends_.silent
  refine ⟨template, ran, fun arena next formed inside => ?_⟩
  obtain ⟨tables, start, grafted, _, grows, place, copies⟩ :=
    taken.graft_grows segment.extends_.formed formed inside
  refine ⟨arena.pushTables tables, start, grafted, grows.extends_, grows.entry, inside, ?_, ?_⟩
  · refine place.imp_right fun here => ⟨here.1, ?_⟩
    obtain rfl := here.2
    exact (segment.place.resolve_left (by decide)).2
  · refine taken.movesOn_graft copies inside fun id listed state stored => segment.movesOn id state ?_ stored
    -- The exit itself, which forwards to itself, is not captured.
    exact Nat.pos_of_ne_zero fun zero => taken.captured.apart (zero ▸ listed)

end Arena

/-! ## Compilations -/

namespace Compile

variable {names : String → RuneSet → Prop} {build : Target → Compile Target} {skips more : Prop}
  {workshop after : Workshop} {template : Template}

/-- Unless it is refused, what is built in front of a state is a part. -/
def Leads (names : String → RuneSet → Prop) (build : Target → Compile Target) (skips : Prop) : Prop :=
  ∀ (workshop after : Workshop) (next : StateId) (result : Target), workshop.arena.WellFormed →
    workshop.cache.Holds names → next < workshop.arena.size →
    (build (some next)).runIn workshop = .ok (.ok result, after) →
    ∃ entry, result = some entry ∧ Segment workshop.arena after.arena entry next skips

namespace Leads

theorem mono (leads : Leads names build skips) (implies : skips → more) : Leads names build more := by
  intro workshop after next result formed holds inside ran
  obtain ⟨entry, same, segment⟩ := leads workshop after next result formed holds inside ran
  exact ⟨entry, same, segment.mono implies⟩

theorem throw (error : PatternError) : Leads names (fun _ => MonadExcept.throw error) skips := by
  intro workshop after next result _ _ _ ran
  cases ran

theorem pure (skipping : skips) : Leads names (fun next => Pure.pure next) skips := by
  intro workshop after next result formed _ inside ran
  cases ran
  exact ⟨next, rfl, .refl formed inside skipping⟩

theorem pushed (change : Arena → Target → Arena × StateId)
    (segment : ∀ (arena : Arena) (next : StateId), arena.WellFormed → next < arena.size →
      Segment arena (change arena (some next)).1 (change arena (some next)).2 next skips) :
    Leads names (fun next => do return some (← onArena fun arena => change arena next)) skips := by
  intro workshop after next result formed _ inside ran
  cases ran
  exact ⟨_, rfl, segment workshop.arena next formed inside⟩

theorem single (byte : UInt8) : Leads names (Regexp.pushSingle byte) skips :=
  .pushed (fun arena next => arena.pushTable (.single byte next)) fun _ _ formed inside =>
    .single formed inside byte

theorem anyRune :
    Leads names (fun next => do return some (← onArena fun arena => arena.pushAnyRune next)) skips :=
  .pushed (fun arena next => arena.pushAnyRune next) fun _ _ formed inside =>
    (pushAnyRune_reads formed inside).segment inside

/-- Whatever set the template in the cache was made for, it is a trie, which has states of its own. -/
theorem runes (config : Config) {name : Option String} {set : RuneSet}
    (named : names (name.getD set.simplify.canonicalName) set) :
    Leads names (Compile.runes config name set) skips := by
  intro workshop after next result formed holds inside ran
  cases swapped : set.firstSwapped? with
  | some interval =>
    rw [runes_of_swapped swapped] at ran
    cases ran
  | none =>
    have proper := RuneSet.firstSwapped?_eq_none_iff.mp swapped
    obtain ⟨entry, last, source, made, _, reads⟩ :=
      exists_runIn_runes holds config named proper formed inside
    have both := made.symm.trans ran
    cases both
    exact ⟨entry, rfl, reads.segment inside⟩

/-- What is built in front of a part goes on with it. -/
theorem chain {first : Target → Compile Target} (second : Leads names build skips)
    (keeps : ∀ next, Keeps names (build next)) (leads : Leads names first more) :
    Leads names (fun next => do first (← build next)) (more ∧ skips) := by
  intro workshop after next result formed holds inside ran
  obtain ⟨between, middle, ran, ranFirst⟩ := exists_of_runIn_bind ran
  obtain ⟨id, rfl, segment⟩ := second workshop middle next between formed holds inside ran
  obtain ⟨entry, rfl, further⟩ := leads middle after id result segment.extends_.formed
    (keeps _ workshop _ middle holds ran) segment.inside ranFirst
  exact ⟨entry, rfl, segment.trans further⟩

theorem optional (body : Leads names build skips) :
    Leads names (fun next => do
      let entry ← build next
      return some (← Regexp.splice [entry, next])) more := by
  intro workshop after next result formed holds inside ran
  obtain ⟨entry, middle, ran, spliced⟩ := exists_of_runIn_bind ran
  obtain ⟨id, rfl, segment⟩ := body workshop middle next entry formed holds inside ran
  cases spliced
  exact ⟨_, rfl, segment.splice (segment.extends_.lt inside)⟩

/-- A body is built in front of a new state that only forwards as yet. -/
theorem exists_waiting {further : StateId → Target → Compile Target} {next : StateId} {result : Target}
    (body : Leads names build skips) (formed : workshop.arena.WellFormed)
    (holds : workshop.cache.Holds names) (inside : next < workshop.arena.size)
    (ran : (do
      let waiting ← Regexp.splice [some next]
      let entry ← build (some waiting)
      further waiting entry).runIn workshop = .ok (.ok result, after)) :
    ∃ entry middle,
      Segment (workshop.arena.pushSplice [some next]).1 middle.arena entry workshop.arena.size skips ∧
      (further workshop.arena.size (some entry)).runIn middle = .ok (.ok result, after) := by
  obtain ⟨entry, middle, ran, goesOn⟩ := exists_of_runIn_waiting ran
  have forwards := formed.grows_forward inside
  obtain ⟨id, rfl, segment⟩ :=
    body { workshop with arena := (workshop.arena.pushSplice [some next]).1 } middle workshop.arena.size entry
      forwards.extends_.formed holds forwards.entry ran
  exact ⟨id, middle, segment, goesOn⟩

theorem loop (body : Leads names build skips) (proper : ¬ skips) :
    Leads names (fun next => Regexp.loop next build) more := by
  intro workshop after next result formed holds inside ran
  obtain ⟨entry, middle, segment, wired⟩ := exists_waiting body formed holds inside ran
  cases wired
  exact ⟨_, rfl, segment.loop formed inside proper⟩

theorem loopAtLeastOnce (body : Leads names build skips) (proper : ¬ skips) :
    Leads names (fun next => Regexp.loopAtLeastOnce next build) more := by
  intro workshop after next result formed holds inside ran
  obtain ⟨entry, middle, segment, wired⟩ := exists_waiting body formed holds inside ran
  cases wired
  exact ⟨_, rfl, segment.loopAtLeastOnce formed inside proper⟩

theorem either {other : Target → Compile Target} (left : Leads names build skips)
    (keeps : ∀ next, Keeps names (build next)) (right : Leads names other more) :
    Leads names (fun next => do
      let first ← build next
      let second ← other next
      onArenaChecked fun arena => arena.union first second) (skips ∨ more) := by
  intro workshop after next result formed holds inside ran
  obtain ⟨first, middle, ran, ranOther⟩ := exists_of_runIn_bind ran
  obtain ⟨id, rfl, segment⟩ := left workshop middle next first formed holds inside ran
  obtain ⟨second, last, ranRight, joined⟩ := exists_of_runIn_bind ranOther
  obtain ⟨place, rfl, further⟩ := right middle last next second segment.extends_.formed
    (keeps _ workshop _ middle holds ran) (segment.extends_.lt inside) ranRight
  obtain ⟨arena, target, united, same, rfl⟩ := exists_of_runIn_onArenaChecked joined
  obtain ⟨union, start, unites, whole⟩ := segment.union further
  rw [unites] at united
  cases united
  cases same
  exact ⟨start, rfl, whole⟩

/-! ### Copies of a template -/

theorem graft (leads : template.Leads skips) : Leads names (Compile.graft template) skips := by
  intro workshop after next result formed _ inside ran
  obtain ⟨arena, target, grafted, same, rfl⟩ := exists_of_runIn_onArenaChecked ran
  obtain ⟨built, entry, copied, segment⟩ := leads workshop.arena next formed inside
  rw [copied] at grafted
  cases grafted
  cases same
  exact ⟨entry, rfl, segment⟩

theorem graftTimes (leads : template.Leads skips) (count : Nat) :
    Leads names (Regexp.graftTimes template count) (count = 0 ∨ skips) := by
  induction count with
  | zero => exact .pure (Or.inl rfl)
  | succ count ih =>
    exact ((graft leads).chain (fun _ => .onArenaChecked _) ih).mono fun both => Or.inr both.2

/-- Copies that can be skipped, in front of some that are there already. -/
theorem graftOptional_eq (leads : template.Leads skips) {arena : Arena} {next : StateId}
    (inside : next < arena.size) (count : Nat) {current : StateId} {result : Target}
    (before : Segment arena workshop.arena current next more) (holds : workshop.cache.Holds names)
    (ran : (Regexp.graftOptional template (some next) count (some current)).runIn workshop =
      .ok (.ok result, after)) :
    ∃ entry, result = some entry ∧ Segment arena after.arena entry next (count = 0 ∧ more) := by
  induction count generalizing workshop current more with
  | zero =>
    cases ran
    exact ⟨current, rfl, before.mono fun skipping => ⟨rfl, skipping⟩⟩
  | succ count ih =>
    obtain ⟨copy, middle, grafted, ran⟩ := exists_of_runIn_bind ran
    obtain ⟨id, rfl, segment⟩ :=
      graft leads workshop middle current copy before.extends_.formed holds before.inside grafted
    obtain ⟨skip, last, spliced, ran⟩ := exists_of_runIn_bind ran
    cases spliced
    have longer := before.trans segment
    have skippable : Segment arena (middle.arena.pushSplice [some id, some next]).1 middle.arena.size next False :=
      longer.splice (longer.extends_.lt inside)
    have kept : middle.cache.Holds names := Keeps.onArenaChecked _ workshop _ middle holds grafted
    refine Exists.imp (fun entry whole => ⟨whole.1, whole.2.mono fun never => never.2.elim⟩)
      (ih skippable ?_ ran)
    exact kept

theorem graftOptional (leads : template.Leads skips) (count : Nat) :
    Leads names (fun next => Regexp.graftOptional template next count next) (count = 0) := by
  intro workshop after next result formed holds inside ran
  obtain ⟨entry, same, segment⟩ :=
    graftOptional_eq leads inside count (.refl formed inside trivial) holds ran
  exact ⟨entry, same, segment.mono And.left⟩

theorem template_eq (body : Leads names build skips) (holds : workshop.cache.Holds names)
    (ran : (Compile.template build).runIn workshop = .ok (.ok template, after)) :
    template.Leads skips ∧ after.arena = workshop.arena := by
  obtain ⟨entry, last, built, captured, rfl⟩ := exists_of_runIn_template ran
  obtain ⟨id, rfl, segment⟩ :=
    body (bench workshop.cache) last 0 entry wellFormed_openExit holds Nat.zero_lt_one built
  obtain ⟨copy, taken, leads⟩ := segment.capture
  obtain rfl := Except.ok.inj (captured.symm.trans taken)
  exact ⟨leads, rfl⟩

theorem copies (body : Leads names build skips) (keeps : ∀ next, Keeps names (build next)) (least : Nat)
    (skippable : Option Nat) (proper : skippable = none → ¬ skips) :
    Leads names (fun next => do
      let template ← Compile.template build
      let rest ← Regexp.Plan.buildSkippable template next skippable
      Regexp.graftTimes template least rest) (least = 0 ∧ skippable = some 0 ∨ skips) := by
  intro workshop after next result formed holds inside ran
  obtain ⟨template, middle, captured, ran⟩ := exists_of_runIn_bind ran
  obtain ⟨leads, same⟩ := template_eq body holds captured
  have kept : middle.cache.Holds names := Keeps.template keeps workshop _ middle holds captured
  have behind : Leads names (fun next => Regexp.Plan.buildSkippable template next skippable)
      (skippable = some 0) := by
    cases skippable with
    | some count => exact (graftOptional leads count).mono fun none => congrArg some none
    | none => exact loop (graft leads) (proper rfl)
  have whole := behind.chain (fun next => Regexp.buildSkippable_keeps template next skippable)
    (graftTimes leads least)
  rw [← same] at formed inside ⊢
  obtain ⟨entry, rfl, segment⟩ := whole middle after next result formed kept inside ran
  exact ⟨entry, rfl, segment.mono fun both => both.1.imp_left fun none => ⟨none, both.2⟩⟩

end Leads

end Compile

namespace Regexp

open Compile

variable {names : String → RuneSet → Prop}

/-- What is built for a plan whose loops have bodies of their own has no state that lists itself. -/
theorem Plan.build_leads (config : Config) (plan : Plan) (named : plan.Named names) (grounded : plan.Grounded) :
    Leads names (plan.build config) plan.Skips := by
  induction plan with
  | skip => exact .pure trivial
  | refuse error => exact .throw error
  | anyRune => exact .anyRune
  | runes name set => exact .runes config named
  | chain first second ihFirst ihSecond =>
    exact (ihSecond named.2 grounded.2).chain (second.build_keeps config named.2) (ihFirst named.1 grounded.1)
  | optional body ih => exact (ih named grounded).optional
  | loop body ih => exact (ih named grounded.2).loop grounded.1
  | loopAtLeastOnce body ih => exact (ih named grounded.2).loopAtLeastOnce grounded.1
  | copies least skippable body ih =>
    exact (ih named grounded.2).copies (body.build_keeps config named) least skippable grounded.1
  | either first second ihFirst ihSecond =>
    exact (ihFirst named.1 grounded.1).either (first.build_keeps config named.1) (ihSecond named.2 grounded.2)

theorem compile_leads (config : Config) {root : Root} (named : (rootPlan config root).Named names)
    (loops : LoopsNullable (rootPieces root)) (quoted : Bool) :
    Leads names (compile config root quoted) True := by
  have body := Plan.build_leads config _ named (rootPlan_grounded config root loops)
  have single (byte : UInt8) (next : Target) : Keeps names (pushSingle byte next) :=
    (Keeps.onArena _).bind fun _ => .pure _
  by_cases excess : config.maxExpansion < rootExpansion root
  · have refused : compile config root quoted = fun _ => MonadExcept.throw
        (.expansionTooLarge (rootExpansion root) config.maxExpansion) :=
      funext fun next => compile_of_excess excess quoted next
    exact refused ▸ .throw _
  · have built : compile config root quoted = fun next => _ :=
      funext fun next => compile_of_within excess quoted next
    have terminator : Leads names (pushSingle valueTerminator) True := .single _
    have closing : Leads names (pushSingle 0x22) True := .single _
    rw [built]
    cases quoted with
    | false => exact (terminator.chain (single _) body).mono fun _ => trivial
    | true =>
      have quotedBody := closing.chain (single _) (body.chain (Plan.build_keeps config _ named) closing)
      exact (terminator.chain (single _) quotedBody).mono fun _ => trivial

/-- Whatever compilations have filled the cache, a regexp whose loops leave out nothing but what counts as
nullable is compiled without a state that lists itself among its epsilons. -/
theorem compile_hasSelfEpsilon_ne {arena : Arena} {cache : TemplateCache} {root : Root} {next : StateId}
    {entry : Target} {after : Workshop} (loops : LoopsNullable (rootPieces root))
    (shared : cache.SharedBy fun _ _ => True) (config : Config) (quoted : Bool) (formed : arena.WellFormed)
    (free : ∀ id, arena.hasSelfEpsilon id ≠ .ok true) (inside : next < arena.size)
    (ran : (compile config root quoted (some next)).runIn { arena, cache } = .ok (.ok entry, after)) :
    ∀ id, after.arena.hasSelfEpsilon id ≠ .ok true := by
  have named : (rootPlan config root).Named (RuneSet.KnownAs fun _ _ => True) :=
    rootPlan_named config (fun _ => Or.inl rfl) root fun _ _ => Or.inr trivial
  obtain ⟨_, _, segment⟩ := compile_leads config named loops quoted { arena, cache } after next entry formed
    shared.holds inside ran
  rw [← movesOn_zero_iff] at free ⊢
  exact free.append segment.extends_ segment.movesOn

theorem hasSelfEpsilon_matchState_ne (x : Continuation) (id : StateId) :
    (matchState x).hasSelfEpsilon id ≠ .ok true := by
  refine (movesOn_zero_iff (matchState x)).mp (fun id state _ found => ?_) id
  obtain rfl : id = 0 := Nat.lt_one_iff.mp (lt_size_of_get? found)
  obtain rfl := Option.some.inj found
  exact List.not_mem_nil

/-- A loop around what was read from a text, with a part in it that is left out. -/
theorem compile_hasSelfEpsilon_ne_nested :
    let root : Root := [[.mk (.group [[.mk (.runes [.single 'a']) 0 (some 0), .mk .dot 0 none,
      .mk (.runes [.single 'b']) 1 (some 1)]]) 0 none]]
    ofText "(a\x7b0\x7d.*b)*" = .ok root ∧ ∃ entry after,
      (compile {} root true (some 0)).runIn { arena := matchState 7 } = .ok (.ok entry, after) ∧
        ∀ id, after.arena.hasSelfEpsilon id ≠ .ok true := by
  intro root
  have parsed : ofText "(a\x7b0\x7d.*b)*" = .ok root := rfl
  obtain ⟨entry, after, ran⟩ : ∃ entry after,
      (compile {} root true (some 0)).runIn { arena := matchState 7 } = .ok (.ok entry, after) :=
    exists_of_isSome (by decide +kernel)
  exact ⟨parsed, entry, after, ran, compile_hasSelfEpsilon_ne (loopsNullable_of_text parsed) .empty {} true
    (wellFormed_matchState 7) (hasSelfEpsilon_matchState_ne 7) (by decide) ran⟩

/-- Of a piece that has to stand at least once and at most zero times nothing is built, but it does not count as
nullable. A loop around it is not refused, and its state forwards to itself. -/
theorem compile_hasSelfEpsilon_omitted :
    let root : Root := [[.mk (.group [[.mk (.runes [.single 'a']) 1 (some 0)]]) 0 none]]
    (matchState 7).WellFormed ∧ (∀ id, (matchState 7).hasSelfEpsilon id ≠ .ok true) ∧ ∃ entry after,
      (compile {} root false (some 0)).runIn { arena := matchState 7 } = .ok (.ok (some entry), after) ∧
        after.arena.hasSelfEpsilon entry = .ok true :=
  ⟨wellFormed_matchState 7, hasSelfEpsilon_matchState_ne 7, 2, ⟨_, _⟩, rfl, rfl⟩

end Regexp

end ByteAutomata
