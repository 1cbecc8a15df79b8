import ByteAutomata.Proofs.SharedTemplates

/-!
How compilations end.

A compilation is refused for the first refusal that it meets in its plan, and makes a state if there is none. It
never faults: what a cache holds can be copied, whatever compilations have filled it, and so can what is captured
on the way.
-/

namespace ByteAutomata

open Arena

variable {names : String → RuneSet → Prop}

/-- The arena is well-formed and the cache holds templates of sets with their names. -/
structure Workshop.Ready (names : String → RuneSet → Prop) (workshop : Workshop) : Prop where
  formed : workshop.arena.WellFormed
  holds : workshop.cache.Holds names

namespace Compile

variable {α β : Type} {workshop : Workshop} {kept fewer : Nat} {refusal later : Option PatternError}

/-- The refusal if there is one, and otherwise a result of this kind. -/
inductive Concludes (kind : α → Prop) : Option PatternError → Except PatternError α → Prop
  | refused (error : PatternError) : Concludes kind (some error) (.error error)
  | made {result : α} : kind result → Concludes kind none (.ok result)

/-- The compilation ends with the refusal or, if there is none, with a result of this kind. The first `kept` states
stay as they are. -/
def Ends (names : String → RuneSet → Prop) (kept : Nat) (refusal : Option PatternError) (kind : Arena → α → Prop)
    (compile : Compile α) (workshop : Workshop) : Prop :=
  ∃ outcome after, compile.runIn workshop = .ok (outcome, after) ∧ after.Ready names ∧
    Extends kept workshop.arena after.arena ∧ Concludes (kind after.arena) refusal outcome

namespace Ends

variable {kind : Arena → α → Prop} {compile : Compile α}

theorem mono (ends : Ends names kept refusal kind compile workshop) (order : fewer ≤ kept) :
    Ends names fewer refusal kind compile workshop := by
  obtain ⟨outcome, after, ran, ready, extends_, concludes⟩ := ends
  exact ⟨outcome, after, ran, ready, extends_.mono order, concludes⟩

theorem pure (ready : workshop.Ready names) {result : α} (related : kind workshop.arena result) :
    Ends names kept none kind (Pure.pure result) workshop :=
  ⟨_, workshop, rfl, ready, .refl _ ready.formed, .made related⟩

theorem throw (ready : workshop.Ready names) (error : PatternError) :
    Ends names kept (some error) kind (MonadExcept.throw error) workshop :=
  ⟨_, workshop, rfl, ready, .refl _ ready.formed, .refused error⟩

/-- The refusals of the first step come before those of the second one. -/
theorem bind {further : α → Compile β} {kindNext : Arena → β → Prop}
    (first : Ends names kept refusal kind compile workshop)
    (second : ∀ after result, after.Ready names → Extends kept workshop.arena after.arena →
      kind after.arena result → Ends names kept later kindNext (further result) after) :
    Ends names kept (refusal.or later) kindNext (compile >>= further) workshop := by
  obtain ⟨outcome, middle, ran, ready, extends_, concludes⟩ := first
  cases concludes with
  | refused error => exact ⟨_, middle, runIn_bind_of_error ran, ready, extends_, .refused error⟩
  | made related =>
    obtain ⟨outcome, after, went, readyAfter, further, concludes⟩ := second middle _ ready extends_ related
    exact ⟨outcome, after, (runIn_bind_of_ok ran).trans went, readyAfter, extends_.trans further, concludes⟩

/-- What follows is not refused. -/
theorem bind_none {further : α → Compile β} {kindNext : Arena → β → Prop}
    (first : Ends names kept refusal kind compile workshop)
    (second : ∀ after result, after.Ready names → Extends kept workshop.arena after.arena →
      kind after.arena result → Ends names kept none kindNext (further result) after) :
    Ends names kept refusal kindNext (compile >>= further) workshop := by
  have ends := first.bind second
  rwa [Option.or_none] at ends

theorem onArena (ready : workshop.Ready names) {change : Arena → Arena × α}
    (extends_ : Extends kept workshop.arena (change workshop.arena).1)
    (related : kind (change workshop.arena).1 (change workshop.arena).2) :
    Ends names kept none kind (Compile.onArena change) workshop :=
  ⟨_, _, runIn_onArena change workshop, ⟨extends_.formed, ready.holds⟩, extends_, .made related⟩

theorem onArenaChecked (ready : workshop.Ready names) {change : Arena → Checked (Arena × α)} {built : Arena}
    {result : α} (changed : change workshop.arena = .ok (built, result))
    (extends_ : Extends kept workshop.arena built) (related : kind built result) :
    Ends names kept none kind (Compile.onArenaChecked change) workshop :=
  ⟨_, _, runIn_onArenaChecked changed, ⟨extends_.formed, ready.holds⟩, extends_, .made related⟩

end Ends

/-- In front of every state the compiler ends with the refusal or, if there is none, with a state. -/
def BuildEnds (names : String → RuneSet → Prop) (refusal : Option PatternError) (build : Target → Compile Target) :
    Prop :=
  ∀ (workshop : Workshop) (next : StateId), workshop.Ready names → next < workshop.arena.size →
    Ends names workshop.arena.size refusal Arena.EpsilonWithin (build (some next)) workshop

/-! ## Fragments -/

theorem Ends.fragment (ready : workshop.Ready names) {change : Arena → Arena × StateId}
    (grows : workshop.arena.Grows (change workshop.arena)) :
    Ends names workshop.arena.size none Arena.EpsilonWithin (do return some (← Compile.onArena change)) workshop := by
  have pushed : Ends names workshop.arena.size none (fun arena id => id < arena.size) (Compile.onArena change)
      workshop := .onArena ready grows.extends_ grows.entry
  exact pushed.bind_none fun after id ready _ below => .pure ready ⟨id, rfl, below⟩

/-- The new state forwards to states that are there already. -/
theorem Ends.splice (ready : workshop.Ready names) {targets : List Target}
    (inside : ∀ target ∈ targets, workshop.arena.EpsilonWithin target) :
    Ends names workshop.arena.size none (fun arena id => id = workshop.arena.size ∧ id < arena.size)
      (Regexp.splice targets) workshop := by
  have pushed : workshop.arena.Grows (workshop.arena.pushSplice targets) :=
    ready.formed.grows_pushSplice fun target listed => by
      obtain ⟨id, same, below⟩ := inside target listed
      exact ⟨id, below, same⟩
  exact .onArena ready pushed.extends_ ⟨rfl, pushed.entry⟩

theorem Ends.runes (ready : workshop.Ready names) (config : Config) {name : Option String} {set : RuneSet}
    (named : names (name.getD set.simplify.canonicalName) set) {next : StateId} (inside : next < workshop.arena.size) :
    Ends names workshop.arena.size (set.firstSwapped?.map .invalidRuneRange) Arena.EpsilonWithin
      (Compile.runes config name set (some next)) workshop := by
  cases swapped : set.firstSwapped? with
  | some interval =>
    rw [runes_of_swapped swapped]
    exact .throw ready _
  | none =>
    obtain ⟨entry, after, source, ran, _, reads⟩ := exists_runIn_runes ready.holds config named
      (RuneSet.firstSwapped?_eq_none_iff.mp swapped) ready.formed inside
    have holds := Keeps.runes config named (some next) workshop _ after ready.holds ran
    have grows := reads.grows
    exact ⟨_, after, ran, ⟨grows.extends_.formed, holds⟩, grows.extends_, .made ⟨entry, rfl, grows.entry⟩⟩

/-! ## Loops -/

/-- A state made since is wired to forward to other states. -/
theorem Ends.setEpsilons (ready : workshop.Ready names) {node : StateId} (new : kept ≤ node) {targets : List Target}
    (inside : ∀ target ∈ targets, workshop.arena.EpsilonWithin target) :
    Ends names kept none (fun _ _ => True)
      (Compile.onArena fun arena => (arena.setEpsilons node targets, ())) workshop := by
  have wired : Extends kept workshop.arena (workshop.arena.setEpsilons node targets) := by
    refine ready.formed.extends_modify new _ fun state found => (ready.formed.fits found).setEpsilons ?_
    intro target listed
    obtain ⟨id, same, below⟩ := inside target listed
    exact ⟨id, below, same⟩
  exact .onArena ready wired trivial

variable {build : Target → Compile Target}

/-- A body is built in front of a state that waits for it, which is then wired to forward to two states. -/
theorem BuildEnds.waiting (body : BuildEnds names refusal build) (ready : workshop.Ready names) {next : StateId}
    (inside : next < workshop.arena.size) (targets : Target → List Target) (entrance : StateId → Target → Target)
    (either : ∀ entry, ∀ target ∈ targets entry, target = entry ∨ target = some next)
    (enters : ∀ waiting entry, entrance waiting entry = some waiting ∨ entrance waiting entry = entry) :
    Ends names workshop.arena.size refusal Arena.EpsilonWithin (do
      let waiting ← Regexp.splice [some next]
      let entry ← build (some waiting)
      Compile.onArena fun arena => (arena.setEpsilons waiting (targets entry), ())
      return entrance waiting entry) workshop := by
  have forwards : ∀ target ∈ [some next], workshop.arena.EpsilonWithin target :=
    fun target listed => ⟨next, List.mem_singleton.mp listed, inside⟩
  refine (Ends.splice ready forwards).bind fun middle waiting ready extends_ new => ?_
  obtain ⟨rfl, here⟩ := new
  refine ((body middle _ ready here).mono extends_.size).bind_none fun last entry ready further there => ?_
  obtain ⟨id, rfl, below⟩ := there
  have onward : next < last.arena.size := further.lt (extends_.lt inside)
  have wired : ∀ target ∈ targets (some id), last.arena.EpsilonWithin target := by
    intro target listed
    rcases either (some id) target listed with rfl | rfl
    · exact ⟨id, rfl, below⟩
    · exact ⟨next, rfl, onward⟩
  refine (Ends.setEpsilons ready (Nat.le_refl _) wired).bind fun after _ ready wired _ => .pure ready ?_
  rcases enters workshop.arena.size (some id) with same | same
  · exact ⟨_, same, wired.lt (further.lt here)⟩
  · exact ⟨id, same, wired.lt below⟩

theorem BuildEnds.loop (body : BuildEnds names refusal build) : BuildEnds names refusal (Regexp.loop · build) :=
  fun _ next ready inside => body.waiting ready inside (fun entry => [entry, some next]) (fun waiting _ => some waiting)
    (by simp) fun _ _ => Or.inl rfl

theorem BuildEnds.loopAtLeastOnce (body : BuildEnds names refusal build) :
    BuildEnds names refusal (Regexp.loopAtLeastOnce · build) :=
  fun _ next ready inside => body.waiting ready inside (fun entry => [some next, entry]) (fun _ entry => entry)
    (by simp [or_comm]) fun _ _ => Or.inr rfl

/-! ## Copies -/

/-- What is captured of what a body builds can be copied. -/
theorem BuildEnds.template (body : BuildEnds names refusal build) (ready : workshop.Ready names) :
    Ends names kept refusal (fun _ template => template.Grafts) (Compile.template build) workshop := by
  obtain ⟨outcome, after, ran, readyAfter, extends_, concludes⟩ :=
    body (bench workshop.cache) 0 ⟨wellFormed_openExit, ready.holds⟩ Nat.zero_lt_one
  have left : Workshop.Ready names { workshop with cache := after.cache } := ⟨ready.formed, readyAfter.holds⟩
  cases concludes with
  | refused error =>
    exact ⟨_, _, runIn_template_of_error ran, left, .refl _ ready.formed, .refused error⟩
  | made entered =>
    obtain ⟨id, rfl, below⟩ := entered
    obtain ⟨template, captured, grafts⟩ := capture_grafts extends_ below
    exact ⟨_, _, runIn_template_of_ok after ran captured, left, .refl _ ready.formed, .made grafts⟩

variable {template : Template}

theorem BuildEnds.graft (grafts : template.Grafts) : BuildEnds names none (Compile.graft template) := by
  intro workshop next ready inside
  obtain ⟨built, entry, grafted, extends_, below⟩ := grafts workshop.arena next ready.formed inside
  exact .onArenaChecked ready grafted extends_ ⟨entry, rfl, below⟩

theorem BuildEnds.graftTimes (grafts : template.Grafts) (count : Nat) :
    BuildEnds names none (Regexp.graftTimes template count) := by
  induction count with
  | zero => exact fun workshop next ready inside => .pure ready ⟨next, rfl, inside⟩
  | succ count ih =>
    intro workshop next ready inside
    refine (BuildEnds.graft grafts workshop next ready inside).bind fun middle entry ready extends_ there => ?_
    obtain ⟨id, rfl, below⟩ := there
    exact (ih middle id ready below).mono extends_.size

theorem Ends.graftOptional (grafts : template.Grafts) (count : Nat) {next current : StateId}
    (ready : workshop.Ready names) (inside : next < workshop.arena.size) (below : current < workshop.arena.size) :
    Ends names workshop.arena.size none Arena.EpsilonWithin
      (Regexp.graftOptional template (some next) count (some current)) workshop := by
  induction count generalizing workshop current with
  | zero => exact .pure ready ⟨current, rfl, below⟩
  | succ count ih =>
    refine (BuildEnds.graft grafts workshop current ready below).bind fun middle entry ready extends_ there => ?_
    obtain ⟨id, rfl, here⟩ := there
    have both : ∀ target ∈ [some id, some next], middle.arena.EpsilonWithin target := by
      simpa [Arena.EpsilonWithin] using ⟨here, extends_.lt inside⟩
    refine ((Ends.splice ready both).mono extends_.size).bind fun last skip ready further new => ?_
    exact (ih ready (further.lt (extends_.lt inside)) new.2).mono (extends_.size.trans further.size)

end Compile

namespace Regexp

open Compile

/-! ## Plans -/

/-- The first refusal that stands in the way of the plan. What comes last in a chain is built first. -/
def Plan.refusal : Plan → Option PatternError
  | skip => none
  | refuse error => some error
  | anyRune => none
  | runes _ set => set.firstSwapped?.map .invalidRuneRange
  | chain first second => second.refusal.or first.refusal
  | optional body => body.refusal
  | loop body => body.refusal
  | loopAtLeastOnce body => body.refusal
  | copies _ _ body => body.refusal
  | either first second => first.refusal.or second.refusal

theorem buildSkippable_ends {template : Template} (grafts : template.Grafts) (skippable : Option Nat) :
    BuildEnds names none fun next => Plan.buildSkippable template next skippable := by
  cases skippable with
  | none => exact (BuildEnds.graft grafts).loop
  | some count => exact fun _ _ ready inside => .graftOptional grafts count ready inside inside

theorem Plan.build_ends (config : Config) (plan : Plan) (named : plan.Named names) :
    BuildEnds names plan.refusal (plan.build config) := by
  induction plan with
  | skip => exact fun workshop next ready inside => .pure ready ⟨next, rfl, inside⟩
  | refuse error => exact fun workshop next ready _ => .throw ready error
  | anyRune =>
    exact fun workshop next ready inside => .fragment ready (pushAnyRune_reads ready.formed inside).grows
  | runes name set => exact fun workshop next ready inside => .runes ready config named inside
  | chain first second ihFirst ihSecond =>
    intro workshop next ready inside
    refine (ihSecond named.2 workshop next ready inside).bind fun middle entry ready extends_ there => ?_
    obtain ⟨id, rfl, below⟩ := there
    exact (ihFirst named.1 middle id ready below).mono extends_.size
  | optional body ih =>
    intro workshop next ready inside
    refine (ih named workshop next ready inside).bind_none fun middle entry ready extends_ there => ?_
    obtain ⟨id, rfl, below⟩ := there
    have both : ∀ target ∈ [some id, some next], middle.arena.EpsilonWithin target := by
      simpa [Arena.EpsilonWithin] using ⟨below, extends_.lt inside⟩
    refine ((Ends.splice ready both).mono extends_.size).bind fun last skip ready _ new => ?_
    exact .pure ready ⟨skip, rfl, new.2⟩
  | loop body ih => exact (ih named).loop
  | loopAtLeastOnce body ih => exact (ih named).loopAtLeastOnce
  | copies least skippable body ih =>
    intro workshop next ready inside
    refine (BuildEnds.template (ih named) ready).bind_none fun middle template ready extends_ grafts => ?_
    refine ((buildSkippable_ends grafts skippable middle next ready (extends_.lt inside)).mono extends_.size).bind
      fun last rest ready further there => ?_
    obtain ⟨id, rfl, below⟩ := there
    exact (BuildEnds.graftTimes grafts least last id ready below).mono (extends_.size.trans further.size)
  | either first second ihFirst ihSecond =>
    intro workshop next ready inside
    refine (ihFirst named.1 workshop next ready inside).bind fun middle left ready extends_ there => ?_
    obtain ⟨a, rfl, belowA⟩ := there
    refine ((ihSecond named.2 middle next ready (extends_.lt inside)).mono extends_.size).bind_none
      fun last right ready further there => ?_
    obtain ⟨b, rfl, belowB⟩ := there
    have withinA : last.arena.TargetWithin (some a) := targetWithin_some (further.lt belowA)
    have withinB : last.arena.TargetWithin (some b) := targetWithin_some belowB
    obtain ⟨joined, start, pairs, united, unites, resolves⟩ := union_eq ready.formed withinA withinB
    obtain ⟨entry, rfl, below, _⟩ := unites.exists_start withinA withinB resolves
    exact .onArenaChecked ready united (unites.extends_.mono (extends_.size.trans further.size)) ⟨entry, rfl, below⟩

/-! ## Whole regexps -/

theorem pushSingle_ends (byte : UInt8) : BuildEnds names none (pushSingle byte) := by
  intro workshop next ready inside
  have fits : State.Fits (workshop.arena.size + 1) { table := .single byte (some next) } :=
    .of_single byte fun id same => Option.some.inj same ▸ Nat.lt_succ_of_lt inside
  exact .fragment ready (ready.formed.grows_pushTable fits)

/-- A regexp that is not too large is refused for the first refusal in its plan. -/
theorem compile_ends (config : Config) {root : Root} (named : (rootPlan config root).Named names) (quoted : Bool)
    (within : ¬ config.maxExpansion < rootExpansion root) :
    BuildEnds names (rootPlan config root).refusal (compile config root quoted) := by
  have plan := Plan.build_ends config _ named
  intro workshop next ready inside
  rw [compile_of_within within]
  refine (pushSingle_ends valueTerminator workshop next ready inside).bind
    fun middle terminator ready extends_ there => ?_
  obtain ⟨id, rfl, below⟩ := there
  cases quoted with
  | false => exact (plan middle id ready below).mono extends_.size
  | true =>
    refine ((pushSingle_ends 0x22 middle id ready below).mono extends_.size).bind
      fun later closing ready further there => ?_
    obtain ⟨quote, rfl, under⟩ := there
    have grown := extends_.size.trans further.size
    refine ((plan later quote ready under).mono grown).bind_none fun last body ready built there => ?_
    obtain ⟨entry, rfl, inner⟩ := there
    exact (pushSingle_ends 0x22 last entry ready inner).mono (grown.trans built.size)

end Regexp

end ByteAutomata
