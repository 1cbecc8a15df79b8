import ByteAutomata.Compile
import ByteAutomata.Proofs.Checked

/-!
How compilations run.

A compilation takes a workshop to an outcome and a workshop, unless it faults. Steps that follow one
another are peeled apart here once, so that proofs about compilers speak of single steps only.
-/

namespace ByteAutomata.Compile

variable {α β : Type}

/-- The outcome of a compilation and the workshop that it leaves. -/
def runIn (compile : Compile α) (workshop : Workshop) : Checked (Except PatternError α × Workshop) :=
  compile.run.run workshop

variable {compile : Compile α} {further : α → Compile β} {workshop after : Workshop}

/-- A step that succeeds hands its result to the next one. -/
theorem runIn_bind_of_ok {result : α} (ran : compile.runIn workshop = .ok (.ok result, after)) :
    (compile >>= further).runIn workshop = (further result).runIn after := by
  unfold runIn at ran ⊢
  rw [ExceptT.run_bind, StateT.run_bind, ran]
  rfl

/-- A refusal ends the compilation. -/
theorem runIn_bind_of_error {error : PatternError}
    (ran : compile.runIn workshop = .ok (.error error, after)) :
    (compile >>= further).runIn workshop = .ok (.error error, after) := by
  unfold runIn at ran ⊢
  rw [ExceptT.run_bind, StateT.run_bind, ran]
  rfl

/-- A compilation in two steps either is refused in the first one or goes on to the second. -/
theorem runIn_bind_eq_ok {outcome : Except PatternError β}
    (ran : (compile >>= further).runIn workshop = .ok (outcome, after)) :
    (∃ error, compile.runIn workshop = .ok (.error error, after) ∧ outcome = .error error) ∨
      ∃ result middle, compile.runIn workshop = .ok (.ok result, middle) ∧
        (further result).runIn middle = .ok (outcome, after) := by
  cases first : compile.runIn workshop with
  | error fault =>
    unfold runIn at ran first
    rw [ExceptT.run_bind, StateT.run_bind, first] at ran
    cases ran
  | ok between =>
    obtain ⟨stepped, middle⟩ := between
    cases stepped with
    | error error =>
      rw [runIn_bind_of_error first] at ran
      cases ran
      exact Or.inl ⟨error, rfl, rfl⟩
    | ok result =>
      rw [runIn_bind_of_ok first] at ran
      exact Or.inr ⟨result, middle, rfl, ran⟩

/-- A compilation in two steps that succeeds does so in both of them. -/
theorem exists_of_runIn_bind {result : β}
    (ran : (compile >>= further).runIn workshop = .ok (.ok result, after)) :
    ∃ between middle, compile.runIn workshop = .ok (.ok between, middle) ∧
      (further between).runIn middle = .ok (.ok result, after) := by
  rcases runIn_bind_eq_ok ran with ⟨_, _, refused⟩ | went
  · cases refused
  · exact went

/-- A check in front of a compilation that succeeds has succeeded. -/
theorem exists_of_runIn_checked {checked : Except PatternError α} {result : β}
    (ran : Compile.runIn (do further (← checked)) workshop = .ok (.ok result, after)) :
    ∃ made, checked = .ok made ∧ (further made).runIn workshop = .ok (.ok result, after) := by
  cases checked with
  | error error => cases ran
  | ok made => exact ⟨made, rfl, ran⟩

theorem runIn_onArena (change : Arena → Arena × α) (workshop : Workshop) :
    (onArena change).runIn workshop =
      .ok (.ok (change workshop.arena).2, { workshop with arena := (change workshop.arena).1 }) := rfl

theorem runIn_onArenaChecked_eq (change : Arena → Checked (Arena × α)) (workshop : Workshop) :
    (onArenaChecked change).runIn workshop =
      (fun changed => (.ok changed.2, { workshop with arena := changed.1 })) <$>
        change workshop.arena := by
  change (do
    let result ← (do
      let changed ← change workshop.arena
      return (changed.2, { workshop with arena := changed.1 }) : Checked (α × Workshop))
    return (Except.ok result.1, result.2) : Checked _) = _
  cases change workshop.arena <;> rfl

theorem runIn_onArenaChecked {change : Arena → Checked (Arena × α)} {arena : Arena} {result : α}
    (changed : change workshop.arena = .ok (arena, result)) :
    (onArenaChecked change).runIn workshop = .ok (.ok result, { workshop with arena }) := by
  rw [runIn_onArenaChecked_eq, changed]
  rfl

theorem exists_of_runIn_onArenaChecked {change : Arena → Checked (Arena × α)}
    {outcome : Except PatternError α}
    (ran : (onArenaChecked change).runIn workshop = .ok (outcome, after)) :
    ∃ arena result, change workshop.arena = .ok (arena, result) ∧ outcome = .ok result ∧
      after = { workshop with arena } := by
  rw [runIn_onArenaChecked_eq] at ran
  cases changed : change workshop.arena with
  | error fault =>
    rw [changed] at ran
    cases ran
  | ok made =>
    rw [changed] at ran
    cases ran
    exact ⟨made.1, made.2, rfl, rfl, rfl⟩

/-- Only the cache of a compilation in an arena of its own comes back. -/
theorem runIn_inScratch {outcome : Except PatternError α}
    (ran : compile.runIn { cache := workshop.cache } = .ok (outcome, after)) :
    (inScratch compile).runIn workshop = .ok (outcome, { workshop with cache := after.cache }) := by
  change (do
    let ended ← compile.runIn { cache := workshop.cache }
    return (ended.1, { workshop with cache := ended.2.cache }) : Checked _) = _
  rw [ran]
  rfl

theorem exists_of_runIn_inScratch {outcome : Except PatternError α}
    (ran : (inScratch compile).runIn workshop = .ok (outcome, after)) :
    ∃ scratch, compile.runIn { cache := workshop.cache } = .ok (outcome, scratch) ∧
      after = { workshop with cache := scratch.cache } := by
  obtain ⟨⟨result, scratch⟩, inner, ended⟩ := Checked.exists_of_bind_eq_ok ran
  cases ended
  exact ⟨scratch, inner, rfl⟩

/-- Makes a template and keeps it. -/
def kept (key : String) (make : Compile Template) : Compile Template := do
  let template ← make
  modify fun workshop => { workshop with cache := workshop.cache.insert key template }
  return template

theorem runIn_cached (key : String) (make : Compile Template) (workshop : Workshop) :
    (cached key make).runIn workshop =
      match workshop.cache.find? key with
      | some template => .ok (.ok template, workshop)
      | none => (kept key make).runIn workshop := by
  change (match workshop.cache.find? key with
    | some template => (pure template : Compile Template)
    | none => kept key make).runIn workshop = _
  cases workshop.cache.find? key <;> rfl

theorem runIn_kept_of_ok {key : String} {make : Compile Template} {template : Template}
    (made : make.runIn workshop = .ok (.ok template, after)) :
    (kept key make).runIn workshop =
      .ok (.ok template, { after with cache := after.cache.insert key template }) :=
  runIn_bind_of_ok made

end ByteAutomata.Compile
