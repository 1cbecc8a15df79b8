import ByteAutomata.Fault
import Mathlib

/-!
Computations that do not fault.

A list of computations each of which succeeds succeeds as a whole, and the results stand in the
order of the list.
-/

namespace ByteAutomata.Checked

variable {α β : Type}

/-- What succeeds succeeds step by step. -/
theorem exists_of_bind_eq_ok {ε : Type} {first : Except ε α} {further : α → Except ε β} {result : β}
    (succeeds : (first >>= further) = .ok result) :
    ∃ between, first = .ok between ∧ further between = .ok result := by
  cases first with
  | error _ => cases succeeds
  | ok between => exact ⟨between, rfl, succeeds⟩

theorem mapM_eq_ok {compute : α → Checked β} (relation : α → β → Prop) {items : List α}
    (each : ∀ item ∈ items, ∃ result, compute item = .ok result ∧ relation item result) :
    ∃ results, items.mapM compute = .ok results ∧ List.Forall₂ relation items results := by
  induction items with
  | nil => exact ⟨[], rfl, .nil⟩
  | cons item rest ih =>
    obtain ⟨result, computed, related⟩ := each item List.mem_cons_self
    obtain ⟨results, computedRest, relatedRest⟩ :=
      ih fun other member => each other (List.mem_cons_of_mem _ member)
    refine ⟨result :: results, ?_, .cons related relatedRest⟩
    rw [List.mapM_cons, computed, computedRest]
    rfl

/-- What was computed for a list was computed for its items. -/
theorem exists_item_of_mapM {compute : α → Checked β} {items : List α} {results : List β}
    (computed : items.mapM compute = .ok results) {result : β} (member : result ∈ results) :
    ∃ item ∈ items, compute item = .ok result := by
  induction items generalizing results with
  | nil =>
    cases computed
    cases member
  | cons item rest ih =>
    rw [List.mapM_cons] at computed
    obtain ⟨first, here, computed⟩ := exists_of_bind_eq_ok computed
    obtain ⟨others, there, same⟩ := exists_of_bind_eq_ok computed
    cases same
    rcases List.mem_cons.mp member with rfl | later
    · exact ⟨item, List.mem_cons_self, here⟩
    · obtain ⟨other, listed, found⟩ := ih there later
      exact ⟨other, List.mem_cons_of_mem _ listed, found⟩

/-- Every result belongs to an item of the list. -/
theorem exists_item_of_mem {relation : α → β → Prop} {items : List α} {results : List β}
    (related : List.Forall₂ relation items results) {result : β} (member : result ∈ results) :
    ∃ item ∈ items, relation item result := by
  induction related with
  | nil => cases member
  | cons first _ ih =>
    rcases List.mem_cons.mp member with here | later
    · exact ⟨_, List.mem_cons_self, here ▸ first⟩
    · obtain ⟨item, listed, holds⟩ := ih later
      exact ⟨item, List.mem_cons_of_mem _ listed, holds⟩

/-- Every item of the list has a result. -/
theorem exists_result_of_mem {relation : α → β → Prop} {items : List α} {results : List β}
    (related : List.Forall₂ relation items results) {item : α} (member : item ∈ items) :
    ∃ result ∈ results, relation item result := by
  obtain ⟨result, listed, holds⟩ := exists_item_of_mem related.flip member
  exact ⟨result, listed, holds⟩

/-- Results stand where their items stand. -/
theorem getElem?_of_related {relation : α → β → Prop} {items : List α} {results : List β}
    (related : List.Forall₂ relation items results) {place : Nat} {item : α}
    (listed : items[place]? = some item) :
    ∃ result, results[place]? = some result ∧ relation item result := by
  induction related generalizing place with
  | nil => simp at listed
  | cons first _ ih =>
    cases place with
    | zero =>
      rw [List.getElem?_cons_zero, Option.some.injEq] at listed
      exact ⟨_, List.getElem?_cons_zero, listed ▸ first⟩
    | succ place => exact ih listed

/-- Two lists of results one after the other. -/
theorem related_trans {γ : Type} {first : α → β → Prop} {second : β → γ → Prop} {both : α → γ → Prop}
    (compose : ∀ a b c, first a b → second b c → both a c) {items : List α} {results : List β}
    {finals : List γ} (related : List.Forall₂ first items results)
    (further : List.Forall₂ second results finals) : List.Forall₂ both items finals := by
  induction related generalizing finals with
  | nil =>
    cases further
    exact .nil
  | cons here _ ih =>
    cases further with
    | cons next rest => exact .cons (compose _ _ _ here next) (ih rest)

/-- A test of all items that faults on none passes if it passes on each. -/
theorem allM_eq_ok {test : α → Checked Bool} {passes : α → Prop} {items : List α}
    (each : ∀ item ∈ items, ∃ answer, test item = .ok answer ∧ (answer = true ↔ passes item)) :
    ∃ answer, items.allM test = .ok answer ∧ (answer = true ↔ ∀ item ∈ items, passes item) := by
  induction items with
  | nil => exact ⟨true, rfl, by simp⟩
  | cons item rest ih =>
    obtain ⟨answer, tested, means⟩ := each item List.mem_cons_self
    cases answer with
    | false =>
      refine ⟨false, ?_, by simpa using fun passed => absurd (means.mpr passed) Bool.false_ne_true⟩
      simp only [List.allM, tested, bind, Except.bind, pure, Except.pure]
    | true =>
      obtain ⟨answer, testedRest, meansRest⟩ := ih fun other member => each other (List.mem_cons_of_mem _ member)
      refine ⟨answer, ?_, by rw [meansRest, List.forall_mem_cons]; exact (and_iff_right (means.mp rfl)).symm⟩
      simp only [List.allM, tested, bind, Except.bind, testedRest]

theorem mapM_toArray {compute : α → Checked β} {items : Array α} {results : List β}
    (computed : items.toList.mapM compute = .ok results) : items.mapM compute = .ok ⟨results⟩ := by
  rw [← Array.toList_mapM] at computed
  cases whole : items.mapM compute with
  | error fault =>
    rw [whole] at computed
    cases computed
  | ok array =>
    rw [whole] at computed
    exact congrArg (fun list => Except.ok (Array.mk list)) (Except.ok.inj computed)

end ByteAutomata.Checked
