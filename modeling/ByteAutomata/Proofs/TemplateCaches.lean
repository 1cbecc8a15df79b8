import ByteAutomata.Proofs.PackedFragments
import ByteAutomata.Proofs.SetNames

/-!
What a cache of templates may hold.

A template is kept under a name that stands for a set of runes, and it is the one that is made for such a
set. Where a name stands for one set only, it does not matter whether the template is kept already.
-/

namespace ByteAutomata

open Arena

namespace Template

/-- Captures the fragment for one rune of the set. -/
def ofRunes (set : RuneSet) : Checked Template :=
  capture (openExit.pushRuneTrie set (some 0)).1 (some (openExit.pushRuneTrie set (some 0)).2) (some 0)

theorem ofRunes_eq (set : RuneSet) :
    ∃ template, ofRunes set = .ok template ∧ template.Reads (runeWords set.Contains) :=
  capture_reads ((pushRuneTrie_reads wellFormed_openExit set Nat.zero_lt_one).fragment Nat.zero_lt_one)

/-- The template can be copied, and copies keep an arena packed. -/
structure Ready (template : Template) : Prop where
  grafts : template.Grafts
  packed : template.Packed

theorem packed_openExit : openExit.Packed := packed_empty.pushSplice _

theorem ready_of_ofRunes {set : RuneSet} {template : Template} (computed : ofRunes set = .ok template) :
    template.Ready := by
  obtain ⟨made, computedAgain, reads⟩ := ofRunes_eq set
  rw [computed, Except.ok.injEq] at computedAgain
  exact ⟨computedAgain ▸ reads.grafts, (packed_openExit.pushRuneTrie set _).capture computed⟩

end Template

namespace TemplateCache

variable {names : String → RuneSet → Prop} {cache other : TemplateCache} {key : String} {set : RuneSet}
  {made template : Template}

@[simp] theorem find?_empty (key : String) : ({} : TemplateCache).find? key = none := by
  simp [find?]

theorem find?_insert (cache : TemplateCache) (key other : String) (template : Template) :
    (cache.insert key template).find? other =
      if key = other then some template else cache.find? other := by
  unfold find? insert
  rw [Std.HashMap.getElem?_insert]
  simp only [beq_iff_eq]

/-- Each template of the cache was made for a set that may have its name. -/
def Holds (names : String → RuneSet → Prop) (cache : TemplateCache) : Prop :=
  ∀ key template, cache.find? key = some template →
    ∃ set, names key set ∧ set.Proper ∧ Template.ofRunes set.simplify = .ok template

theorem holds_empty (names : String → RuneSet → Prop) : ({} : TemplateCache).Holds names := by
  intro key template found
  simp at found

theorem Holds.insert (holds : cache.Holds names) (named : names key set) (proper : set.Proper)
    (computed : Template.ofRunes set.simplify = .ok made) : (cache.insert key made).Holds names := by
  intro other template found
  rw [find?_insert] at found
  split at found
  · rename_i same
    subst same
    cases found
    exact ⟨set, named, proper, computed⟩
  · exact holds other template found

theorem Holds.ready (holds : cache.Holds names) (found : cache.find? key = some template) :
    template.Ready := by
  obtain ⟨set, _, _, computed⟩ := holds key template found
  exact Template.ready_of_ofRunes computed

/-- Both caches serve a set of runes with the same template, which is made where it is missing. -/
def Agrees (names : String → RuneSet → Prop) (cache other : TemplateCache) : Prop :=
  ∀ key set made, names key set → set.Proper → Template.ofRunes set.simplify = .ok made →
    (cache.find? key).getD made = (other.find? key).getD made

theorem Agrees.refl (names : String → RuneSet → Prop) (cache : TemplateCache) :
    cache.Agrees names cache :=
  fun _ _ _ _ _ _ => rfl

/-- A template may be kept on either side as long as it is the one that serves its name on both. -/
theorem Agrees.congr {after otherAfter : TemplateCache} (agrees : cache.Agrees names other) (key : String)
    (elsewhere : ∀ name, name ≠ key → after.find? name = cache.find? name ∧
      otherAfter.find? name = other.find? name)
    (here : after.find? key = otherAfter.find? key) : after.Agrees names otherAfter := by
  intro name set made named proper computed
  by_cases same : name = key
  · rw [same, here]
  · rw [(elsewhere name same).1, (elsewhere name same).2]
    exact agrees name set made named proper computed

/-- The template for a set whose name stands for no other runes. -/
theorem Holds.find?_eq [Unicode.Database] (holds : cache.Holds fun key set => set.Named key) (named : set.Named key)
    (computed : Template.ofRunes set.simplify = .ok made) (found : cache.find? key = some template) :
    template = made := by
  obtain ⟨source, namedToo, _, computedToo⟩ := holds key template found
  rw [namedToo.simplify_eq named, computed] at computedToo
  exact (Except.ok.inj computedToo).symm

/-- Where a name stands for one set, all caches serve alike. -/
theorem Holds.agrees [Unicode.Database] (holds : cache.Holds fun key set => set.Named key)
    (holdsOther : other.Holds fun key set => set.Named key) :
    cache.Agrees (fun key set => set.Named key) other := by
  intro key set made named _ computed
  have served {cache : TemplateCache} (holds : cache.Holds fun key set => set.Named key) :
      (cache.find? key).getD made = made := by
    cases found : cache.find? key with
    | none => rfl
    | some template => exact holds.find?_eq named computed found
  rw [served holds, served holdsOther]

end TemplateCache

end ByteAutomata
