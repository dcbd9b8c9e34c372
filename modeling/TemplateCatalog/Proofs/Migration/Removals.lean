import TemplateCatalog.Migration.Diff
import TemplateCatalog.Proofs.Collections

/-!
# What a comparison of risk definitions removes

`Removed old new axis index` says, without the differ, that the entry at an
index of an axis is gone: the lists of entries are compared position by
position, and the axes inside a category only where both versions have a
category of one id at one position.

Result: `mem_removals_diff_iff`. The removals among the changes that the differ
finds are exactly the entries that are `Removed`.
-/

namespace TemplateCatalog

/-- The entry at an index of an axis of the old version is gone in the new one. -/
inductive Removed (old new : RiskDefinition) : Axis → Nat → Prop
  | category {i : Nat} {c : Category} :
      old.categories[i]? = some c → (∀ c', new.categories[i]? = some c' → c.id ≠ c'.id) →
      Removed old new (.category c.id) i
  | probability {i : Nat} :
      i < old.probability.levels.length → new.probability.levels.length ≤ i →
      Removed old new .probability i
  | riskValue {i : Nat} :
      i < old.riskValues.length → new.riskValues.length ≤ i → Removed old new .riskValue i
  | impact {k i : Nat} {c c' : Category} :
      old.categories[k]? = some c → new.categories[k]? = some c' → c.id = c'.id →
      i < c.impacts.length → c'.impacts.length ≤ i → Removed old new (.impact c'.id) i
  | matrix {i : Nat} {c c' : Category} :
      old.categories[i]? = some c → new.categories[i]? = some c' → c.id = c'.id →
      c.matrix ≠ none → c'.matrix = none → Removed old new (.matrix c'.id) i

/-- A version removes nothing of itself. -/
theorem not_removed_self {d : RiskDefinition} {axis : Axis} {i : Nat} : ¬ Removed d d axis i := by
  intro gone
  cases gone with
  | category found other => exact other _ found rfl
  | probability inside beyond => exact Nat.not_le_of_lt inside beyond
  | riskValue inside beyond => exact Nat.not_le_of_lt inside beyond
  | impact found found' _ inside beyond =>
    cases found.symm.trans found'
    exact Nat.not_le_of_lt inside beyond
  | matrix found found' _ there gone =>
    cases found.symm.trans found'
    exact there gone

/-- The axis and the index at which a change takes an entry out. -/
def Change.removed? : Change → Option (Axis × Nat)
  | .remove axis index _ => some (axis, index)
  | _ => none

def removals (cs : List Change) : List (Axis × Nat) := cs.filterMap Change.removed?

/-! ## Removals of composed lists -/

@[simp] theorem removals_nil : removals [] = [] := rfl

@[simp] theorem removals_cons (c : Change) (cs : List Change) :
    removals (c :: cs) = c.removed?.toList ++ removals cs := by
  unfold removals
  rw [List.filterMap_cons]
  cases c.removed? <;> rfl

@[simp] theorem removals_append (as bs : List Change) :
    removals (as ++ bs) = removals as ++ removals bs :=
  List.filterMap_append

@[simp] theorem removals_flatMap {α : Type} (as : List α) (f : α → List Change) :
    removals (as.flatMap f) = as.flatMap fun a => removals (f a) :=
  List.filterMap_flatMap

theorem mem_removals {cs : List Change} {axis : Axis} {i : Nat} :
    (axis, i) ∈ removals cs ↔ ∃ label, .remove axis i label ∈ cs := by
  constructor
  · intro h
    obtain ⟨c, hc, hr⟩ := List.mem_filterMap.mp h
    cases c with
    | remove axis' i' label =>
      cases hr
      exact ⟨label, hc⟩
    | _ => exact nomatch hr
  · rintro ⟨label, h⟩
    exact List.mem_filterMap.mpr ⟨_, h, rfl⟩

namespace Diff

/-! ## Parts of a definition -/

@[simp] theorem removals_color (target : ChangeTarget) (old new : Option String) :
    removals (color target old new) = [] := by
  unfold color
  split
  · rfl
  · rfl

@[simp] theorem removals_translations (target : ChangeTarget) (old new : Translations) :
    removals (translations target old new) = [] := by
  refine List.filterMap_eq_nil_iff.mpr fun c hc => ?_
  obtain ⟨⟨locale, field⟩, -, hf⟩ := List.mem_filterMap.mp hc
  dsimp only at hf
  split at hf
  · exact nomatch hf
  · cases hf
    rfl

@[simp] theorem removals_cell (category : String) (ref : CellRef) (old new : MatrixCell) :
    removals (cell category ref old new) = [] := by
  unfold cell
  split
  · rfl
  · exact removals_color _ _ _

@[simp] theorem removals_cells (category : String) (old new : ValueMatrix) :
    removals (cells category old new) = [] := by
  simp [cells]

theorem mem_removals_level {axis a : Axis} {target : Nat → ChangeTarget} {index i : Nat}
    {old new : Option Level} :
    (a, i) ∈ removals (level axis target index old new) ↔
      a = axis ∧ i = index ∧ old ≠ none ∧ new = none := by
  cases old with
  | none => cases new <;> simp [level, Change.removed?]
  | some o =>
    cases new with
    | none => simp [level, Change.removed?]
    | some n => simp [level]

/-- What is found position by position is found at some position. -/
theorem mem_positions {α β : Type} {f : Nat → Option α → Option α → List β} {as bs : List α}
    {b : β} (h : ∀ i, f i none none = []) :
    (b ∈ (List.range (max as.length bs.length)).flatMap fun i => f i as[i]? bs[i]?) ↔
      ∃ i : Nat, b ∈ f i as[i]? bs[i]? := by
  rw [List.mem_flatMap]
  constructor
  · rintro ⟨i, -, hb⟩
    exact ⟨i, hb⟩
  · rintro ⟨i, hb⟩
    refine ⟨i, List.mem_range.mpr (Nat.lt_of_not_le fun beyond => ?_), hb⟩
    obtain ⟨pastOld, pastNew⟩ := Nat.max_le.mp beyond
    rw [List.getElem?_eq_none pastOld, List.getElem?_eq_none pastNew, h] at hb
    cases hb

/-- A scale loses the positions by which it gets shorter. -/
theorem mem_removals_levels {axis a : Axis} {target : Nat → ChangeTarget} {i : Nat}
    {old new : List Level} :
    (a, i) ∈ removals (levels axis target old new) ↔
      a = axis ∧ i < old.length ∧ new.length ≤ i := by
  rw [levels, removals_flatMap,
    mem_positions (f := fun index o n => removals (level axis target index o n)) fun _ => rfl]
  simp only [mem_removals_level]
  constructor
  · rintro ⟨index, rfl, rfl, ho, hn⟩
    refine ⟨rfl, ?_, List.getElem?_eq_none_iff.mp hn⟩
    exact Nat.lt_of_not_le fun hle => ho (List.getElem?_eq_none hle)
  · rintro ⟨rfl, ho, hn⟩
    refine ⟨i, rfl, rfl, ?_, List.getElem?_eq_none hn⟩
    exact fun e => Nat.not_le_of_lt ho (List.getElem?_eq_none_iff.mp e)

theorem mem_removals_matrix {index i : Nat} {a : Axis} {old new : Category} :
    (a, i) ∈ removals (matrix index old new) ↔
      a = .matrix new.id ∧ i = index ∧ old.matrix ≠ none ∧ new.matrix = none := by
  unfold matrix
  cases old.matrix with
  | none => cases new.matrix <;> simp [Change.removed?]
  | some o => cases new.matrix <;> simp [Change.removed?]

theorem mem_removals_sameCategory {index i : Nat} {a : Axis} {old new : Category} :
    (a, i) ∈ removals (sameCategory index old new) ↔
      (a = .impact new.id ∧ i < old.impacts.length ∧ new.impacts.length ≤ i) ∨
        (a = .matrix new.id ∧ i = index ∧ old.matrix ≠ none ∧ new.matrix = none) := by
  simp [sameCategory, mem_removals_levels, mem_removals_matrix]

/-! ## Categories and whole definitions -/

/-- What one position of the list of categories contributes. -/
theorem mem_removals_category {index i : Nat} {a : Axis} {old new : Option Category} :
    (a, i) ∈ removals (category index old new) ↔
      ∃ o, old = some o ∧
        ((a = .category o.id ∧ i = index ∧ ∀ n, new = some n → o.id ≠ n.id) ∨
          ∃ n, new = some n ∧ o.id = n.id ∧ (a, i) ∈ removals (sameCategory index o n)) := by
  cases old with
  | none => cases new <;> simp [category, Change.removed?, addedCategory]
  | some o =>
    cases new with
    | none => simp [category, Change.removed?, removedCategory]
    | some n =>
      by_cases hid : o.id = n.id
      · simp [category, hid]
      · simp [category, hid, Change.removed?, removedCategory, addedCategory]

theorem mem_removals_categories {i : Nat} {a : Axis} {old new : List Category} :
    (a, i) ∈ removals (categories old new) ↔
      ∃ index : Nat, (a, i) ∈ removals (category index old[index]? new[index]?) := by
  rw [categories, removals_flatMap]
  exact mem_positions (f := fun index o n => removals (category index o n)) fun _ => rfl

/-- The differ takes out an entry exactly if it is gone. -/
theorem mem_removals_riskDefinition {old new : RiskDefinition} {axis : Axis} {i : Nat} :
    (axis, i) ∈ removals (riskDefinition old new) ↔ Removed old new axis i := by
  simp only [riskDefinition, removals_append, removals_translations, List.nil_append,
    List.mem_append, mem_removals_levels, mem_removals_categories, mem_removals_category,
    mem_removals_sameCategory]
  constructor
  · rintro ((⟨rfl, ho, hn⟩ | ⟨rfl, ho, hn⟩) | ⟨index, o, ho, gone | ⟨n, hn, hid, inside⟩⟩)
    · exact .probability ho hn
    · exact .riskValue ho hn
    · obtain ⟨rfl, rfl, hn⟩ := gone
      exact .category ho hn
    · rcases inside with ⟨rfl, hlt, hle⟩ | ⟨rfl, rfl, hom, hnm⟩
      · exact .impact ho hn hid hlt hle
      · exact .matrix ho hn hid hom hnm
  · intro h
    cases h with
    | category ho hn => exact .inr ⟨i, _, ho, .inl ⟨rfl, rfl, hn⟩⟩
    | probability ho hn => exact .inl (.inl ⟨rfl, ho, hn⟩)
    | riskValue ho hn => exact .inl (.inr ⟨rfl, ho, hn⟩)
    | impact ho hn hid hlt hle => exact .inr ⟨_, _, ho, .inr ⟨_, hn, hid, .inl ⟨rfl, hlt, hle⟩⟩⟩
    | matrix ho hn hid hom hnm =>
      exact .inr ⟨i, _, ho, .inr ⟨_, hn, hid, .inr ⟨rfl, rfl, hom, hnm⟩⟩⟩

end Diff

theorem mem_diffRiskDefinition {old new : RiskDefinition} {c : Change} :
    c ∈ (diffRiskDefinition old new).toList ↔ c ∈ Diff.riskDefinition old new :=
  DistinctList.mem_ofList

/-- The removals in a change set are exactly the entries that are gone. -/
theorem mem_removals_diff_iff {old new : RiskDefinition} {axis : Axis} {i : Nat} :
    (∃ label, .remove axis i label ∈ (diffRiskDefinition old new).toList) ↔
      Removed old new axis i := by
  simp only [mem_diffRiskDefinition]
  rw [← mem_removals]
  exact Diff.mem_removals_riskDefinition

end TemplateCatalog
