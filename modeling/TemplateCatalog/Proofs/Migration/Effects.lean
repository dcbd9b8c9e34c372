import TemplateCatalog.Proofs.Migration.Moves
import TemplateCatalog.Proofs.Migration.Reversal
import TemplateCatalog.Proofs.Migration.RiskValues

/-!
# What the effects of a comparison tell clients

Clients compute their risk values anew if a change set asks for it, and leave
their risk data alone if it has no effects at all. `RatesLike` says, without the
change set, that no risk is rated in another way: the scales are of the same
lengths, and categories that stay where they are give the same value at every
place of their matrices.

The matrices of two versions are compared only where they overlap. Valid versions
with scales of the same lengths overlap everywhere, so nothing is left out.

Results:
1. `mem_cellValue_diff_iff`: the values that a comparison reports are exactly
   those that are `Revalued`.
2. `altered_iff`: an entry is reported to come or to go exactly if it does.
3. `RiskDefinition.WellShaped.ratesLike_iff`: between valid versions, risks are
   rated alike exactly if nothing is revalued and no axis but that of the
   categories is altered.
4. `diffRiskDefinition_effects`: what a change set without recalculation and one
   without migration mean.
-/

namespace TemplateCatalog

/-! ## Definitions -/

/-- Two versions of a category have equally many impacts and give the same values, if any. -/
structure Category.RatesLike (c c' : Category) : Prop where
  impacts : c.impacts.length = c'.impacts.length
  unrated : c.matrix = none ↔ c'.matrix = none
  values : ∀ ref, (c.cell? ref).map (·.value) = (c'.cell? ref).map (·.value)

namespace RiskDefinition

/-- Two versions have scales of the same lengths, and every category that both have at one position
rates alike. Categories may come and go. -/
structure RatesLike (d d' : RiskDefinition) : Prop where
  probabilities : d.probability.levels.length = d'.probability.levels.length
  riskValues : d.riskValues.length = d'.riskValues.length
  categories : ∀ (i : Nat) (c c' : Category), d.categories[i]? = some c →
    d'.categories[i]? = some c' → c.id = c'.id → c.RatesLike c'

/-- A risk value resolves in the definition to a cell with a value. -/
def Rates (d : RiskDefinition) (v : RiskValueRef) (value : Nat) : Prop :=
  ∃ c cell, d.Locates v c cell ∧ cell.value = value

end RiskDefinition

/-- A category that stays where it is has another value at a place of its matrix. -/
inductive Revalued (old new : RiskDefinition) : String → CellRef → Nat → Nat → Prop
  | intro {i : Nat} {c c' : Category} {ref : CellRef} {cell cell' : MatrixCell} :
      old.categories[i]? = some c → new.categories[i]? = some c' → c.id = c'.id →
      c.cell? ref = some cell → c'.cell? ref = some cell' → cell.value ≠ cell'.value →
      Revalued old new c'.id ref cell.value cell'.value

/-- The entry at an index of an axis goes or comes. -/
def Altered (old new : RiskDefinition) (axis : Axis) (i : Nat) : Prop :=
  Removed old new axis i ∨ Removed new old axis i

/-! ## Reported values -/

namespace Diff

/-- What is found where two lists overlap is found at some position of both. -/
theorem mem_overlap {α β : Type} {f : Nat → α → α → List β} {as bs : List α} {x : β} :
    (x ∈ (as.zip bs).zipIdx.flatMap fun p => f p.2 p.1.1 p.1.2) ↔
      ∃ (i : Nat) (a b : α), as[i]? = some a ∧ bs[i]? = some b ∧ x ∈ f i a b := by
  rw [List.mem_flatMap]
  constructor
  · rintro ⟨⟨⟨a, b⟩, i⟩, hp, hx⟩
    obtain ⟨ha, hb⟩ := List.getElem?_zip_eq_some.mp (List.mem_zipIdx_iff_getElem?.mp hp)
    exact ⟨i, a, b, ha, hb, hx⟩
  · rintro ⟨i, a, b, ha, hb, hx⟩
    exact ⟨((a, b), i),
      List.mem_zipIdx_iff_getElem?.mpr (List.getElem?_zip_eq_some.mpr ⟨ha, hb⟩), hx⟩

variable {id : String} {ref : CellRef} {o n : Nat}

theorem cellValue_mem_cell {category : String} {place : CellRef} {old new : MatrixCell} :
    .cellValue id ref o n ∈ cell category place old new ↔
      id = category ∧ ref = place ∧ old.value ≠ new.value ∧ o = old.value ∧ n = new.value := by
  unfold cell
  split
  · next differ => simp [differ]
  · next same => simp [mem_color, same]

theorem cellValue_mem_cells {category : String} {old new : ValueMatrix} :
    .cellValue id ref o n ∈ cells category old new ↔
      id = category ∧ ∃ oldRow newRow a b, old[ref.row]? = some oldRow ∧
        new[ref.row]? = some newRow ∧ oldRow[ref.column]? = some a ∧
        newRow[ref.column]? = some b ∧ a.value ≠ b.value ∧ o = a.value ∧ n = b.value := by
  refine (mem_overlap (f := fun row (oldRow newRow : List MatrixCell) =>
    (oldRow.zip newRow).zipIdx.flatMap fun p => cell category ⟨row, p.2⟩ p.1.1 p.1.2)).trans ?_
  constructor
  · rintro ⟨row, oldRow, newRow, hold, hnew, found⟩
    obtain ⟨column, a, b, ha, hb, found⟩ :=
      (mem_overlap (f := fun column => cell category ⟨row, column⟩)).mp found
    obtain ⟨rfl, rfl, values⟩ := cellValue_mem_cell.mp found
    exact ⟨rfl, oldRow, newRow, a, b, hold, hnew, ha, hb, values⟩
  · rintro ⟨rfl, oldRow, newRow, a, b, hold, hnew, ha, hb, values⟩
    refine ⟨ref.row, oldRow, newRow, hold, hnew, ?_⟩
    exact (mem_overlap (f := fun column => cell id ⟨ref.row, column⟩)).mpr
      ⟨ref.column, a, b, ha, hb, cellValue_mem_cell.mpr ⟨rfl, rfl, values⟩⟩

theorem cellValue_mem_matrix {index : Nat} {old new : Category} :
    .cellValue id ref o n ∈ matrix index old new ↔
      id = new.id ∧ ∃ a b, old.cell? ref = some a ∧ new.cell? ref = some b ∧
        a.value ≠ b.value ∧ o = a.value ∧ n = b.value := by
  unfold matrix
  cases hold : old.matrix with
  | none => cases hnew : new.matrix <;> simp [Category.cell?, hold]
  | some before =>
    cases hnew : new.matrix with
    | none => simp [Category.cell?, hnew]
    | some behind =>
      simp only [cellValue_mem_cells, Category.cell?_eq_some_iff, hold, hnew, Option.some.injEq]
      refine and_congr_right fun _ => ?_
      constructor
      · rintro ⟨oldRow, newRow, a, b, hrow, hrow', ha, hb, values⟩
        exact ⟨a, b, ⟨before, oldRow, rfl, hrow, ha⟩, ⟨behind, newRow, rfl, hrow', hb⟩, values⟩
      · rintro ⟨a, b, ⟨_, oldRow, rfl, hrow, ha⟩, ⟨_, newRow, rfl, hrow', hb⟩, values⟩
        exact ⟨oldRow, newRow, a, b, hrow, hrow', ha, hb, values⟩

theorem cellValue_not_mem_translations {target : ChangeTarget} {old new : Translations} :
    .cellValue id ref o n ∉ translations target old new := by
  intro found
  obtain ⟨_, _, -, text⟩ := mem_translations.mp found
  cases text

theorem cellValue_not_mem_levels {axis : Axis} {target : Nat → ChangeTarget}
    {old new : List Level} : .cellValue id ref o n ∉ levels axis target old new := by
  intro found
  obtain ⟨i, -, found⟩ := List.mem_flatMap.mp found
  cases hold : old[i]? with
  | none => cases hnew : new[i]? <;> simp [level, hold, hnew] at found
  | some a =>
    cases hnew : new[i]? with
    | none => simp [level, hold, hnew] at found
    | some b =>
      rw [hold, hnew] at found
      cases mem_level_iff_restyles.mp found

theorem cellValue_mem_category {index : Nat} {old new : Option Category} :
    .cellValue id ref o n ∈ category index old new ↔
      ∃ c c', old = some c ∧ new = some c' ∧ c.id = c'.id ∧
        .cellValue id ref o n ∈ matrix index c c' := by
  cases old with
  | none => cases new <;> simp [category, addedCategory]
  | some c =>
    cases new with
    | none => simp [category, removedCategory]
    | some c' =>
      by_cases sameId : c.id = c'.id
      · simp [category, sameId, sameCategory, cellValue_not_mem_translations,
          cellValue_not_mem_levels]
      · simp [category, sameId, removedCategory, addedCategory]

end Diff

variable {old new : RiskDefinition}

/-- The values that a comparison reports are exactly those that are another. -/
theorem mem_cellValue_diff_iff {id : String} {ref : CellRef} {o n : Nat} :
    .cellValue id ref o n ∈ (diffRiskDefinition old new).toList ↔ Revalued old new id ref o n := by
  rw [mem_diffRiskDefinition, Diff.riskDefinition]
  simp only [List.mem_append, Diff.cellValue_not_mem_translations, Diff.cellValue_not_mem_levels,
    false_or, Diff.categories]
  rw [Diff.mem_positions fun _ => rfl]
  simp only [Diff.cellValue_mem_category, Diff.cellValue_mem_matrix]
  constructor
  · rintro ⟨i, c, c', hc, hc', sameId, rfl, a, b, ha, hb, differ, rfl, rfl⟩
    exact .intro hc hc' sameId ha hb differ
  · rintro ⟨hc, hc', sameId, ha, hb, differ⟩
    exact ⟨_, _, _, hc, hc', sameId, rfl, _, _, ha, hb, differ, rfl, rfl⟩

/-! ## Reported entries -/

theorem altered_iff {axis : Axis} {i : Nat} :
    Altered old new axis i ↔
      ∃ label, .remove axis i label ∈ (diffRiskDefinition old new).toList ∨
        .add axis i label ∈ (diffRiskDefinition old new).toList := by
  rw [Altered, ← mem_removals_diff_iff, ← mem_removals_diff_iff, exists_or]
  exact or_congr_right (exists_congr fun label => mem_diffRiskDefinition_reverse)

/-! ## Effects -/

theorem ChangeSet.requiresRecalculation_eq_false_iff {s : ChangeSet} :
    s.requiresRecalculation = false ↔ ∀ c ∈ s.toList, .recalculation ∉ c.effects := by
  rw [← Bool.not_eq_true, requiresRecalculation, List.contains_iff_mem, effects, mem_distinct,
    List.mem_flatMap]
  simp only [not_exists, not_and]

theorem ChangeSet.requiresMigration_eq_false_iff {s : ChangeSet} :
    s.requiresMigration = false ↔ ∀ c ∈ s.toList, c.effects = [] := by
  refine ⟨fun h c hc => List.eq_nil_iff_forall_not_mem.mpr fun e he => ?_,
    requiresMigration_eq_false⟩
  rw [requiresMigration, Bool.not_eq_false', List.isEmpty_iff] at h
  have listed : e ∈ s.effects := mem_distinct.mpr (List.mem_flatMap.mpr ⟨c, hc, he⟩)
  rw [h] at listed
  cases listed

/-- Only an entry of the axis of categories may come or go without a recalculation. -/
theorem Change.recalculation_mem_axisEffects {ofCategory : String → ChangeEffect} {axis : Axis}
    (other : ∀ id, ofCategory id ≠ .recalculation) :
    .recalculation ∈ axisEffects ofCategory axis ↔ ∀ id, axis ≠ .category id := by
  cases axis with
  | category id => simpa [axisEffects] using (other id).symm
  | probability | riskValue | impact | matrix => simp [axisEffects]

theorem Change.axisEffects_ne_nil {ofCategory : String → ChangeEffect} {axis : Axis} :
    axisEffects ofCategory axis ≠ [] := by
  cases axis with
  | category | probability | riskValue | impact | matrix => exact List.cons_ne_nil _ _

/-- Nothing is recalculated as long as values stay and only categories come and go. -/
theorem requiresRecalculation_diff_eq_false_iff :
    (diffRiskDefinition old new).requiresRecalculation = false ↔
      (∀ axis i, Altered old new axis i → ∃ id, axis = .category id) ∧
        ∀ id ref o n, ¬ Revalued old new id ref o n := by
  have removed (axis : Axis) : .recalculation ∈ Change.axisEffects .categoryRemoval axis ↔
      ∀ id, axis ≠ .category id := Change.recalculation_mem_axisEffects nofun
  have added (axis : Axis) : .recalculation ∈ Change.axisEffects .categoryAddition axis ↔
      ∀ id, axis ≠ .category id := Change.recalculation_mem_axisEffects nofun
  rw [ChangeSet.requiresRecalculation_eq_false_iff]
  constructor
  · intro quiet
    refine ⟨fun axis i altered => ?_, fun id ref o n revalued => ?_⟩
    · by_contra other
      rw [not_exists] at other
      obtain ⟨label, gone | new⟩ := altered_iff.mp altered
      · exact quiet _ gone ((removed axis).mpr other)
      · exact quiet _ new ((added axis).mpr other)
    · exact quiet _ (mem_cellValue_diff_iff.mpr revalued) List.mem_cons_self
  · rintro ⟨axes, values⟩ c hc
    cases c with
    | newDefinition | color | text => exact List.not_mem_nil
    | add axis i label =>
      obtain ⟨id, rfl⟩ := axes axis i (altered_iff.mpr ⟨label, .inr hc⟩)
      exact fun listed => (added (.category id)).mp listed id rfl
    | remove axis i label =>
      obtain ⟨id, rfl⟩ := axes axis i (altered_iff.mpr ⟨label, .inl hc⟩)
      exact fun listed => (removed (.category id)).mp listed id rfl
    | cellValue id ref o n => exact absurd (mem_cellValue_diff_iff.mp hc) (values id ref o n)

/-- Clients have nothing to do as long as values stay and no entry comes or goes. -/
theorem requiresMigration_diff_eq_false_iff :
    (diffRiskDefinition old new).requiresMigration = false ↔
      (∀ axis i, ¬ Altered old new axis i) ∧ ∀ id ref o n, ¬ Revalued old new id ref o n := by
  rw [ChangeSet.requiresMigration_eq_false_iff]
  constructor
  · intro silent
    refine ⟨fun axis i altered => ?_, fun id ref o n revalued => ?_⟩
    · obtain ⟨label, gone | new⟩ := altered_iff.mp altered
      · exact Change.axisEffects_ne_nil (silent _ gone)
      · exact Change.axisEffects_ne_nil (silent _ new)
    · exact List.cons_ne_nil _ _ (silent _ (mem_cellValue_diff_iff.mpr revalued))
  · rintro ⟨axes, values⟩ c hc
    cases c with
    | newDefinition | color | text => rfl
    | add axis i label => exact absurd (altered_iff.mpr ⟨label, .inr hc⟩) (axes axis i)
    | remove axis i label => exact absurd (altered_iff.mpr ⟨label, .inl hc⟩) (axes axis i)
    | cellValue id ref o n => exact absurd (mem_cellValue_diff_iff.mp hc) (values id ref o n)

/-! ## Scales of the same lengths -/

theorem length_eq_of_not_altered {axis : Axis} {before behind : Nat}
    (kept : ∀ i, ¬ Altered old new axis i)
    (gone : ∀ i, i < before → behind ≤ i → Removed old new axis i)
    (added : ∀ i, i < behind → before ≤ i → Removed new old axis i) : before = behind := by
  rcases Nat.lt_trichotomy before behind with longer | same | shorter
  · exact absurd (.inr (added before longer (Nat.le_refl _))) (kept before)
  · exact same
  · exact absurd (.inl (gone behind shorter (Nat.le_refl _))) (kept behind)

theorem Category.RatesLike.symm {c c' : Category} (h : c.RatesLike c') : c'.RatesLike c :=
  ⟨h.impacts.symm, h.unrated.symm, fun ref => (h.values ref).symm⟩

namespace RiskDefinition

theorem RatesLike.symm (h : old.RatesLike new) : new.RatesLike old :=
  ⟨h.probabilities.symm, h.riskValues.symm,
    fun i c c' hc hc' sameId => (h.categories i c' c hc' hc sameId.symm).symm⟩

theorem RatesLike.category_of_removed (h : old.RatesLike new) {axis : Axis} {i : Nat}
    (gone : Removed old new axis i) : ∃ id, axis = .category id := by
  cases gone with
  | category => exact ⟨_, rfl⟩
  | probability inside beyond =>
    exact absurd (h.probabilities ▸ inside) (Nat.not_lt_of_le beyond)
  | riskValue inside beyond => exact absurd (h.riskValues ▸ inside) (Nat.not_lt_of_le beyond)
  | impact hc hc' sameId inside beyond =>
    have same := (h.categories _ _ _ hc hc' sameId).impacts
    exact absurd (same ▸ inside) (Nat.not_lt_of_le beyond)
  | matrix hc hc' sameId rated gone =>
    exact absurd ((h.categories _ _ _ hc hc' sameId).unrated.mpr gone) rated

namespace WellShaped

/-- Matrices on axes of the same lengths have their cells at the same places. -/
theorem exists_cell_congr (hold : old.WellShaped) (hnew : new.WellShaped) {c c' : Category}
    (hc : c ∈ old.categories) (hc' : c' ∈ new.categories)
    (probabilities : old.probability.levels.length = new.probability.levels.length)
    (impacts : c.impacts.length = c'.impacts.length)
    (unrated : c.matrix = none ↔ c'.matrix = none) (ref : CellRef) :
    (∃ cell, c.cell? ref = some cell) ↔ ∃ cell, c'.cell? ref = some cell := by
  rw [hold.exists_cell_iff hc, hnew.exists_cell_iff hc', probabilities, impacts, ne_eq, ne_eq,
    unrated]

/-- Risks are rated alike exactly if no value is another and no other axis than that of the
categories has an entry that comes or goes. -/
theorem ratesLike_iff (hold : old.WellShaped) (hnew : new.WellShaped) :
    old.RatesLike new ↔
      (∀ axis i, Altered old new axis i → ∃ id, axis = .category id) ∧
        ∀ id ref o n, ¬ Revalued old new id ref o n := by
  constructor
  · intro h
    refine ⟨fun axis i altered => ?_, fun id ref o n revalued => ?_⟩
    · rcases altered with gone | added
      · exact h.category_of_removed gone
      · exact h.symm.category_of_removed added
    · cases revalued with
      | intro hc hc' sameId hcell hcell' differ =>
        have same := (h.categories _ _ _ hc hc' sameId).values ref
        rw [hcell, hcell', Option.map_some, Option.map_some] at same
        exact differ (Option.some.inj same)
  · rintro ⟨axes, values⟩
    have kept (axis : Axis) (other : ∀ id, axis ≠ .category id) (i : Nat) :
        ¬ Altered old new axis i := by
      intro altered
      obtain ⟨id, same⟩ := axes axis i altered
      exact other id same
    have probabilities : old.probability.levels.length = new.probability.levels.length :=
      length_eq_of_not_altered (kept .probability nofun)
        (fun _ => .probability) fun _ => .probability
    refine ⟨probabilities, ?_, fun i c c' hc hc' sameId => ?_⟩
    · exact length_eq_of_not_altered (kept .riskValue nofun)
        (fun _ => .riskValue) fun _ => .riskValue
    have impacts : c.impacts.length = c'.impacts.length :=
      length_eq_of_not_altered (kept (.impact c'.id) nofun)
        (fun _ => .impact hc hc' sameId) fun _ => sameId ▸ .impact hc' hc sameId.symm
    have unrated : c.matrix = none ↔ c'.matrix = none := by
      constructor
      · intro bare
        by_contra rated
        exact kept (.matrix c.id) nofun i (.inr (.matrix hc' hc sameId.symm rated bare))
      · intro bare
        by_contra rated
        exact kept (.matrix c'.id) nofun i (.inl (.matrix hc hc' sameId rated bare))
    refine ⟨impacts, unrated, fun ref => ?_⟩
    have cells := exists_cell_congr hold hnew (List.mem_of_getElem? hc)
      (List.mem_of_getElem? hc') probabilities impacts unrated ref
    cases hcell : c.cell? ref with
    | none =>
      cases hcell' : c'.cell? ref with
      | none => rfl
      | some cell' => simp [hcell, hcell'] at cells
    | some cell =>
      cases hcell' : c'.cell? ref with
      | none => simp [hcell, hcell'] at cells
      | some cell' =>
        by_contra differ
        rw [Option.map_some, Option.map_some, Option.some_inj] at differ
        exact values _ _ _ _ (.intro hc hc' sameId hcell hcell' differ)

end WellShaped

end RiskDefinition

/-! ## Categories that stay where they are -/

section

variable (same : old.categories.map (·.id) = new.categories.map (·.id))
include same

theorem exists_category_of_ids {i : Nat} {c : Category} (hc : old.categories[i]? = some c) :
    ∃ c', new.categories[i]? = some c' ∧ c.id = c'.id := by
  have id : (new.categories.map (·.id))[i]? = some c.id := by
    rw [← same, List.getElem?_map, hc, Option.map_some]
  rw [List.getElem?_map] at id
  obtain ⟨c', hc', sameId⟩ := Option.map_eq_some_iff.mp id
  exact ⟨c', hc', sameId.symm⟩

theorem not_removed_category_of_ids {id : String} {i : Nat} :
    ¬ Removed old new (.category id) i := by
  intro removed
  cases removed with
  | category hc gone =>
    obtain ⟨c', hc', sameId⟩ := exists_category_of_ids same hc
    exact gone c' hc' sameId

theorem RiskDefinition.RatesLike.rates (h : old.RatesLike new) {v : RiskValueRef} {value : Nat}
    (rates : old.Rates v value) : new.Rates v value := by
  obtain ⟨c, cell, ⟨hc, hcell⟩, rfl⟩ := rates
  obtain ⟨c', hc', sameId⟩ := exists_category_of_ids same hc
  have values := (h.categories _ _ _ hc hc' sameId).values v.cell
  rw [hcell, Option.map_some] at values
  obtain ⟨cell', hcell', sameValue⟩ := Option.map_eq_some_iff.mp values.symm
  exact ⟨c', cell', ⟨hc', hcell'⟩, sameValue⟩

end

theorem ids_eq_iff_not_altered :
    old.categories.map (·.id) = new.categories.map (·.id) ↔
      ∀ id i, ¬ Altered old new (.category id) i := by
  constructor
  · intro same id i altered
    rcases altered with gone | added
    · exact not_removed_category_of_ids same gone
    · exact not_removed_category_of_ids same.symm added
  · intro kept
    refine List.ext_getElem? fun i => ?_
    rw [List.getElem?_map, List.getElem?_map]
    cases hc : old.categories[i]? with
    | none =>
      cases hc' : new.categories[i]? with
      | none => rfl
      | some c' => exact absurd (.inr (.category hc' (by simp [hc]))) (kept c'.id i)
    | some c =>
      cases hc' : new.categories[i]? with
      | none => exact absurd (.inl (.category hc (by simp [hc']))) (kept c.id i)
      | some c' =>
        by_contra differ
        rw [Option.map_some, Option.map_some, Option.some_inj] at differ
        exact kept c.id i (.inl (.category hc (by simpa [hc'] using differ)))

/-! ## Main result -/

/-- A change set asks for no recalculation exactly if risks are rated alike, and for no migration
exactly if the categories are the same as well. Every risk value then resolves to a cell of the same
value in both versions. -/
theorem diffRiskDefinition_effects (old new : RiskDefinition) (hold : old.validate = .ok ())
    (hnew : new.validate = .ok ()) :
    ((diffRiskDefinition old new).requiresRecalculation = false ↔ old.RatesLike new) ∧
    ((diffRiskDefinition old new).requiresMigration = false ↔
      old.RatesLike new ∧ old.categories.map (·.id) = new.categories.map (·.id)) ∧
    ((diffRiskDefinition old new).requiresMigration = false →
      ∀ v value, old.Rates v value ↔ new.Rates v value) := by
  have alike := (RiskDefinition.validate_eq_ok_iff.mp hold).ratesLike_iff
    (RiskDefinition.validate_eq_ok_iff.mp hnew)
  have migration : (diffRiskDefinition old new).requiresMigration = false ↔
      old.RatesLike new ∧ old.categories.map (·.id) = new.categories.map (·.id) := by
    rw [requiresMigration_diff_eq_false_iff, alike, ids_eq_iff_not_altered]
    constructor
    · rintro ⟨kept, values⟩
      exact ⟨⟨fun axis i altered => absurd altered (kept axis i), values⟩,
        fun id => kept (.category id)⟩
    · rintro ⟨⟨axes, values⟩, kept⟩
      refine ⟨fun axis i altered => ?_, values⟩
      obtain ⟨id, rfl⟩ := axes axis i altered
      exact kept id i altered
  refine ⟨requiresRecalculation_diff_eq_false_iff.trans alike.symm, migration, ?_⟩
  intro silent v value
  obtain ⟨h, same⟩ := migration.mp silent
  exact ⟨h.rates same, h.symm.rates same.symm⟩

/-- A category without a matrix goes, and risks stay rated as they are. A new color on the scale of
risk values is no matter to clients, another value in a cell is. -/
theorem diffRiskDefinition_effects_of_dropped_category :
    let rated (value : Nat) : Category :=
      { id := "C", impacts := [{ ordinal := 0 }], matrix := some [[⟨0, none⟩, ⟨value, none⟩]] }
    let unrated : Category := { id := "I", impacts := [{ ordinal := 0 }] }
    let define (color : String) (categories : List Category) : RiskDefinition :=
      { id := "R"
        probability := { levels := [{ ordinal := 0 }, { ordinal := 1 }] }
        riskValues := [{ ordinal := 0 }, { ordinal := 1, color := some color }]
        categories }
    let old := define "red" [rated 1, unrated]
    let dropped := define "red" [rated 1]
    let repainted := define "blue" [rated 1, unrated]
    let lowered := define "red" [rated 0, unrated]
    (∀ d ∈ [old, dropped, repainted, lowered], d.validate = .ok ()) ∧
      old.RatesLike dropped ∧ (diffRiskDefinition old dropped).requiresMigration ≠ false ∧
      old.Rates ⟨"R", 0, ⟨0, 1⟩⟩ 1 ∧ repainted.Rates ⟨"R", 0, ⟨0, 1⟩⟩ 1 ∧
      (diffRiskDefinition old lowered).requiresRecalculation ≠ false := by
  intro rated unrated define old dropped repainted lowered
  have valid : ∀ d ∈ [old, dropped, repainted, lowered], d.validate = .ok () := by decide
  obtain ⟨ofDropped, ofDropped', -⟩ :=
    diffRiskDefinition_effects old dropped (valid _ (by simp)) (valid _ (by simp))
  obtain ⟨-, -, ofRepainted⟩ :=
    diffRiskDefinition_effects old repainted (valid _ (by simp)) (valid _ (by simp))
  obtain ⟨ofLowered, -, -⟩ :=
    diffRiskDefinition_effects old lowered (valid _ (by simp)) (valid _ (by simp))
  have rates : old.Rates ⟨"R", 0, ⟨0, 1⟩⟩ 1 := ⟨rated 1, ⟨1, none⟩, ⟨rfl, rfl⟩, rfl⟩
  refine ⟨valid, ofDropped.mp (by decide +kernel), ?_, rates, ?_, ?_⟩
  · exact fun silent => absurd (ofDropped'.mp silent).2 (by decide)
  · exact (ofRepainted (by decide +kernel) _ _).mp rates
  · intro quiet
    have values := ((ofLowered.mp quiet).categories 0 _ _ rfl rfl rfl).values ⟨0, 1⟩
    exact absurd values (by decide)

end TemplateCatalog
