import TemplateCatalog.Proofs.Migration.Removals
import TemplateCatalog.Proofs.Model.Content
import TemplateCatalog.Proofs.Model.Shape

/-!
# A comparison finds every difference

Scales and categories are compared position by position, texts field by field.
Matrices are compared only where they overlap. This is enough, since a matrix is
total on its axes: two matrices on axes of the same lengths overlap everywhere.

Results:
1. `Diff.translations_eq_nil_iff`, `Diff.levels_eq_nil_iff`, `Diff.cells_eq_nil_iff`:
   the comparison of a part finds nothing exactly if the parts have one content.
2. `Diff.sameCategory_eq_nil_iff`: so does that of categories on one scale of
   probabilities.
3. `diffRiskDefinition_isEmpty_iff`: the comparison of valid definitions finds
   nothing exactly if they have one content.
-/

namespace TemplateCatalog

namespace Diff

/-! ## Texts and colors -/

theorem mem_translations {target : ChangeTarget} {old new : Translations} {c : Change} :
    c ∈ translations target old new ↔
      ∃ locale field, old.get? locale field ≠ new.get? locale field ∧
        c = .text target locale field (old.get? locale field) (new.get? locale field) := by
  rw [translations, List.mem_filterMap]
  constructor
  · rintro ⟨⟨locale, field⟩, -, found⟩
    dsimp only at found
    split at found
    · cases found
    · next differ => exact ⟨locale, field, differ, (Option.some.inj found).symm⟩
  · rintro ⟨locale, field, differ, rfl⟩
    exact ⟨(locale, field), Translations.mem_keysUnion_of_ne differ, if_neg differ⟩

theorem translations_eq_nil_iff {target : ChangeTarget} {old new : Translations} :
    translations target old new = [] ↔ old.content = new.content := by
  rw [Translations.content_eq_iff, List.eq_nil_iff_forall_not_mem]
  constructor
  · intro none locale field
    by_contra differ
    exact none _ (mem_translations.mpr ⟨locale, field, differ, rfl⟩)
  · intro same c hc
    obtain ⟨locale, field, differ, -⟩ := mem_translations.mp hc
    exact differ (same locale field)

theorem mem_color {target : ChangeTarget} {old new : Option String} {c : Change} :
    c ∈ color target old new ↔ old ≠ new ∧ c = .color target old new := by
  unfold color
  split
  · next same => exact iff_of_false List.not_mem_nil fun differ => differ.1 same
  · next differ => simp [differ]

theorem color_eq_nil_iff {target : ChangeTarget} {old new : Option String} :
    color target old new = [] ↔ old = new := by
  unfold color
  split
  · next same => exact iff_of_true rfl same
  · next differ => exact iff_of_false (List.cons_ne_nil _ _) differ

/-! ## Positions -/

/-- Lists have one content if their entries have at every position. -/
theorem positions_eq_nil_iff {α β γ : Type} {f : Nat → Option α → Option α → List γ}
    {content : α → β} {old new : List α}
    (h : ∀ i, f i old[i]? new[i]? = [] ↔ old[i]?.map content = new[i]?.map content) :
    ((List.range (max old.length new.length)).flatMap fun i => f i old[i]? new[i]?) = [] ↔
      old.map content = new.map content := by
  rw [List.flatMap_eq_nil_iff]
  constructor
  · intro none
    refine List.ext_getElem? fun i => ?_
    rw [List.getElem?_map, List.getElem?_map]
    by_cases inside : i < max old.length new.length
    · exact (h i).mp (none i (List.mem_range.mpr inside))
    · obtain ⟨pastOld, pastNew⟩ := Nat.max_le.mp (Nat.le_of_not_lt inside)
      rw [List.getElem?_eq_none pastOld, List.getElem?_eq_none pastNew]
  · intro same i _
    rw [h, ← List.getElem?_map, ← List.getElem?_map, same]

theorem level_eq_nil_iff {axis : Axis} {target : Nat → ChangeTarget} {index : Nat}
    {old new : Option Level} :
    level axis target index old new = [] ↔ old.map Level.content = new.map Level.content := by
  cases old with
  | none => cases new <;> simp [level]
  | some o =>
    cases new with
    | none => simp [level]
    | some n =>
      rw [level, List.append_eq_nil_iff, color_eq_nil_iff, translations_eq_nil_iff,
        ← Level.content_eq_iff, Option.map_some, Option.map_some, Option.some_inj]

theorem levels_eq_nil_iff {axis : Axis} {target : Nat → ChangeTarget} {old new : List Level} :
    levels axis target old new = [] ↔ old.map Level.content = new.map Level.content :=
  positions_eq_nil_iff fun _ => level_eq_nil_iff

/-! ## Matrices -/

theorem cell_eq_nil_iff {category : String} {ref : CellRef} {old new : MatrixCell} :
    cell category ref old new = [] ↔ old = new := by
  unfold cell
  split
  · next differ =>
    exact iff_of_false (List.cons_ne_nil _ _) fun same => differ (congrArg MatrixCell.value same)
  · next same =>
    rw [color_eq_nil_iff]
    cases old
    cases new
    simp_all

/-- Lists of one length are compared entry by entry. -/
theorem zip_eq_nil_iff {α β : Type} {f : Nat → α → α → List β} {as bs : List α} {start : Nat}
    (sameLength : as.length = bs.length)
    (h : ∀ i, ∀ a ∈ as, ∀ b ∈ bs, f i a b = [] ↔ a = b) :
    (((as.zip bs).zipIdx start).flatMap fun p => f p.2 p.1.1 p.1.2) = [] ↔ as = bs := by
  induction as generalizing bs start with
  | nil => simp [List.length_eq_zero_iff.mp sameLength.symm]
  | cons a as ih =>
    cases bs with
    | nil => cases sameLength
    | cons b bs =>
      rw [List.zip_cons_cons, List.zipIdx_cons, List.flatMap_cons, List.append_eq_nil_iff,
        h start a List.mem_cons_self b List.mem_cons_self, ih (Nat.succ.inj sameLength),
        List.cons.injEq]
      exact fun i a ha b hb => h i a (List.mem_cons_of_mem _ ha) b (List.mem_cons_of_mem _ hb)

theorem cells_eq_nil_iff {category : String} {old new : ValueMatrix}
    {impacts probabilities scale scale' : Nat} (hold : IsTotal old impacts probabilities scale)
    (hnew : IsTotal new impacts probabilities scale') :
    cells category old new = [] ↔ old = new := by
  have rows : ∀ row, ∀ o ∈ old, ∀ n ∈ new,
      ((o.zip n).zipIdx.flatMap fun p => cell category ⟨row, p.2⟩ p.1.1 p.1.2) = [] ↔ o = n := by
    intro row o ho n hn
    have sameLength := (hold.columns o ho).trans (hnew.columns n hn).symm
    exact zip_eq_nil_iff (f := fun column => cell category ⟨row, column⟩) sameLength
      fun column _ _ _ _ => cell_eq_nil_iff
  exact zip_eq_nil_iff (hold.rows.trans hnew.rows.symm) rows

theorem matrix_eq_nil_iff {index : Nat} {old new : Category}
    {impacts probabilities scale scale' : Nat}
    (hold : ∀ m, old.matrix = some m → IsTotal m impacts probabilities scale)
    (hnew : ∀ m, new.matrix = some m → IsTotal m impacts probabilities scale') :
    matrix index old new = [] ↔ old.matrix = new.matrix := by
  unfold matrix
  cases ho : old.matrix with
  | none => cases hn : new.matrix <;> simp
  | some o =>
    cases hn : new.matrix with
    | none => simp
    | some n => rw [cells_eq_nil_iff (hold o ho) (hnew n hn), Option.some_inj]

/-! ## Categories -/

theorem sameCategory_eq_nil_iff {index : Nat} {old new : Category}
    {probabilities scale scale' : Nat} (sameId : old.id = new.id)
    (hold : ∀ m, old.matrix = some m → IsTotal m old.impacts.length probabilities scale)
    (hnew : ∀ m, new.matrix = some m → IsTotal m new.impacts.length probabilities scale') :
    sameCategory index old new = [] ↔ old.content = new.content := by
  rw [sameCategory, List.append_eq_nil_iff, List.append_eq_nil_iff, translations_eq_nil_iff,
    levels_eq_nil_iff, Category.content_eq_iff, and_assoc]
  -- the matrices are comparable once the scales of impacts are known to have one length
  have matrices (sameImpacts : old.impacts.map Level.content = new.impacts.map Level.content) :
      matrix index old new = [] ↔ old.matrix = new.matrix := by
    have sameLength : old.impacts.length = new.impacts.length := by
      simpa using congrArg List.length sameImpacts
    exact matrix_eq_nil_iff (sameLength ▸ hold) hnew
  constructor
  · rintro ⟨texts, impacts, cells⟩
    exact ⟨sameId, texts, impacts, (matrices impacts).mp cells⟩
  · rintro ⟨-, texts, impacts, cells⟩
    exact ⟨texts, impacts, (matrices impacts).mpr cells⟩

theorem category_eq_nil_iff {index : Nat} {old new : Option Category}
    {probabilities scale scale' : Nat}
    (hold : ∀ c, old = some c → ∀ m, c.matrix = some m →
      IsTotal m c.impacts.length probabilities scale)
    (hnew : ∀ c, new = some c → ∀ m, c.matrix = some m →
      IsTotal m c.impacts.length probabilities scale') :
    category index old new = [] ↔ old.map Category.content = new.map Category.content := by
  cases old with
  | none => cases new <;> simp [category]
  | some o =>
    cases new with
    | none => simp [category]
    | some n =>
      rw [Option.map_some, Option.map_some, Option.some_inj, category]
      split
      · next sameId => exact sameCategory_eq_nil_iff sameId (hold o rfl) (hnew n rfl)
      · next moved =>
        exact iff_of_false (List.cons_ne_nil _ _) fun same =>
          moved (Category.content_eq_iff.mp same).1

/-! ## Definitions -/

theorem riskDefinition_eq_nil_iff {old new : RiskDefinition} (sameId : old.id = new.id)
    (hold : old.WellShaped) (hnew : new.WellShaped) :
    riskDefinition old new = [] ↔ old.content = new.content := by
  rw [riskDefinition, RiskDefinition.content_eq_iff]
  simp only [List.append_eq_nil_iff, translations_eq_nil_iff, levels_eq_nil_iff, and_assoc]
  have compared (sameLevels : old.probability.levels.map Level.content =
      new.probability.levels.map Level.content) : categories old.categories new.categories = [] ↔
        old.categories.map Category.content = new.categories.map Category.content := by
    have sameLength : old.probability.levels.length = new.probability.levels.length := by
      simpa using congrArg List.length sameLevels
    have total := hold.total
    rw [sameLength] at total
    exact positions_eq_nil_iff fun i => category_eq_nil_iff
      (fun c hc => total c (List.mem_of_getElem? hc))
      fun c hc => hnew.total c (List.mem_of_getElem? hc)
  constructor
  · rintro ⟨texts, probability, levels, values, categories⟩
    exact ⟨sameId, texts, probability, levels, values, (compared levels).mp categories⟩
  · rintro ⟨-, texts, probability, levels, values, categories⟩
    exact ⟨texts, probability, levels, values, (compared levels).mpr categories⟩

end Diff

/-- Two valid versions of a risk definition do not differ exactly if they have one content. -/
theorem diffRiskDefinition_isEmpty_iff (old new : RiskDefinition) (sameId : old.id = new.id)
    (hold : old.validate = .ok ()) (hnew : new.validate = .ok ()) :
    (diffRiskDefinition old new).isEmpty = true ↔ old.content = new.content := by
  have nothing :
      (diffRiskDefinition old new).isEmpty = true ↔ Diff.riskDefinition old new = [] := by
    rw [ChangeSet.isEmpty, DistinctList.isEmpty, List.isEmpty_iff, List.eq_nil_iff_forall_not_mem,
      List.eq_nil_iff_forall_not_mem]
    exact forall_congr' fun c => not_congr mem_diffRiskDefinition
  rw [nothing]
  exact Diff.riskDefinition_eq_nil_iff sameId (RiskDefinition.validate_eq_ok_iff.mp hold)
    (RiskDefinition.validate_eq_ok_iff.mp hnew)

/-- Levels that are counted from another number and a locale without texts make no difference. The
color of a cell does. -/
theorem diffRiskDefinition_of_renumbered :
    let scale (first : Nat) : List Level := [{ ordinal := first }, { ordinal := first + 1 }]
    let define (first : Nat) (color : String) (translations : Translations) : RiskDefinition :=
      { id := "definition"
        probability := { levels := scale first }
        riskValues := scale first
        categories := [
          { id := "category"
            impacts := [{ ordinal := first }]
            matrix := some [[⟨0, none⟩, ⟨1, some color⟩]] }]
        translations }
    let old := define 0 "red" ∅
    let new := define 1 "red" ⟨.singleton "en" ∅⟩
    let recolored := define 0 "blue" ∅
    old.validate = .ok () ∧ new.validate = .ok () ∧ recolored.validate = .ok () ∧
      (diffRiskDefinition old new).isEmpty = true ∧ old.content = new.content ∧
      (diffRiskDefinition old recolored).isEmpty = false ∧ old.content ≠ recolored.content := by
  intro scale define old new recolored
  have same := diffRiskDefinition_isEmpty_iff old new rfl rfl rfl
  have differ := diffRiskDefinition_isEmpty_iff old recolored rfl rfl rfl
  have recolors : old.content ≠ recolored.content := by decide
  have renumbers : old.content = new.content := by decide
  refine ⟨rfl, rfl, rfl, same.mpr renumbers, renumbers, ?_, recolors⟩
  rw [← Bool.not_eq_true, differ]
  exact recolors

end TemplateCatalog
