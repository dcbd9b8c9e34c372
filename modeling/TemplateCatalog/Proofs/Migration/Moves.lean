import TemplateCatalog.Proofs.Migration.Completeness

/-!
# Entries that trade places

Categories have ids: one that moved is taken out where it was and put in where
it is now. Levels are compared by color and texts only, and their ordinals not
at all. Levels that trade places show as repainted and renamed, which is
cosmetic for clients, although the positions that their risk values point at
now stand for other levels.

Results:
1. `Diff.mem_categories_of_perm`: every position at which the category is
   another one has a removal and an addition.
2. `Diff.mem_levels_of_length`: two scales of one length differ in colors and
   texts only.
3. `diffRiskDefinition_permuted`: the comparison of a definition with itself
   after the entries of one axis have traded places.
-/

namespace TemplateCatalog

/-! ## Scales of a definition -/

/-- A list of levels in a definition. -/
inductive Scale where
  | probability
  | riskValue
  | impact (category : String)

def Scale.axis : Scale → Axis
  | .probability => .probability
  | .riskValue => .riskValue
  | .impact category => .impact category

/-- The level at an index of a scale. -/
def Scale.target : Scale → Nat → ChangeTarget
  | .probability => .probabilityLevel
  | .riskValue => .riskValue
  | .impact category => .impact category

namespace RiskDefinition

def levels? (d : RiskDefinition) : Scale → Option (List Level)
  | .probability => some d.probability.levels
  | .riskValue => some d.riskValues
  | .impact category => (d.category? category).map (·.impacts)

/-- The definition with other levels on one of its scales. -/
def withLevels (d : RiskDefinition) (levels : List Level) : Scale → RiskDefinition
  | .probability => { d with probability := { d.probability with levels } }
  | .riskValue => { d with riskValues := levels }
  | .impact category =>
    { d with
      categories := d.categories.map fun c =>
        if c.id = category then { c with impacts := levels } else c }

end RiskDefinition

/-- A change that gives a level the color or a text of another. -/
inductive Restyles (target : ChangeTarget) (a b : Level) : Change → Prop
  | color : a.color ≠ b.color → Restyles target a b (.color target a.color b.color)
  | text {locale field : String} :
      a.translations.get? locale field ≠ b.translations.get? locale field →
      Restyles target a b (.text target locale field (a.translations.get? locale field)
        (b.translations.get? locale field))

theorem Restyles.effects_eq_nil {target : ChangeTarget} {a b : Level} {c : Change}
    (h : Restyles target a b c) : c.effects = [] := by
  cases h with
  | color => rfl
  | text => rfl

theorem ChangeSet.requiresMigration_eq_false {s : ChangeSet}
    (h : ∀ c ∈ s.toList, c.effects = []) : s.requiresMigration = false := by
  rw [requiresMigration, effects, List.flatMap_eq_nil_iff.mpr h]
  rfl

namespace Diff

/-! ## Positions of lists of one length -/

theorem mem_positions_of_length {α β : Type} {f : Nat → Option α → Option α → List β}
    {as bs : List α} {c : β} (h : ∀ i, f i none none = []) (sameLength : as.length = bs.length) :
    (c ∈ (List.range (max as.length bs.length)).flatMap fun i => f i as[i]? bs[i]?) ↔
      ∃ (i : Nat) (a b : α), as[i]? = some a ∧ bs[i]? = some b ∧ c ∈ f i (some a) (some b) := by
  rw [mem_positions h]
  refine exists_congr fun i => ?_
  by_cases inside : i < as.length
  · rw [List.getElem?_eq_getElem inside, List.getElem?_eq_getElem (sameLength ▸ inside)]
    simp
  · have beyond := Nat.le_of_not_lt inside
    rw [List.getElem?_eq_none beyond, List.getElem?_eq_none (sameLength ▸ beyond), h]
    simp

/-! ## Levels that moved -/

theorem mem_level_iff_restyles {axis : Axis} {target : Nat → ChangeTarget} {index : Nat}
    {a b : Level} {c : Change} :
    c ∈ level axis target index (some a) (some b) ↔ Restyles (target index) a b c := by
  rw [level, List.mem_append, mem_color, mem_translations]
  constructor
  · rintro (⟨differ, rfl⟩ | ⟨locale, field, differ, rfl⟩)
    · exact .color differ
    · exact .text differ
  · intro h
    cases h with
    | color differ => exact .inl ⟨differ, rfl⟩
    | text differ => exact .inr ⟨_, _, differ, rfl⟩

/-- Between scales of one length there is nothing but new colors and texts. -/
theorem mem_levels_of_length {axis : Axis} {target : Nat → ChangeTarget} {as bs : List Level}
    {c : Change} (sameLength : as.length = bs.length) :
    c ∈ levels axis target as bs ↔
      ∃ (i : Nat) (a b : Level), as[i]? = some a ∧ bs[i]? = some b ∧
        Restyles (target i) a b c := by
  rw [levels, mem_positions_of_length (fun _ => rfl) sameLength]
  simp only [mem_level_iff_restyles]

/-! ## Parts that stay -/

theorem translations_self (target : ChangeTarget) (t : Translations) :
    translations target t t = [] :=
  translations_eq_nil_iff.mpr rfl

theorem levels_self (axis : Axis) (target : Nat → ChangeTarget) (scale : List Level) :
    levels axis target scale scale = [] :=
  levels_eq_nil_iff.mpr rfl

section WellShaped

variable {d : RiskDefinition} {o : Category} {levels' : List Level} {c : Change}

theorem category_self (shaped : d.WellShaped) (ho : o ∈ d.categories) (i : Nat) :
    category i (some o) (some o) = [] := by
  rw [category, if_pos rfl]
  exact (sameCategory_eq_nil_iff rfl (shaped.total o ho) (shaped.total o ho)).mpr rfl

/-! ## Categories that moved -/

theorem mem_categories_of_perm {cs : List Category} (shaped : d.WellShaped)
    (moved : cs.Perm d.categories) :
    c ∈ categories d.categories cs ↔
      ∃ (i : Nat) (o n : Category), d.categories[i]? = some o ∧ cs[i]? = some n ∧ o ≠ n ∧
        (c = removedCategory i o ∨ c = addedCategory i n) := by
  rw [categories, mem_positions_of_length (fun _ => rfl) moved.length_eq.symm]
  refine exists_congr fun i => exists_congr fun o => exists_congr fun n => ?_
  refine and_congr_right fun ho => and_congr_right fun hn => ?_
  have ho : o ∈ d.categories := List.mem_of_getElem? ho
  have hn : n ∈ d.categories := moved.subset (List.mem_of_getElem? hn)
  by_cases same : o = n
  · rw [← same, category_self shaped ho]
    simp
  · have otherId : o.id ≠ n.id := fun sameId =>
      same (List.inj_on_of_nodup_map shaped.distinct_ids ho hn sameId)
    simp [category, same, otherId]

theorem categories_self (shaped : d.WellShaped) : categories d.categories d.categories = [] := by
  refine List.eq_nil_iff_forall_not_mem.mpr fun c hc => ?_
  obtain ⟨i, o, n, ho, hn, differ, -⟩ := (mem_categories_of_perm shaped (.refl _)).mp hc
  exact differ (Option.some.inj (ho.symm.trans hn))

/-! ## Scales that changed -/

theorem category_withImpacts (shaped : d.WellShaped) (ho : o ∈ d.categories) (i : Nat) :
    category i (some o) (some { o with impacts := levels' }) =
      levels (.impact o.id) (.impact o.id) o.impacts levels' := by
  have cells : matrix i o { o with impacts := levels' } = [] :=
    (matrix_eq_nil_iff (shaped.total o ho) (shaped.total o ho)).mpr rfl
  rw [category, if_pos rfl, sameCategory, translations_self, List.nil_append, cells,
    List.append_nil]

theorem mem_categories_withImpacts (shaped : d.WellShaped) (ho : o ∈ d.categories) :
    c ∈ categories d.categories (d.withLevels levels' (.impact o.id)).categories ↔
      c ∈ levels (.impact o.id) (.impact o.id) o.impacts levels' := by
  rw [categories, RiskDefinition.withLevels,
    mem_positions_of_length (fun _ => rfl) (List.length_map _).symm]
  simp only [List.getElem?_map]
  constructor
  · rintro ⟨i, a, b, ha, hb, hc⟩
    rw [ha] at hb
    have given : a ∈ d.categories := List.mem_of_getElem? ha
    by_cases here : a.id = o.id
    · cases List.inj_on_of_nodup_map shaped.distinct_ids given ho here
      rw [Option.map_some, if_pos rfl, Option.some_inj] at hb
      rwa [← hb, category_withImpacts shaped ho] at hc
    · rw [Option.map_some, if_neg here, Option.some_inj] at hb
      rw [← hb, category_self shaped given] at hc
      cases hc
  · intro hc
    obtain ⟨i, hi⟩ := List.getElem?_of_mem ho
    refine ⟨i, o, { o with impacts := levels' }, hi, ?_, ?_⟩
    · rw [hi, Option.map_some, if_pos rfl]
    · rwa [category_withImpacts shaped ho]

/-- Other levels on one scale are all there is to find. -/
theorem mem_riskDefinition_withLevels {scale : Scale} {levels : List Level}
    (shaped : d.WellShaped) (found : d.levels? scale = some levels) :
    c ∈ riskDefinition d (d.withLevels levels' scale) ↔
      c ∈ Diff.levels scale.axis scale.target levels levels' := by
  cases scale with
  | probability =>
    cases found
    simp [riskDefinition, RiskDefinition.withLevels, translations_self, levels_self,
      categories_self shaped, Scale.axis, Scale.target]
  | riskValue =>
    cases found
    simp [riskDefinition, RiskDefinition.withLevels, translations_self, levels_self,
      categories_self shaped, Scale.axis, Scale.target]
  | impact id =>
    obtain ⟨o, named, rfl⟩ := Option.map_eq_some_iff.mp found
    have ho : o ∈ d.categories := List.mem_of_find?_eq_some named
    have hid : o.id = id := by simpa using List.find?_some named
    cases hid
    have others : riskDefinition d (d.withLevels levels' (.impact o.id)) =
        categories d.categories (d.withLevels levels' (.impact o.id)).categories := by
      simp [riskDefinition, RiskDefinition.withLevels, translations_self, levels_self]
    rw [others]
    exact mem_categories_withImpacts shaped ho

end WellShaped

end Diff

/-- Categories that trade places are taken out and put in again. Levels that do are not: whichever
the scale, all that shows is the colors and texts, and no client is told to migrate. -/
theorem diffRiskDefinition_permuted (old : RiskDefinition) (valid : old.validate = .ok ()) :
    (∀ categories : List Category, categories.Perm old.categories → ∀ c,
      c ∈ (diffRiskDefinition old { old with categories }).toList ↔
        ∃ (i : Nat) (o n : Category), old.categories[i]? = some o ∧ categories[i]? = some n ∧
          o ≠ n ∧
          (c = .remove (.category o.id) i (some o.label) ∨
            c = .add (.category n.id) i (some n.label))) ∧
    ∀ (scale : Scale) (levels levels' : List Level), old.levels? scale = some levels →
      levels'.Perm levels →
      (∀ c, c ∈ (diffRiskDefinition old (old.withLevels levels' scale)).toList ↔
        ∃ (i : Nat) (a b : Level), levels[i]? = some a ∧ levels'[i]? = some b ∧
          Restyles (scale.target i) a b c) ∧
      (diffRiskDefinition old (old.withLevels levels' scale)).requiresMigration = false := by
  have shaped := RiskDefinition.validate_eq_ok_iff.mp valid
  constructor
  · intro categories moved c
    have others : Diff.riskDefinition old { old with categories } =
        Diff.categories old.categories categories := by
      simp [Diff.riskDefinition, Diff.translations_self, Diff.levels_self]
    rw [mem_diffRiskDefinition, others]
    exact Diff.mem_categories_of_perm shaped moved
  · intro scale levels levels' found moved
    have restyled (c : Change) :
        c ∈ (diffRiskDefinition old (old.withLevels levels' scale)).toList ↔
          ∃ (i : Nat) (a b : Level), levels[i]? = some a ∧ levels'[i]? = some b ∧
            Restyles (scale.target i) a b c := by
      rw [mem_diffRiskDefinition, Diff.mem_riskDefinition_withLevels shaped found]
      exact Diff.mem_levels_of_length moved.length_eq.symm
    refine ⟨restyled, ChangeSet.requiresMigration_eq_false fun c hc => ?_⟩
    obtain ⟨_, _, _, _, _, change⟩ := (restyled c).mp hc
    exact change.effects_eq_nil

/-- Two rated categories trade places, then the two steps on the scale of risk values do. -/
theorem diffRiskDefinition_permuted_of_two :
    let low : Level := { ordinal := 0, color := some "green" }
    let high : Level := { ordinal := 1, color := some "red" }
    let category (id : String) (value : Nat) : Category :=
      { id, impacts := [{ ordinal := 0 }], matrix := some [[⟨value, none⟩]] }
    let old : RiskDefinition :=
      { id := "R"
        probability := { levels := [{ ordinal := 0 }] }
        riskValues := [low, high]
        categories := [category "C" 0, category "I" 1] }
    old.validate = .ok () ∧
      .remove (.category "C") 0 (some "C") ∈
        (diffRiskDefinition old { old with categories := old.categories.reverse }).toList ∧
      .add (.category "I") 0 (some "I") ∈
        (diffRiskDefinition old { old with categories := old.categories.reverse }).toList ∧
      .color (.riskValue 0) (some "green") (some "red") ∈
        (diffRiskDefinition old (old.withLevels [high, low] .riskValue)).toList ∧
      (diffRiskDefinition old (old.withLevels [high, low] .riskValue)).requiresMigration =
        false := by
  intro low high category old
  have valid : old.validate = .ok () := rfl
  obtain ⟨reordered, restyled⟩ := diffRiskDefinition_permuted old valid
  have traded := reordered old.categories.reverse (List.reverse_perm _)
  have differ : category "C" 0 ≠ category "I" 1 := by decide
  obtain ⟨repainted, silent⟩ :=
    restyled .riskValue [low, high] [high, low] rfl (List.Perm.swap low high [])
  refine ⟨valid, ?_, ?_, ?_, silent⟩
  · exact (traded _).mpr ⟨0, _, _, rfl, rfl, differ, .inl rfl⟩
  · exact (traded _).mpr ⟨0, _, _, rfl, rfl, differ, .inr rfl⟩
  · exact (repainted _).mpr ⟨0, low, high, rfl, rfl, .color (by decide)⟩

/-- Low and high risk trade places, and nothing is removed or added. -/
theorem swapped_riskValues_only_repainted :
    let low : Level := { ordinal := 0, color := some "green" }
    let high : Level := { ordinal := 1, color := some "red" }
    let old : RiskDefinition :=
      { id := "R"
        probability := { levels := [{ ordinal := 0 }] }
        riskValues := [low, high]
        categories := [
          { id := "C"
            impacts := [{ ordinal := 0 }]
            matrix := some [[⟨1, none⟩]] }] }
    let new : RiskDefinition := { old with riskValues := [high, low] }
    old.validate = .ok () ∧ new.validate = .ok () ∧ new.riskValues.Perm old.riskValues ∧
      (old.riskValues.map (·.ordinal)).Nodup ∧
      old.riskValues[0]? ≠ new.riskValues[0]? ∧ old.riskValues[1]? ≠ new.riskValues[1]? ∧
      (diffRiskDefinition old new).toList =
        [.color (.riskValue 0) (some "green") (some "red"),
          .color (.riskValue 1) (some "red") (some "green")] ∧
      ∀ index label, .remove .riskValue index label ∉ (diffRiskDefinition old new).toList ∧
        .add .riskValue index label ∉ (diffRiskDefinition old new).toList := by
  intro low high old new
  have found : (diffRiskDefinition old new).toList =
      [.color (.riskValue 0) (some "green") (some "red"),
        .color (.riskValue 1) (some "red") (some "green")] := by
    decide +kernel
  refine ⟨rfl, rfl, List.Perm.swap low high [], by decide, by decide, by decide, found, ?_⟩
  rw [found]
  simp

end TemplateCatalog
