import TemplateCatalog.Proofs.Migration.Reversal

/-!
# Changes of axes

Every axis of a definition is a list of entries, and an entry that comes or goes
is one change, whatever else has changed. `Removed` says which entries go; those
that come are `Removed` on the way back. Both changes bear the label that the
entry has in its own version (`RiskDefinition.label?`). So a label is told by
axis and index, and no two removals share both.

The axis of impacts is named by its category. Two categories of one id would
share it, so the ids have to be distinct.

Results:
1. `mem_remove_diff_iff`, `mem_add_diff_iff`: what is removed and added, and under
   which labels.
2. `diffRiskDefinition_axes`: the same for the whole comparison, with no entry
   removed or added twice.
-/

namespace TemplateCatalog

namespace RiskDefinition

/-- The label of the entry at an index of an axis. -/
def label? (d : RiskDefinition) : Axis → Nat → Option String
  | .category _, i | .matrix _, i => (d.categories[i]?).map (·.label)
  | .probability, i => (d.probability.levels[i]?).bind (·.label?)
  | .riskValue, i => (d.riskValues[i]?).bind (·.label?)
  | .impact id, i => (d.category? id).bind fun c => (c.impacts[i]?).bind (·.label?)

theorem category?_of_nodup {d : RiskDefinition} {c : Category} {i : Nat}
    (distinct : (d.categories.map (·.id)).Nodup) (hc : d.categories[i]? = some c) :
    d.category? c.id = some c := by
  have found := find?_of_nodup distinct (List.mem_of_getElem? hc)
  simpa only [category?, beq_eq_decide] using found

end RiskDefinition

/-! ## Labels of removals -/

/-- A removal bears the label that the entry has in the definition. -/
def Change.LabelledBy (d : RiskDefinition) : Change → Prop
  | .remove axis index label => label = d.label? axis index
  | _ => True

theorem labelledBy_of_removals_eq_nil {d : RiskDefinition} {cs : List Change}
    (h : removals cs = []) : ∀ c ∈ cs, c.LabelledBy d := by
  intro c hc
  cases c with
  | remove axis index label =>
    have removed : (axis, index) ∈ removals cs := mem_removals.mpr ⟨label, hc⟩
    rw [h] at removed
    cases removed
  | newDefinition | color | add | cellValue | text => trivial

namespace Diff

variable {d : RiskDefinition}

theorem level_labelledBy {axis : Axis} {target : Nat → ChangeTarget} {index : Nat}
    {old new : Option Level} (given : d.label? axis index = old.bind (·.label?)) :
    ∀ c ∈ level axis target index old new, c.LabelledBy d := by
  cases old with
  | none =>
    refine labelledBy_of_removals_eq_nil ?_
    cases new <;> rfl
  | some o =>
    cases new with
    | none => exact List.forall_mem_singleton.mpr given.symm
    | some n => exact labelledBy_of_removals_eq_nil (by simp [level])

theorem levels_labelledBy {axis : Axis} {target : Nat → ChangeTarget} {old new : List Level}
    (given : ∀ i, d.label? axis i = (old[i]?).bind (·.label?)) :
    ∀ c ∈ levels axis target old new, c.LabelledBy d := by
  intro c hc
  obtain ⟨i, -, hc⟩ := List.mem_flatMap.mp hc
  exact level_labelledBy (given i) c hc

section

variable {index : Nat} {old new : Category} (hold : d.categories[index]? = some old)
include hold

theorem matrix_labelledBy : ∀ c ∈ matrix index old new, c.LabelledBy d := by
  unfold matrix
  cases old.matrix with
  | none =>
    refine labelledBy_of_removals_eq_nil ?_
    cases new.matrix <;> rfl
  | some o =>
    cases new.matrix with
    | none =>
      refine List.forall_mem_singleton.mpr ?_
      show some old.label = (d.categories[index]?).map (·.label)
      rw [hold, Option.map_some]
    | some n => exact labelledBy_of_removals_eq_nil (removals_cells new.id o n)

theorem sameCategory_labelledBy (distinct : (d.categories.map (·.id)).Nodup)
    (sameId : old.id = new.id) : ∀ c ∈ sameCategory index old new, c.LabelledBy d := by
  have impacts (i : Nat) : d.label? (.impact new.id) i = (old.impacts[i]?).bind (·.label?) := by
    rw [RiskDefinition.label?, ← sameId, RiskDefinition.category?_of_nodup distinct hold,
      Option.bind_some]
  refine List.forall_mem_append.mpr ⟨List.forall_mem_append.mpr ⟨?_, ?_⟩, matrix_labelledBy hold⟩
  · exact labelledBy_of_removals_eq_nil (removals_translations _ _ _)
  · exact levels_labelledBy impacts

theorem removedCategory_labelledBy : (removedCategory index old).LabelledBy d := by
  show some old.label = (d.categories[index]?).map (·.label)
  rw [hold, Option.map_some]

end

theorem category_labelledBy {index : Nat} {old new : Option Category}
    (distinct : (d.categories.map (·.id)).Nodup) (hold : d.categories[index]? = old) :
    ∀ c ∈ category index old new, c.LabelledBy d := by
  cases old with
  | none =>
    refine labelledBy_of_removals_eq_nil ?_
    cases new <;> rfl
  | some o =>
    have removed := removedCategory_labelledBy hold
    cases new with
    | none => exact List.forall_mem_singleton.mpr removed
    | some n =>
      simp only [category]
      split
      · next sameId => exact sameCategory_labelledBy hold distinct sameId
      · exact List.forall_mem_cons.mpr ⟨removed, List.forall_mem_singleton.mpr trivial⟩

theorem riskDefinition_labelledBy {old new : RiskDefinition}
    (distinct : (old.categories.map (·.id)).Nodup) :
    ∀ c ∈ riskDefinition old new, c.LabelledBy old := by
  simp only [riskDefinition, List.forall_mem_append]
  refine ⟨⟨⟨⟨?_, ?_⟩, ?_⟩, ?_⟩, ?_⟩
  · exact labelledBy_of_removals_eq_nil (removals_translations _ _ _)
  · exact labelledBy_of_removals_eq_nil (removals_translations _ _ _)
  · exact levels_labelledBy fun _ => rfl
  · exact levels_labelledBy fun _ => rfl
  · intro c hc
    obtain ⟨i, -, hc⟩ := List.mem_flatMap.mp hc
    exact category_labelledBy distinct rfl c hc

end Diff

/-! ## Removals and additions -/

/-- Labels that are told by axis and index leave one removal for both. -/
theorem removals_nodup {d : RiskDefinition} {cs : List Change} (nodup : cs.Nodup)
    (labelled : ∀ c ∈ cs, c.LabelledBy d) : (removals cs).Nodup := by
  refine List.pairwise_filterMap.mpr (nodup.imp_of_mem ?_)
  intro a b ha hb differ entry removed entry' removed' same
  cases a with
  | newDefinition | color | add | cellValue | text => cases removed
  | remove axis index label =>
    cases b with
    | newDefinition | color | add | cellValue | text => cases removed'
    | remove axis' index' label' =>
      cases removed
      cases removed'
      cases same
      have given : label = d.label? axis index := labelled _ ha
      have given' : label' = d.label? axis index := labelled _ hb
      exact differ (given ▸ given' ▸ rfl)

/-- The axis and the index at which a change puts an entry in. -/
def Change.added? : Change → Option (Axis × Nat)
  | .add axis index _ => some (axis, index)
  | _ => none

def additions (cs : List Change) : List (Axis × Nat) := cs.filterMap Change.added?

/-- What is added is removed on the way back. -/
theorem additions_eq (cs : List Change) : additions cs = removals (cs.map Change.reverse) := by
  rw [additions, removals, List.filterMap_map]
  refine List.filterMap_congr fun c _ => ?_
  cases c with
  | newDefinition | color | add | remove | cellValue | text => rfl

section

variable {old new : RiskDefinition}

theorem mem_remove_diff_iff (distinct : (old.categories.map (·.id)).Nodup) {axis : Axis}
    {i : Nat} {label : Option String} :
    .remove axis i label ∈ (diffRiskDefinition old new).toList ↔
      Removed old new axis i ∧ label = old.label? axis i := by
  have labelled {label : Option String}
      (found : .remove axis i label ∈ (diffRiskDefinition old new).toList) :
      label = old.label? axis i :=
    Diff.riskDefinition_labelledBy distinct (.remove axis i label)
      (mem_diffRiskDefinition.mp found)
  rw [← mem_removals_diff_iff]
  constructor
  · intro found
    exact ⟨⟨label, found⟩, labelled found⟩
  · rintro ⟨⟨other, found⟩, rfl⟩
    exact labelled found ▸ found

theorem mem_add_diff_iff (distinct : (new.categories.map (·.id)).Nodup) {axis : Axis}
    {i : Nat} {label : Option String} :
    .add axis i label ∈ (diffRiskDefinition old new).toList ↔
      Removed new old axis i ∧ label = new.label? axis i := by
  rw [← mem_remove_diff_iff distinct, mem_diffRiskDefinition_reverse]
  rfl

theorem removals_diff_nodup (distinct : (old.categories.map (·.id)).Nodup) :
    (removals (diffRiskDefinition old new).toList).Nodup := by
  refine removals_nodup (d := old) (diffRiskDefinition old new).changes.nodup ?_
  intro c hc
  exact Diff.riskDefinition_labelledBy distinct c (mem_diffRiskDefinition.mp hc)

theorem additions_diff_nodup (distinct : (new.categories.map (·.id)).Nodup) :
    (additions (diffRiskDefinition old new).toList).Nodup := by
  have nodup := (diffRiskDefinition old new).changes.nodup.map Change.reverse_involutive.injective
  rw [additions_eq]
  refine removals_nodup (d := new) nodup ?_
  intro c hc
  have added : c.reverse ∈ (diffRiskDefinition old new).toList :=
    (List.mem_map_of_involutive Change.reverse_involutive).mp hc
  rw [← mem_diffRiskDefinition_reverse, mem_diffRiskDefinition] at added
  exact Diff.riskDefinition_labelledBy distinct c added

/-- A category is removed where it stands, which is at one index only. -/
theorem removed_category_iff (distinct : (old.categories.map (·.id)).Nodup) {k i : Nat}
    {c : Category} (hc : old.categories[k]? = some c)
    (gone : ∀ c', new.categories[k]? = some c' → c.id ≠ c'.id) :
    Removed old new (.category c.id) i ↔ i = k := by
  constructor
  · intro removed
    generalize named : Axis.category c.id = axis at removed
    cases removed with
    | category hc' _ => exact position_of_nodup distinct hc' hc (Axis.category.inj named).symm
    | probability | riskValue | impact | matrix => cases named
  · rintro rfl
    exact .category hc gone

theorem removals_of_category (distinct : (old.categories.map (·.id)).Nodup) {k : Nat}
    {c : Category} (hc : old.categories[k]? = some c)
    (gone : ∀ c', new.categories[k]? = some c' → c.id ≠ c'.id) :
    (removals (diffRiskDefinition old new).toList).filter (fun r => r.1 = .category c.id) =
      [(.category c.id, k)] := by
  have nodup : ((removals (diffRiskDefinition old new).toList).filter
      fun r => r.1 = .category c.id).Nodup := (removals_diff_nodup distinct).filter _
  refine List.perm_singleton.mp ((List.perm_ext_iff_of_nodup nodup (List.nodup_singleton _)).mpr ?_)
  rintro ⟨axis, i⟩
  rw [List.mem_filter, mem_removals, mem_removals_diff_iff, decide_eq_true_iff,
    List.mem_singleton, Prod.mk.injEq]
  constructor
  · rintro ⟨removed, rfl⟩
    exact ⟨rfl, (removed_category_iff distinct hc gone).mp removed⟩
  · rintro ⟨rfl, rfl⟩
    exact ⟨.category hc gone, rfl⟩

end

/-- Entries that come and go are told exactly, each once and under its label, whatever else has
changed. A category that is not where it was is taken out there and nowhere else. -/
theorem diffRiskDefinition_axes (old new : RiskDefinition)
    (distinct : (old.categories.map (·.id)).Nodup)
    (distinct' : (new.categories.map (·.id)).Nodup) :
    (∀ axis i label, .remove axis i label ∈ (diffRiskDefinition old new).toList ↔
      Removed old new axis i ∧ label = old.label? axis i) ∧
    (∀ axis i label, .add axis i label ∈ (diffRiskDefinition old new).toList ↔
      Removed new old axis i ∧ label = new.label? axis i) ∧
    (removals (diffRiskDefinition old new).toList).Nodup ∧
    (additions (diffRiskDefinition old new).toList).Nodup ∧
    ∀ (k : Nat) (c : Category), old.categories[k]? = some c →
      (∀ c', new.categories[k]? = some c' → c.id ≠ c'.id) →
      (removals (diffRiskDefinition old new).toList).filter (fun r => r.1 = .category c.id) =
        [(.category c.id, k)] := by
  refine ⟨?_, ?_, removals_diff_nodup distinct, additions_diff_nodup distinct', ?_⟩
  · intro axis i label
    exact mem_remove_diff_iff distinct
  · intro axis i label
    exact mem_add_diff_iff distinct'
  · intro k c hc gone
    exact removals_of_category distinct hc gone

/-- The first of three categories goes, and the others move up. The scale of risk values loses its
last step. -/
theorem diffRiskDefinition_axes_of_moved_up :
    let category (id : String) : Category := { id, impacts := [{ ordinal := 0 }] }
    let old : RiskDefinition :=
      { id := "R"
        riskValues := [{ ordinal := 0 }, { ordinal := 1 }]
        categories := [category "C", category "I", category "A"] }
    let new : RiskDefinition :=
      { id := "R"
        riskValues := [{ ordinal := 0 }]
        categories := [category "I", category "A"] }
    (old.categories.map (·.id)).Nodup ∧ (new.categories.map (·.id)).Nodup ∧
      .remove .riskValue 1 none ∈ (diffRiskDefinition old new).toList ∧
      .remove (.category "I") 1 (some "I") ∈ (diffRiskDefinition old new).toList ∧
      .add (.category "I") 0 (some "I") ∈ (diffRiskDefinition old new).toList ∧
      (removals (diffRiskDefinition old new).toList).filter (fun r => r.1 = .category "C") =
        [(.category "C", 0)] := by
  intro category old new
  have distinct : (old.categories.map (·.id)).Nodup := by decide
  have distinct' : (new.categories.map (·.id)).Nodup := by decide
  obtain ⟨removed, added, -, -, once⟩ := diffRiskDefinition_axes old new distinct distinct'
  refine ⟨distinct, distinct', ?_, ?_, ?_, ?_⟩
  · exact (removed _ _ _).mpr ⟨.riskValue (by decide) (by decide), rfl⟩
  · refine (removed _ _ _).mpr ⟨.category (c := category "I") rfl ?_, rfl⟩
    rintro _ ⟨⟩
    decide
  · refine (added _ _ _).mpr ⟨.category (c := category "I") rfl ?_, rfl⟩
    rintro _ ⟨⟩
    decide
  · refine once 0 (category "C") rfl ?_
    rintro _ ⟨⟩
    decide

end TemplateCatalog
