import TemplateCatalog.Migration.Breaking
import TemplateCatalog.Proofs.Migration.Removals
import TemplateCatalog.Proofs.Model.Shape

/-!
# Risk values and the removals that hit them

A risk value points at a category and a cell of a risk definition by position.
`Invalidated` says when a newer version of the definition no longer holds what
the value points at; `RestsOn` says on which axis entries a value rests.

Result: `exists_removed_restsOn_iff`. Between well-shaped versions, an entry on
which a value rests is removed exactly if the value is invalidated. So none of
the five kinds of removal is missed, and none raises a false alarm.
-/

namespace TemplateCatalog

/-- The category and the cell that a risk value points at. -/
structure RiskDefinition.Locates (d : RiskDefinition) (v : RiskValueRef) (c : Category)
    (cell : MatrixCell) : Prop where
  category : d.categories[v.category]? = some c
  cell : c.cell? v.cell = some cell

/-- A definition does not hold the category and the cell that a value pointed at before. -/
inductive Invalidated (new : RiskDefinition) (v : RiskValueRef) (c : Category)
    (cell : MatrixCell) : Prop
  | noCategory : new.categories[v.category]? = none → Invalidated new v c cell
  | otherCategory {c' : Category} :
      new.categories[v.category]? = some c' → c.id ≠ c'.id → Invalidated new v c cell
  | noCell {c' : Category} :
      new.categories[v.category]? = some c' → c'.cell? v.cell = none → Invalidated new v c cell
  | offScale : new.riskValues.length ≤ cell.value → Invalidated new v c cell

/-- A risk value of a definition rests on the entry at an index of an axis. -/
inductive RestsOn (d : RiskDefinition) (v : RiskValueRef) : Axis → Nat → Prop
  | category {id : String} : RestsOn d v (.category id) v.category
  | matrix {id : String} : RestsOn d v (.matrix id) v.category
  | impact {id : String} :
      (d.categories.findIdx? fun c => c.id == id) = some v.category →
      RestsOn d v (.impact id) v.cell.row
  | probability : RestsOn d v .probability v.cell.column
  | riskValue {cell : MatrixCell} :
      ((d.categories[v.category]?).bind fun c => c.cell? v.cell) = some cell →
      RestsOn d v .riskValue cell.value

/-! ## One removal -/

theorem Change.hits_iff {change : Change} {old : RiskDefinition} {v : RiskValueRef} :
    change.hits old v = true ↔
      ∃ axis i label, change = .remove axis i label ∧ RestsOn old v axis i := by
  constructor
  · intro h
    unfold Change.hits at h
    split at h
    · next axis i label =>
      refine ⟨axis, i, label, rfl, ?_⟩
      cases axis with
      | category id =>
        cases (beq_iff_eq.mp h)
        exact .category
      | matrix id =>
        cases (beq_iff_eq.mp h)
        exact .matrix
      | impact id =>
        obtain ⟨hpos, hrow⟩ := Bool.and_eq_true_iff.mp h
        cases (beq_iff_eq.mp hrow)
        exact .impact (beq_iff_eq.mp hpos)
      | probability =>
        cases (beq_iff_eq.mp h)
        exact .probability
      | riskValue =>
        obtain ⟨cell, hcell, hvalue⟩ := (Option.any_eq_true _ _).mp h
        cases (beq_iff_eq.mp hvalue)
        exact .riskValue hcell
    · exact absurd h Bool.false_ne_true
  · rintro ⟨axis, i, label, rfl, rests⟩
    cases rests with
    | category => simp [Change.hits]
    | matrix => simp [Change.hits]
    | impact hpos => simp [Change.hits, hpos]
    | probability => simp [Change.hits]
    | riskValue hcell => simp [Change.hits, hcell]

namespace RiskDefinition.WellShaped

variable {old new : RiskDefinition} {v : RiskValueRef} {c : Category} {cell : MatrixCell}

theorem findIdx?_id (h : old.WellShaped) {i : Nat} (hc : old.categories[i]? = some c) :
    (old.categories.findIdx? fun x => x.id == c.id) = some i := by
  obtain ⟨hi, hget⟩ := List.getElem?_eq_some_iff.mp hc
  refine List.findIdx?_eq_some_iff_getElem.mpr ⟨hi, by rw [hget]; exact beq_self_eq_true _, ?_⟩
  intro j hj hid
  have hj' : j < old.categories.length := by omega
  have same := h.position_unique (List.getElem?_eq_getElem hj') hc (beq_iff_eq.mp hid)
  omega

/-- The places at which a category has no cell are beyond an axis, or it has no matrix. -/
theorem beyond_of_cell_none (h : new.WellShaped) {c' : Category} (hc : c' ∈ new.categories)
    {ref : CellRef} (hcell : c'.cell? ref = none) :
    c'.matrix = none ∨ c'.impacts.length ≤ ref.row ∨
      new.probability.levels.length ≤ ref.column := by
  by_cases hm : c'.matrix = none
  · exact .inl hm
  by_cases hrow : ref.row < c'.impacts.length
  · refine .inr (.inr (Nat.le_of_not_lt fun hcol => ?_))
    obtain ⟨x, hx⟩ := h.exists_cell hc hm hrow hcol
    rw [hcell] at hx
    exact nomatch hx
  · exact .inr (.inl (Nat.le_of_not_lt hrow))

/-! ## Which removals matter -/

theorem invalidated_of_removed (hold : old.WellShaped) (hnew : new.WellShaped)
    (loc : old.Locates v c cell) {axis : Axis} {i : Nat} (gone : Removed old new axis i)
    (rests : RestsOn old v axis i) : Invalidated new v c cell := by
  -- a cell of the new version lies within the new axes
  have within : ∀ c', new.categories[v.category]? = some c' → ∀ x, c'.cell? v.cell = some x →
      v.cell.row < c'.impacts.length ∧ v.cell.column < new.probability.levels.length :=
    fun c' hc' x hx =>
      have bounds := hnew.cell_bounds (List.mem_of_getElem? hc') hx
      ⟨bounds.1, bounds.2.1⟩
  have noCell : ∀ c', new.categories[v.category]? = some c' →
      ¬ (v.cell.row < c'.impacts.length ∧ v.cell.column < new.probability.levels.length) →
      Invalidated new v c cell := by
    intro c' hc' beyond
    refine .noCell hc' (Option.eq_none_iff_forall_ne_some.mpr fun x hx => beyond ?_)
    exact within c' hc' x hx
  cases gone with
  | category ho hn =>
    cases rests
    rw [loc.category] at ho
    cases ho
    cases hn' : new.categories[v.category]? with
    | none => exact .noCategory hn'
    | some c' => exact .otherCategory hn' (hn c' hn')
  | probability hlt hle =>
    cases rests
    cases hn' : new.categories[v.category]? with
    | none => exact .noCategory hn'
    | some c' => exact noCell c' hn' fun h => by omega
  | riskValue hlt hle =>
    cases rests with
    | riskValue hcell =>
      rw [loc.category, Option.bind_some, loc.cell] at hcell
      cases hcell
      exact .offScale hle
  | impact ho hn hid hlt hle =>
    cases rests with
    | impact hpos =>
      -- the id leads back to the position at which the categories were compared
      rw [← hid, hold.findIdx?_id ho] at hpos
      cases hpos
      exact noCell _ hn fun h => by omega
  | matrix ho hn hid hom hnm =>
    cases rests
    refine .noCell hn (Option.eq_none_iff_forall_ne_some.mpr fun x hx => ?_)
    obtain ⟨matrix, -, hm, -, -⟩ := Category.cell?_eq_some_iff.mp hx
    rw [hnm] at hm
    exact nomatch hm

theorem removed_of_invalidated (hold : old.WellShaped) (hnew : new.WellShaped)
    (loc : old.Locates v c cell) (h : Invalidated new v c cell) :
    ∃ axis i, Removed old new axis i ∧ RestsOn old v axis i := by
  have inside := hold.cell_bounds (List.mem_of_getElem? loc.category) loc.cell
  cases h with
  | noCategory hn =>
    refine ⟨_, _, .category loc.category fun c' hc' => ?_, .category⟩
    rw [hn] at hc'
    cases hc'
  | otherCategory hn hid =>
    refine ⟨_, _, .category loc.category fun c' hc' => ?_, .category⟩
    rw [hn] at hc'
    cases hc'
    exact hid
  | @noCell c' hn hcell =>
    by_cases hid : c.id = c'.id
    · rcases hnew.beyond_of_cell_none (List.mem_of_getElem? hn) hcell with hm | hrow | hcol
      · have hom : c.matrix ≠ none := by
          obtain ⟨matrix, -, hm', -, -⟩ := Category.cell?_eq_some_iff.mp loc.cell
          exact hm' ▸ Option.some_ne_none matrix
        exact ⟨_, _, .matrix loc.category hn hid hom hm, .matrix⟩
      · exact ⟨_, _, .impact loc.category hn hid inside.1 hrow,
          .impact (hid ▸ hold.findIdx?_id loc.category)⟩
      · exact ⟨_, _, .probability inside.2.1 hcol, .probability⟩
    · refine ⟨_, _, .category loc.category fun x hx => ?_, .category⟩
      rw [hn] at hx
      cases hx
      exact hid
  | offScale hle =>
    exact ⟨_, _, .riskValue inside.2.2 hle, .riskValue (by rw [loc.category]; exact loc.cell)⟩

/-- Removals hit a value exactly if it is invalidated. -/
theorem exists_removed_restsOn_iff (hold : old.WellShaped) (hnew : new.WellShaped)
    (loc : old.Locates v c cell) :
    (∃ axis i, Removed old new axis i ∧ RestsOn old v axis i) ↔ Invalidated new v c cell :=
  ⟨fun ⟨_, _, gone, rests⟩ => hold.invalidated_of_removed hnew loc gone rests,
    hold.removed_of_invalidated hnew loc⟩

end RiskDefinition.WellShaped

end TemplateCatalog
