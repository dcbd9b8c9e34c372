import TemplateCatalog.Model.Domain
import TemplateCatalog.Proofs.Collections

/-!
# Shapes of risk definitions

`validate` accepts a risk definition exactly if it is `WellShaped`: the ids of
its categories are distinct, and every matrix is total on its two axes and
stays on the scale of risk values.

Results:
1. `validate_eq_ok_iff`: `validate` decides `WellShaped`.
2. `WellShaped.cell_bounds`, `WellShaped.exists_cell_iff`: in a well-shaped
   definition a category has a cell exactly at the places that its axes span,
   and the value of the cell is a position on the scale.
3. `validate_total_on_axes`: both of valid definitions.
-/

namespace TemplateCatalog

/-- A row for every impact, in it a cell for every probability, all values on the scale. -/
structure IsTotal (matrix : ValueMatrix) (impacts probabilities scale : Nat) : Prop where
  rows : matrix.length = impacts
  columns : ∀ row ∈ matrix, row.length = probabilities
  onScale : ∀ row ∈ matrix, ∀ cell ∈ row, cell.value < scale

namespace RiskDefinition

structure WellShaped (d : RiskDefinition) : Prop where
  distinct_ids : (d.categories.map (·.id)).Nodup
  total : ∀ c ∈ d.categories, ∀ matrix, c.matrix = some matrix →
    IsTotal matrix c.impacts.length d.probability.levels.length d.riskValues.length

/-! ## The check of one matrix -/

theorem rowFault?_eq_none_iff {d : RiskDefinition} {category : String} {row : Nat}
    {cells : List MatrixCell} :
    d.rowFault? category row cells = none ↔
      cells.length = d.probability.levels.length ∧
        ∀ cell ∈ cells, cell.value < d.riskValues.length := by
  unfold rowFault?
  split
  · next h => exact ⟨nofun, fun e => absurd e.1 h⟩
  · next h =>
    rw [ne_eq, Decidable.not_not] at h
    simp [h, List.findIdx?_eq_none_iff]

theorem matrixFault?_eq_none_iff {d : RiskDefinition} {c : Category} :
    d.matrixFault? c = none ↔ ∀ matrix, c.matrix = some matrix →
      IsTotal matrix c.impacts.length d.probability.levels.length d.riskValues.length := by
  unfold matrixFault?
  cases hm : c.matrix with
  | none => exact ⟨fun _ => nofun, fun _ => rfl⟩
  | some matrix =>
    by_cases hrows : matrix.length = c.impacts.length
    · simp only [hrows, ne_eq, not_true_eq_false, ↓reduceIte]
      rw [List.findSome?_eq_none_iff]
      constructor
      · rintro h matrix' ⟨⟩
        have rows : ∀ cells ∈ matrix, cells.length = d.probability.levels.length ∧
            ∀ cell ∈ cells, cell.value < d.riskValues.length := by
          intro cells hcells
          obtain ⟨row, hrow⟩ := List.getElem?_of_mem hcells
          exact rowFault?_eq_none_iff.mp (h (cells, row) (List.mem_zipIdx_iff_getElem?.mpr hrow))
        exact ⟨hrows, fun row hrow => (rows row hrow).1, fun row hrow => (rows row hrow).2⟩
      · intro h p hp
        obtain ⟨cells, row⟩ := p
        have ht := h matrix rfl
        have hmem : cells ∈ matrix := List.mem_of_getElem? (List.mem_zipIdx_iff_getElem?.mp hp)
        exact rowFault?_eq_none_iff.mpr ⟨ht.columns cells hmem, ht.onScale cells hmem⟩
    · simp only [hrows, ne_eq, not_false_eq_true, ↓reduceIte, reduceCtorEq, false_iff]
      exact fun h => hrows (h matrix rfl).rows

/-! ## The check of all categories -/

theorem categoriesFault?_eq_none_iff {d : RiskDefinition} {seen : List String}
    {cs : List Category} :
    d.categoriesFault? seen cs = none ↔
      (cs.map (·.id)).Nodup ∧ (∀ c ∈ cs, c.id ∉ seen) ∧
        ∀ c ∈ cs, d.matrixFault? c = none := by
  induction cs generalizing seen with
  | nil => simp [categoriesFault?]
  | cons c rest ih =>
    by_cases hseen : c.id ∈ seen
    · simp [categoriesFault?, hseen]
    · simp only [categoriesFault?, List.contains_eq_mem, hseen, decide_false, Bool.false_eq_true,
        ↓reduceIte, Option.or_eq_none_iff, ih, List.map_cons, List.nodup_cons, List.mem_map,
        List.mem_cons, forall_eq_or_imp, not_or, not_exists, not_and]
      constructor
      · rintro ⟨hc, hnodup, hfresh, hrest⟩
        exact ⟨⟨fun b hb => (hfresh b hb).1, hnodup⟩,
          ⟨not_false, fun b hb => (hfresh b hb).2⟩, hc, hrest⟩
      · rintro ⟨⟨hne, hnodup⟩, ⟨-, hfresh⟩, hc, hrest⟩
        exact ⟨hc, hnodup, fun b hb => ⟨hne b hb, hfresh b hb⟩, hrest⟩

theorem validate_eq_ok_iff {d : RiskDefinition} : d.validate = .ok () ↔ d.WellShaped := by
  have decided : d.validate = .ok () ↔ d.categoriesFault? [] d.categories = none := by
    unfold validate
    cases d.categoriesFault? [] d.categories with
    | none => simp
    | some fault => simp
  rw [decided, categoriesFault?_eq_none_iff]
  constructor
  · rintro ⟨hnodup, -, hfault⟩
    exact ⟨hnodup, fun c hc => matrixFault?_eq_none_iff.mp (hfault c hc)⟩
  · rintro ⟨hnodup, htotal⟩
    exact ⟨hnodup, fun _ _ => List.not_mem_nil,
      fun c hc => matrixFault?_eq_none_iff.mpr (htotal c hc)⟩

end RiskDefinition

/-! ## Cells -/

theorem Category.cell?_eq_some_iff {c : Category} {ref : CellRef} {cell : MatrixCell} :
    c.cell? ref = some cell ↔
      ∃ matrix row, c.matrix = some matrix ∧ matrix[ref.row]? = some row ∧
        row[ref.column]? = some cell := by
  simp [Category.cell?, Option.bind_eq_some_iff]

namespace RiskDefinition.WellShaped

variable {d : RiskDefinition} {c : Category} {ref : CellRef}

theorem cell_bounds (h : d.WellShaped) (hc : c ∈ d.categories) {cell : MatrixCell}
    (hcell : c.cell? ref = some cell) :
    ref.row < c.impacts.length ∧ ref.column < d.probability.levels.length ∧
      cell.value < d.riskValues.length := by
  obtain ⟨matrix, row, hm, hrow, hcol⟩ := Category.cell?_eq_some_iff.mp hcell
  have ht := h.total c hc matrix hm
  have hmem : row ∈ matrix := List.mem_of_getElem? hrow
  refine ⟨?_, ?_, ht.onScale row hmem cell (List.mem_of_getElem? hcol)⟩
  · rw [← ht.rows]
    exact (List.getElem?_eq_some_iff.mp hrow).1
  · rw [← ht.columns row hmem]
    exact (List.getElem?_eq_some_iff.mp hcol).1

theorem exists_cell (h : d.WellShaped) (hc : c ∈ d.categories) (hm : c.matrix ≠ none)
    (hrow : ref.row < c.impacts.length) (hcol : ref.column < d.probability.levels.length) :
    ∃ cell, c.cell? ref = some cell := by
  obtain ⟨matrix, hm⟩ := Option.ne_none_iff_exists'.mp hm
  have ht := h.total c hc matrix hm
  rw [← ht.rows] at hrow
  have hlen : matrix[ref.row].length = d.probability.levels.length :=
    ht.columns _ (List.getElem_mem hrow)
  rw [← hlen] at hcol
  exact ⟨matrix[ref.row][ref.column], Category.cell?_eq_some_iff.mpr
    ⟨matrix, matrix[ref.row], hm, List.getElem?_eq_getElem hrow, List.getElem?_eq_getElem hcol⟩⟩

/-- A category has a cell exactly at the places that its axes span. -/
theorem exists_cell_iff (h : d.WellShaped) (hc : c ∈ d.categories) :
    (∃ cell, c.cell? ref = some cell) ↔
      c.matrix ≠ none ∧ ref.row < c.impacts.length ∧
        ref.column < d.probability.levels.length := by
  constructor
  · rintro ⟨cell, hcell⟩
    obtain ⟨matrix, -, hm, -, -⟩ := Category.cell?_eq_some_iff.mp hcell
    obtain ⟨hrow, hcol, -⟩ := h.cell_bounds hc hcell
    exact ⟨hm ▸ Option.some_ne_none matrix, hrow, hcol⟩
  · rintro ⟨hm, hrow, hcol⟩
    exact h.exists_cell hc hm hrow hcol

/-- Distinct ids tell categories apart, so that an id stands at one position only. -/
theorem position_unique (h : d.WellShaped) {i j : Nat} {a b : Category}
    (ha : d.categories[i]? = some a) (hb : d.categories[j]? = some b) (hid : a.id = b.id) :
    i = j :=
  position_of_nodup h.distinct_ids ha hb hid

end RiskDefinition.WellShaped

namespace RiskDefinition

/-- A definition is valid exactly if its ids tell the categories apart and its matrices are total on
their axes. The cells of a valid definition are then known from the lengths of the axes. -/
theorem validate_total_on_axes (d : RiskDefinition) :
    (d.validate = .ok () ↔
      (d.categories.map (·.id)).Nodup ∧
        ∀ c ∈ d.categories, ∀ matrix, c.matrix = some matrix →
          IsTotal matrix c.impacts.length d.probability.levels.length d.riskValues.length) ∧
    (d.validate = .ok () → ∀ c ∈ d.categories, ∀ ref,
      ((∃ cell, c.cell? ref = some cell) ↔
        c.matrix ≠ none ∧ ref.row < c.impacts.length ∧
          ref.column < d.probability.levels.length) ∧
      ∀ cell, c.cell? ref = some cell → cell.value < d.riskValues.length) := by
  rw [validate_eq_ok_iff]
  constructor
  · exact ⟨fun shaped => ⟨shaped.distinct_ids, shaped.total⟩,
      fun ⟨distinct, total⟩ => ⟨distinct, total⟩⟩
  · intro shaped c hc ref
    refine ⟨shaped.exists_cell_iff hc, fun cell hcell => ?_⟩
    exact (shaped.cell_bounds hc hcell).2.2

/-- One category is rated, one has no impacts and an empty matrix, one has no matrix. A value that
is off the scale is not valid. -/
theorem validate_total_on_axes_of_three :
    let rated (value : Nat) : Category :=
      { id := "C", impacts := [{ ordinal := 0 }], matrix := some [[⟨0, none⟩, ⟨value, none⟩]] }
    let bare : Category := { id := "I", impacts := [], matrix := some [] }
    let unrated : Category := { id := "A", impacts := [{ ordinal := 0 }] }
    let define (value : Nat) : RiskDefinition :=
      { id := "R"
        probability := { levels := [{ ordinal := 0 }, { ordinal := 1 }] }
        riskValues := [{ ordinal := 0 }, { ordinal := 1 }]
        categories := [rated value, bare, unrated] }
    (define 1).validate = .ok () ∧ (define 2).validate ≠ .ok () ∧
      (∃ cell, (rated 1).cell? ⟨0, 1⟩ = some cell) ∧
      (¬ ∃ cell, (rated 1).cell? ⟨1, 0⟩ = some cell) ∧
      (¬ ∃ cell, bare.cell? ⟨0, 0⟩ = some cell) ∧
      ¬ ∃ cell, unrated.cell? ⟨0, 0⟩ = some cell := by
  intro rated bare unrated define
  have valid : (define 1).validate = .ok () := rfl
  have cells := (validate_total_on_axes (define 1)).2 valid
  have noCell (c : Category) (hc : c ∈ (define 1).categories) (ref : CellRef)
      (beyond : ¬ (c.matrix ≠ none ∧ ref.row < c.impacts.length ∧ ref.column < 2)) :
      ¬ ∃ cell, c.cell? ref = some cell :=
    fun found => beyond ((cells c hc ref).1.mp found)
  refine ⟨valid, ?_, ?_, ?_, ?_, ?_⟩
  · refine mt (validate_total_on_axes (define 2)).1.mp ?_
    rintro ⟨-, total⟩
    have offScale := (total (rated 2) List.mem_cons_self _ rfl).onScale
    exact absurd (offScale _ List.mem_cons_self ⟨2, none⟩ (by decide)) (by decide)
  · exact (cells (rated 1) List.mem_cons_self ⟨0, 1⟩).1.mpr (by decide)
  · exact noCell (rated 1) (by decide) ⟨1, 0⟩ (by decide)
  · exact noCell bare (by decide) ⟨0, 0⟩ (by decide)
  · exact noCell unrated (by decide) ⟨0, 0⟩ (by decide)

end RiskDefinition

end TemplateCatalog
