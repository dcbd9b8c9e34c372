import TemplateCatalog.Model.Error
import TemplateCatalog.Model.Translations

/-!
# Risk definitions

A risk definition fixes how risks are rated in a domain: a scale of
probabilities, a scale of risk values, and categories that each have a scale of
impacts and may have a matrix. The matrix of a category has a row for every
impact and a column for every probability; its cells are positions on the scale
of risk values.

Risk values point into these scales by position. `validate` checks that every
matrix is total on its axes and stays on the scale.
-/

namespace TemplateCatalog

/-- A step on an ordered scale. -/
structure Level where
  ordinal : Nat
  color : Option String := none
  translations : Translations := ∅
  deriving DecidableEq, Inhabited

def Level.name? (level : Level) (locale : String) : Option String :=
  level.translations.name? locale

structure ProbabilityScale where
  levels : List Level := []
  translations : Translations := ∅
  deriving DecidableEq, Inhabited

structure MatrixCell where
  /-- A position on the scale of risk values. -/
  value : Nat
  color : Option String := none
  deriving DecidableEq, Inhabited

/-- A row for every impact, in it a cell for every probability. -/
abbrev ValueMatrix := List (List MatrixCell)

/-- A place in a matrix. -/
structure CellRef where
  row : Nat
  column : Nat
  deriving DecidableEq, Repr, Inhabited

instance : ToString CellRef := ⟨fun c => s!"({c.row},{c.column})"⟩

structure Category where
  id : String
  impacts : List Level
  matrix : Option ValueMatrix := none
  translations : Translations := ∅
  deriving DecidableEq, Inhabited

namespace Category

/-- Whether risk values can be derived for the category. -/
def isRiskCategory (c : Category) : Bool := c.matrix.isSome

def cell? (c : Category) (ref : CellRef) : Option MatrixCell := do
  let matrix ← c.matrix
  let row ← matrix[ref.row]?
  row[ref.column]?

end Category

structure RiskDefinition where
  id : String
  probability : ProbabilityScale := {}
  riskValues : List Level := []
  categories : List Category := []
  translations : Translations := ∅
  deriving DecidableEq, Inhabited

namespace RiskDefinition

def category? (d : RiskDefinition) (id : String) : Option Category :=
  d.categories.find? fun c => c.id == id

/-- The first fault of one row of a matrix. -/
def rowFault? (d : RiskDefinition) (category : String) (row : Nat) (cells : List MatrixCell) :
    Option ShapeFault :=
  if cells.length ≠ d.probability.levels.length then
    some (.cellCount category row cells.length d.probability.levels.length)
  else
    (cells.findIdx? fun c => d.riskValues.length ≤ c.value).map (.valueOffScale category row)

/-- The first fault of a category's matrix. -/
def matrixFault? (d : RiskDefinition) (c : Category) : Option ShapeFault :=
  match c.matrix with
  | none => none
  | some matrix =>
    if matrix.length ≠ c.impacts.length then
      some (.rowCount c.id matrix.length c.impacts.length)
    else matrix.zipIdx.findSome? fun (cells, row) => d.rowFault? c.id row cells

/-- The first fault of categories that follow others with the given ids. -/
def categoriesFault? (d : RiskDefinition) (seen : List String) : List Category → Option ShapeFault
  | [] => none
  | c :: rest =>
    if seen.contains c.id then some (.duplicateCategory c.id)
    else (d.matrixFault? c).or (categoriesFault? d (c.id :: seen) rest)

/-- Checks the matrices against the axes, category by category. -/
def validate (d : RiskDefinition) : Except ModelError Unit :=
  match d.categoriesFault? [] d.categories with
  | none => .ok ()
  | some fault => .error (.invalidRiskDefinition d.id fault)

end RiskDefinition

end TemplateCatalog
