import TemplateCatalog.Migration.Change

/-!
# Differences between risk definitions

Two versions are compared position by position, since risk values point into a
definition by position. An entry that moved is removed where it was and added
where it is now.
-/

namespace TemplateCatalog

/-- The locale whose names label the changes. -/
def labelLocale : String := "en"

def Level.label? (level : Level) : Option String := level.name? labelLocale

def Category.label (c : Category) : String := (c.translations.name? labelLocale).getD c.id

namespace Diff

/-- Fields whose texts differ. -/
def translations (target : ChangeTarget) (old new : Translations) : List Change :=
  (old.keysUnion new).filterMap fun (locale, field) =>
    let o := old.get? locale field
    let n := new.get? locale field
    if o = n then none else some (.text target locale field o n)

/-- A color that differs. -/
def color (target : ChangeTarget) (old new : Option String) : List Change :=
  if old = new then [] else [.color target old new]

/-- The entries at one position of a scale, as far as they exist. -/
def level (axis : Axis) (target : Nat → ChangeTarget) (index : Nat) :
    Option Level → Option Level → List Change
  | some o, some n =>
    color (target index) o.color n.color ++
      translations (target index) o.translations n.translations
  | some o, none => [.remove axis index o.label?]
  | none, some n => [.add axis index n.label?]
  | none, none => []

def levels (axis : Axis) (target : Nat → ChangeTarget) (old new : List Level) : List Change :=
  (List.range (max old.length new.length)).flatMap fun index =>
    level axis target index old[index]? new[index]?

/-- A cell whose value differs, else one whose color does. -/
def cell (category : String) (ref : CellRef) (old new : MatrixCell) : List Change :=
  if old.value ≠ new.value then [.cellValue category ref old.value new.value]
  else color (.matrixCell category ref) old.color new.color

/-- The cells that both matrices have. -/
def cells (category : String) (old new : ValueMatrix) : List Change :=
  (old.zip new).zipIdx.flatMap fun ((oldRow, newRow), row) =>
    (oldRow.zip newRow).zipIdx.flatMap fun ((o, n), column) => cell category ⟨row, column⟩ o n

def matrix (index : Nat) (old new : Category) : List Change :=
  match old.matrix, new.matrix with
  | some _, none => [.remove (.matrix new.id) index (some old.label)]
  | none, some _ => [.add (.matrix new.id) index (some new.label)]
  | some o, some n => cells new.id o n
  | none, none => []

/-- Categories of one id at one position. -/
def sameCategory (index : Nat) (old new : Category) : List Change :=
  translations (.category new.id) old.translations new.translations ++
    levels (.impact new.id) (.impact new.id) old.impacts new.impacts ++
    matrix index old new

def removedCategory (index : Nat) (c : Category) : Change :=
  .remove (.category c.id) index (some c.label)

def addedCategory (index : Nat) (c : Category) : Change :=
  .add (.category c.id) index (some c.label)

/-- The categories at one position, as far as they exist. -/
def category (index : Nat) : Option Category → Option Category → List Change
  | some o, some n =>
    if o.id = n.id then sameCategory index o n
    else [removedCategory index o, addedCategory index n]
  | some o, none => [removedCategory index o]
  | none, some n => [addedCategory index n]
  | none, none => []

def categories (old new : List Category) : List Change :=
  (List.range (max old.length new.length)).flatMap fun index =>
    category index old[index]? new[index]?

/-- All differences in the order in which they are found. -/
def riskDefinition (old new : RiskDefinition) : List Change :=
  translations .definition old.translations new.translations ++
    translations .probability old.probability.translations new.probability.translations ++
    levels .probability .probabilityLevel old.probability.levels new.probability.levels ++
    levels .riskValue .riskValue old.riskValues new.riskValues ++
    categories old.categories new.categories

end Diff

/-- The changes from an old to a new version. -/
def diffRiskDefinition (old new : RiskDefinition) : ChangeSet where
  riskDefinition := new.id
  changes := .ofList (Diff.riskDefinition old new)

/-- The change set of a definition that is new as a whole. -/
def newRiskDefinition (d : RiskDefinition) : ChangeSet where
  riskDefinition := d.id
  changes := .ofList [.newDefinition d.id]

end TemplateCatalog
