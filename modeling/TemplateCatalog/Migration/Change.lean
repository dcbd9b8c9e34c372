import TemplateCatalog.Collections.DistinctList
import TemplateCatalog.Model.RiskDefinition
import TemplateCatalog.Model.Vocabulary

/-!
# Changes of risk definitions

The differences between two versions of a risk definition, their kinds, and
what they mean for the risk values of clients.
-/

namespace TemplateCatalog

/-- An axis along which entries are added and removed. -/
inductive Axis where
  | category (id : String)
  | probability
  | impact (category : String)
  | riskValue
  | matrix (category : String)
  deriving DecidableEq, Repr

/-- The part of a definition whose color or text changed. -/
inductive ChangeTarget where
  | definition
  | probability
  | probabilityLevel (index : Nat)
  | riskValue (index : Nat)
  | category (id : String)
  | impact (category : String) (index : Nat)
  | matrixCell (category : String) (cell : CellRef)
  deriving DecidableEq, Repr

/-- One difference between an old and a new version. -/
inductive Change where
  | newDefinition (riskDefinition : String)
  | color (target : ChangeTarget) (old new : Option String)
  | add (axis : Axis) (index : Nat) (label : Option String)
  | remove (axis : Axis) (index : Nat) (label : Option String)
  | cellValue (category : String) (cell : CellRef) (old new : Nat)
  | text (target : ChangeTarget) (locale field : String) (old new : Option String)
  deriving DecidableEq, Repr

/-! ## Kinds -/

inductive ChangeKind where
  | newDefinition
  | color
  | add
  | cellValue
  | remove
  | text
  deriving DecidableEq, Repr, Inhabited

namespace ChangeKind

instance : Literal ChangeKind where
  all := [.newDefinition, .color, .add, .cellValue, .remove, .text]
  mem_all k := by cases k <;> decide
  literal
    | .newDefinition => "NewRiskDefinition"
    | .color => "ColorDiff"
    | .add => "RiskMatrixAdd"
    | .cellValue => "RiskMatrixDiff"
    | .remove => "RiskMatrixRemove"
    | .text => "TranslationDiff"

instance : ToString ChangeKind := ⟨literal⟩

def parse : String → Except ModelError ChangeKind := Vocabulary.changeKind.find literal

/-- The kinds that are accepted unless said otherwise. -/
def defaultInert : EnumSet ChangeKind := .ofList [.newDefinition, .text, .color]

end ChangeKind

/-! ## Effects -/

/-- What becomes of the risk values of clients. -/
inductive ChangeEffect where
  | recalculation
  | categoryAddition (category : String)
  | categoryRemoval (category : String)
  deriving DecidableEq, Repr

namespace Change

def kind : Change → ChangeKind
  | .newDefinition _ => .newDefinition
  | .color .. => .color
  | .add .. => .add
  | .remove .. => .remove
  | .cellValue .. => .cellValue
  | .text .. => .text

/-- Effects of an entry that comes to or goes from an axis. -/
def axisEffects (ofCategory : String → ChangeEffect) : Axis → List ChangeEffect
  | .category id => [ofCategory id]
  | .matrix id => [ofCategory id, .recalculation]
  | .probability | .impact _ | .riskValue => [.recalculation]

def effects : Change → List ChangeEffect
  | .newDefinition _ | .color .. | .text .. => []
  | .cellValue .. => [.recalculation]
  | .add axis _ _ => axisEffects .categoryAddition axis
  | .remove axis _ _ => axisEffects .categoryRemoval axis

/-- The change seen from the new version to the old one. -/
def reverse : Change → Change
  | .newDefinition riskDefinition => .newDefinition riskDefinition
  | .color target old new => .color target new old
  | .add axis index label => .remove axis index label
  | .remove axis index label => .add axis index label
  | .cellValue category cell old new => .cellValue category cell new old
  | .text target locale field old new => .text target locale field new old

end Change

/-! ## Order -/

/-- A part of a sort key. -/
inductive SortPart where
  | number (n : Nat)
  | text (s : String)
  deriving DecidableEq, Repr

def SortPart.compare : SortPart → SortPart → Ordering
  | .number a, .number b => Ord.compare a b
  | .number _, .text _ => .lt
  | .text _, .number _ => .gt
  | .text a, .text b => Ord.compare a b

/-- Keys are compared part by part. -/
def compareKeys : List SortPart → List SortPart → Ordering
  | [], [] => .eq
  | [], _ :: _ => .lt
  | _ :: _, [] => .gt
  | a :: as, b :: bs => (a.compare b).then (compareKeys as bs)

def optionKey : Option String → List SortPart
  | none => [.number 0]
  | some s => [.number 1, .text s]

def CellRef.key (c : CellRef) : List SortPart := [.number c.row, .number c.column]

def Axis.key : Axis → List SortPart
  | .category id => [.number 0, .text id]
  | .probability => [.number 1]
  | .impact id => [.number 2, .text id]
  | .riskValue => [.number 3]
  | .matrix id => [.number 4, .text id]

def ChangeTarget.key : ChangeTarget → List SortPart
  | .definition => [.number 0]
  | .probability => [.number 1]
  | .probabilityLevel index => [.number 2, .number index]
  | .riskValue index => [.number 3, .number index]
  | .category id => [.number 4, .text id]
  | .impact id index => [.number 5, .text id, .number index]
  | .matrixCell id cell => [.number 6, .text id] ++ cell.key

/-- Changes are ordered by variant, then field by field; an absent text comes first. -/
def Change.key : Change → List SortPart
  | .newDefinition riskDefinition => [.number 0, .text riskDefinition]
  | .color target old new => .number 1 :: target.key ++ optionKey old ++ optionKey new
  | .add axis index label => .number 2 :: axis.key ++ .number index :: optionKey label
  | .remove axis index label => .number 3 :: axis.key ++ .number index :: optionKey label
  | .cellValue category cell old new =>
    .number 4 :: .text category :: cell.key ++ [.number old, .number new]
  | .text target locale field old new =>
    .number 5 :: target.key ++ .text locale :: .text field :: optionKey old ++ optionKey new

def Change.le (a b : Change) : Bool := compareKeys a.key b.key != .gt

/-! ## Change sets -/

/-- The changes of one risk definition, each once, in the order of their discovery. -/
structure ChangeSet where
  riskDefinition : String
  changes : DistinctList Change := ∅
  deriving DecidableEq

namespace ChangeSet

def toList (s : ChangeSet) : List Change := s.changes.toList

def push (s : ChangeSet) (c : Change) : ChangeSet := { s with changes := s.changes.push c }

def length (s : ChangeSet) : Nat := s.changes.length

def isEmpty (s : ChangeSet) : Bool := s.changes.isEmpty

def contains (s : ChangeSet) (c : Change) : Bool := s.changes.contains c

def kinds (s : ChangeSet) : EnumSet ChangeKind := .ofList (s.toList.map (·.kind))

def ofKind (s : ChangeSet) (k : ChangeKind) : List Change := s.toList.filter fun c => c.kind = k

/-- The distinct effects of the changes, in order. -/
def effects (s : ChangeSet) : List ChangeEffect := distinct (s.toList.flatMap (·.effects))

def requiresRecalculation (s : ChangeSet) : Bool := s.effects.contains .recalculation

def requiresMigration (s : ChangeSet) : Bool := !s.effects.isEmpty

end ChangeSet

end TemplateCatalog
