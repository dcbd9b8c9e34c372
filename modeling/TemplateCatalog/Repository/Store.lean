import TemplateCatalog.Collections.Table
import TemplateCatalog.Model.Element

/-!
# The store

Units and elements in the order of their insertion, and the writes of one
transaction. A batch is checked as a whole against the store before anything is
written:

1. the unit exists;
2. no created element exists, every modified one does;
3. no guarded item has an incarnation in the unit and the domain;
4. if names are unique, no created element takes a name of the unit.
-/

namespace TemplateCatalog

inductive RepositoryError where
  | unitNotFound (unit : UnitId)
  | elementNotFound (element : ElementId)
  | elementExists (element : ElementId)
  | duplicateName (unit : UnitId) (name : String)
  | concurrentIncarnation (item : ItemId) (element : ElementId)
  | unavailable (reason : String)
  deriving DecidableEq, Repr

namespace RepositoryError

def message : RepositoryError → String
  | .unitNotFound unit => s!"unit not found: {unit}"
  | .elementNotFound element => s!"element not found: {element}"
  | .elementExists element => s!"element already exists: {element}"
  | .duplicateName unit name => s!"element name '{name}' already used in unit {unit}"
  | .concurrentIncarnation item element =>
    s!"item {item} was incarnated concurrently as {element}"
  | .unavailable reason => s!"repository unavailable: {reason}"

/-- Whether the same call may succeed later. -/
def isRetryable : RepositoryError → Bool
  | .unavailable _ => true
  | _ => false

def isConstraintViolation : RepositoryError → Bool
  | .duplicateName .. | .elementExists _ | .concurrentIncarnation .. => true
  | _ => false

end RepositoryError

/-- An incarnation that must not exist; without a version, none of any version. -/
structure IncarnationGuard where
  item : ItemId
  version : Option TemplateVersion := none
  deriving DecidableEq

def IncarnationGuard.isViolatedBy (g : IncarnationGuard) (e : Element) : Bool :=
  e.appliedItem.any fun a => a.item == g.item && g.version.all fun v => v == a.version

/-- All writes of one transaction. -/
structure Batch where
  unit : UnitId
  domain : DomainId
  created : List Element := []
  modified : List Element := []
  guards : List IncarnationGuard := []
  deriving DecidableEq

def Batch.isEmpty (b : Batch) : Bool := b.created.isEmpty && b.modified.isEmpty

structure Store where
  units : Table OrgUnit.id := ∅
  elements : Table Element.id := ∅
  uniqueNames : Bool := false

namespace Store

def unit? (s : Store) (id : UnitId) : Option OrgUnit := s.units.get? id

def element? (s : Store) (id : ElementId) : Option Element := s.elements.get? id

/-- The elements that a unit holds in a domain. -/
def elementsOf (s : Store) (unit : UnitId) (domain : DomainId) : List Element :=
  s.elements.rows.filter fun e => e.owner = unit && e.domain = domain

/-- The elements of a unit and a domain that were made from any of the items. -/
def incarnationsOf (s : Store) (unit : UnitId) (domain : DomainId) (items : List ItemId) :
    List Element :=
  (s.elementsOf unit domain).filter fun e => e.appliedItem.any fun a => items.contains a.item

def elementsInDomain (s : Store) (domain : DomainId) : List Element :=
  s.elements.rows.filter fun e => e.domain = domain

def insertUnit (s : Store) (u : OrgUnit) : Store := { s with units := s.units.put u }

/-- Adds or replaces an element without any check. -/
def insertElement (s : Store) (e : Element) : Store := { s with elements := s.elements.put e }

/-- The first guard that an element violates, with that element. -/
def guardViolation? (s : Store) (b : Batch) : Option RepositoryError :=
  b.guards.findSome? fun g =>
    ((s.elementsOf b.unit b.domain).find? g.isViolatedBy).map fun e =>
      .concurrentIncarnation g.item e.id

/-- The names of a unit after the modifications of a batch. -/
def namesAfter (s : Store) (b : Batch) : List String :=
  let untouched := s.elements.rows.filter fun e =>
    e.owner = b.unit && !(b.modified.map (·.id)).contains e.id
  (untouched ++ b.modified).map (·.name)

/-- The first name that is taken already. -/
def takenName? : (taken : List String) → List String → Option String
  | _, [] => none
  | taken, name :: rest =>
    if taken.contains name then some name else takenName? (name :: taken) rest

def nameViolation? (s : Store) (b : Batch) : Option RepositoryError :=
  if s.uniqueNames then
    (takenName? (s.namesAfter b) (b.created.map (·.name))).map (.duplicateName b.unit)
  else none

/-- The first reason not to write a batch. -/
def violation? (s : Store) (b : Batch) : Option RepositoryError :=
  if !s.units.contains b.unit then some (.unitNotFound b.unit)
  else
    ((b.created.find? fun e => s.elements.contains e.id).map fun e => .elementExists e.id)
    |>.or ((b.modified.find? fun e => !s.elements.contains e.id).map fun e =>
      .elementNotFound e.id)
    |>.or (s.guardViolation? b)
    |>.or (s.nameViolation? b)

def write (s : Store) (b : Batch) : Store :=
  { s with elements := s.elements.putAll (b.modified ++ b.created) }

/-- Writes a whole batch or nothing. -/
def commit (s : Store) (b : Batch) : Except RepositoryError Store :=
  match s.violation? b with
  | some e => .error e
  | none => .ok (s.write b)

end Store

end TemplateCatalog
