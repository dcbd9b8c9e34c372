import TemplateCatalog.Plan.Request

/-!
# Plans

A plan describes, item by item, which element stands for the item and where the
item's references lead. It is computed for a request, may be edited, and is then
applied or dropped.
-/

namespace TemplateCatalog

/-- Whether a description creates an element or reuses one. -/
inductive Disposition where
  /-- A guarded creation fails if an incarnation appeared since the lookup. -/
  | create (element : ElementId) (isGuarded : Bool)
  | reuse (element : ElementId)
  deriving DecidableEq, Repr

namespace Disposition

def element : Disposition → ElementId
  | .create e _ | .reuse e => e

def isCreate : Disposition → Bool
  | .create .. => true
  | .reuse _ => false

end Disposition

/-- Where a reference leads. -/
inductive ReferenceTarget where
  /-- A description of the same plan, by position. -/
  | planned (position : Nat)
  /-- An element outside the plan. -/
  | existing (element : ElementId)
  /-- Neither planned nor found. -/
  | unresolved (item : ItemId)
  deriving DecidableEq, Repr

namespace ReferenceTarget

def position? : ReferenceTarget → Option Nat
  | .planned p => some p
  | _ => none

def unresolved? : ReferenceTarget → Option ItemId
  | .unresolved item => some item
  | _ => none

end ReferenceTarget

structure AuxiliaryTarget where
  role : AuxiliaryRole
  item : ItemId
  target : ReferenceTarget
  deriving DecidableEq, Repr

structure ResolvedReference where
  reference : ReferenceId
  targetItem : ItemId
  kind : ReferenceKind
  target : ReferenceTarget
  auxiliary : List AuxiliaryTarget := []
  deriving DecidableEq

namespace ResolvedReference

/-- The main target, then the auxiliary ones. -/
def targets (r : ResolvedReference) : List ReferenceTarget :=
  r.target :: r.auxiliary.map (·.target)

def auxiliary? (r : ResolvedReference) (role : AuxiliaryRole) : Option AuxiliaryTarget :=
  r.auxiliary.find? fun a => a.role = role

end ResolvedReference

/-- An item of the plan and the element that stands for it. -/
structure IncarnationDescription where
  item : ItemId
  /-- Requested, or reached from a requested item by copies. -/
  requested : Bool
  disposition : Disposition
  references : List ResolvedReference := []
  deriving DecidableEq

namespace IncarnationDescription

def targets (d : IncarnationDescription) : List ReferenceTarget :=
  d.references.flatMap (·.targets)

/-- The plan positions that the description refers to. -/
def plannedTargets (d : IncarnationDescription) : List Nat :=
  d.targets.filterMap (·.position?)

end IncarnationDescription

/-- A reference that could not be followed. -/
inductive IntegrityIssue where
  | danglingReference (origin : ItemId) (reference : ReferenceId) (target : ItemId)
  | crossNamespace (origin : ItemId) (reference : ReferenceId) (target : ItemId)
      (nspace : ItemNamespace)
  deriving DecidableEq, Repr

/-- The item whose reference is broken. -/
def IntegrityIssue.origin : IntegrityIssue → ItemId
  | .danglingReference origin .. | .crossNamespace origin .. => origin

structure IncarnationPlan where
  unit : UnitId
  domain : DomainId
  lookup : LookupPolicy
  /-- Requested items first, then in the order of discovery. -/
  descriptions : List IncarnationDescription
  /-- Positions of descriptions, targets before their origins. -/
  creationOrder : List Nat
  issues : List IntegrityIssue := []
  deriving DecidableEq

namespace IncarnationPlan

def createCount (p : IncarnationPlan) : Nat := p.descriptions.countP (·.disposition.isCreate)

def reuseCount (p : IncarnationPlan) : Nat := p.descriptions.length - p.createCount

def descriptionFor? (p : IncarnationPlan) (item : ItemId) : Option IncarnationDescription :=
  p.descriptions.find? fun d => d.item = item

/-- The items that are referred to but neither planned nor found. -/
def unresolved (p : IncarnationPlan) : List ItemId :=
  sortIds ((p.descriptions.flatMap (·.targets)).filterMap (·.unresolved?))

def isComplete (p : IncarnationPlan) : Bool := p.issues.isEmpty && p.unresolved.isEmpty

end IncarnationPlan

end TemplateCatalog
