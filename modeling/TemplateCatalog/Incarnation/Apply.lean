import TemplateCatalog.Incarnation.Wiring
import TemplateCatalog.Plan.CreationOrder

/-!
# Applying a plan

An application has two phases. `computeBatch` reads from the repository and
works out all writes: first it instantiates the new elements in creation order,
then it wires their references. `apply` commits the batch, which is all or
nothing, so that an application that fails leaves the store as it was.
-/

namespace TemplateCatalog

/-- What a successful application did. -/
structure AppliedIncarnation where
  /-- The element of every description, in the order of the plan. -/
  elements : List ElementId
  /-- The new elements in creation order. -/
  created : List ElementId
  /-- The stored elements with new relations. -/
  modified : List ElementId
  deriving DecidableEq

namespace IncarnationPlan

/-- The first structural fault of descriptions, given what elements others create. -/
def faultFrom? (plan : IncarnationPlan) (allocated : List ElementId) :
    List IncarnationDescription → Option PlanFault
  | [] => none
  | d :: rest =>
    let element := d.disposition.element
    if d.disposition.isCreate && allocated.contains element then some (.allocatedTwice element)
    else if d.plannedTargets.any (plan.descriptions.length ≤ ·) then some (.pastPlan d.item)
    else
      plan.faultFrom? (if d.disposition.isCreate then element :: allocated else allocated) rest

/-- The first structural fault: an element allocated twice, or a target past the plan. -/
def fault? (plan : IncarnationPlan) : Option PlanFault := plan.faultFrom? [] plan.descriptions

/-- The descriptions in creation order. -/
def inCreationOrder (plan : IncarnationPlan) : List IncarnationDescription :=
  (TemplateCatalog.creationOrder plan.descriptions).filterMap fun n => plan.descriptions[n]?

end IncarnationPlan

/-! ## Instantiation -/

/-- Whether the domain defines the sub-type of an item with its status. -/
def Domain.definesSubType (domain : Domain) (item : TemplateItem) (subType : String) : Bool :=
  (domain.elementType? item.elementType).any fun d => d.allows subType (item.status.getD "")

/-- The element that an item gives, without relations. -/
def TemplateItem.toElement (item : TemplateItem) (id : ElementId) (unit : UnitId)
    (domain : DomainId) : Element where
  id
  owner := unit
  domain
  name := item.name
  abbreviation := item.abbreviation
  description := item.description
  elementType := item.elementType
  subType := item.subType
  status := item.status
  appliedItem := item.applied?.map fun applied => ⟨applied, item.version⟩
  customAspects := item.customAspects

def Domain.instantiate (domain : Domain) (item : TemplateItem) (id : ElementId) (unit : UnitId) :
    Except ApplyError Element :=
  match item.subType with
  | none => .ok (item.toElement id unit domain.id)
  | some subType =>
    if domain.definesSubType item subType then .ok (item.toElement id unit domain.id)
    else .error (.invalidSubType item.id subType (item.status.getD ""))

/-- The guard that goes with the creation of an item. -/
def IncarnationPlan.guardFor? (plan : IncarnationPlan) (item : TemplateItem) :
    Option IncarnationGuard :=
  item.applied?.map fun applied =>
    ⟨applied, if plan.lookup = .sameVersion then some item.version else none⟩

/-! ## The batch -/

/-- What an application goes by. -/
structure Application where
  connection : Connection
  graph : TemplateGraph
  domain : Domain
  plan : IncarnationPlan

namespace Application

variable (a : Application)

/-- The unit must exist and work with the domain, and the plan must be well formed. -/
def check : Except ApplyError Unit :=
  if a.plan.domain ≠ a.domain.id then .error (.domainMismatch a.domain.id a.plan.domain)
  else
    match a.connection.findUnit a.plan.unit with
    | .error e => .error (.repository e)
    | .ok none => .error (.unitNotFound a.plan.unit)
    | .ok (some unit) =>
      if !unit.isAssociatedWith a.domain.id then .error (.unitNotInDomain unit.id a.domain.id)
      else
        match a.plan.fault? with
        | some fault => .error (.invalidPlan fault)
        | none => .ok ()

/-- Creates the elements of descriptions in turn, and collects their guards. -/
def createAll (ws : Workspace) (guards : List IncarnationGuard) :
    List IncarnationDescription → Except ApplyError (Workspace × List IncarnationGuard)
  | [] => .ok (ws, guards)
  | d :: rest =>
    match d.disposition with
    | .reuse _ => createAll ws guards rest
    | .create id isGuarded =>
      match a.graph.get? d.item with
      | none => .error (.itemNotFound d.item)
      | some item => do
        let element ← a.domain.instantiate item id a.plan.unit
        let added := if isGuarded then (a.plan.guardFor? item).toList else []
        createAll (ws.create element) (guards ++ added) rest

/-- Realizes references in turn. -/
def wireReferences (x : Wiring) (ws : Workspace) :
    List ResolvedReference → Except ApplyError Workspace
  | [] => .ok ws
  | r :: rest => do
    let ws ← x.wire ws r
    wireReferences x ws rest

/-- Wires the descriptions that create elements, in turn. -/
def wireAll (ws : Workspace) : List IncarnationDescription → Except ApplyError Workspace
  | [] => .ok ws
  | d :: rest =>
    if d.disposition.isCreate then do
      let ws ← wireReferences ⟨a.domain, a.plan, d⟩ ws d.references
      wireAll ws rest
    else wireAll ws rest

/-- All writes of the application, worked out from reads alone. -/
def computeBatch : Except ApplyError Batch := do
  a.check
  let ds := a.plan.inCreationOrder
  let (ws, guards) ← a.createAll { connection := a.connection, unit := a.plan.unit } [] ds
  let ws ← a.wireAll ws ds
  return {
    unit := a.plan.unit
    domain := a.domain.id
    created := ws.created
    modified := ws.modified
    guards }

/-- What is reported once a batch is committed. -/
def report (b : Batch) : AppliedIncarnation where
  elements := a.plan.descriptions.map (·.disposition.element)
  created := b.created.map (·.id)
  modified := b.modified.map (·.id)

/-- Commits the batch of the application; the result is the report and the new store. -/
def run : Except ApplyError (AppliedIncarnation × Store) := do
  let batch ← a.computeBatch
  match a.connection.commit batch with
  | .error e => .error (.repository e)
  | .ok store => return (a.report batch, store)

end Application

end TemplateCatalog
