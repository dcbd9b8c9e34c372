import TemplateCatalog.Migration.Compatibility
import TemplateCatalog.Migration.Diff

/-!
# Breaking changes

What stands in the way of migrating a domain to a template: changes of a kind
that nobody accepted, and removals that hit what elements use. The functions
below find them from the definitions and the elements of the domain.
-/

namespace TemplateCatalog

inductive BreakingChange where
  | unaccepted (riskDefinition : String) (change : Change)
  | riskValueInUse (riskDefinition : String) (category : Nat) (cell : CellRef)
      (element : ElementId) (change : Change)
  | riskDefinitionRemoved (riskDefinition : String) (element : ElementId)
  | subTypeInUse (elementType : ElementType) (subType : String) (element : ElementId)
  | statusInUse (elementType : ElementType) (subType status : String) (element : ElementId)
  | attributeInUse (elementType : ElementType) (aspect key : String) (change : AttributeChange)
      (element : ElementId)
  deriving DecidableEq, Repr

namespace BreakingChange

/-- The element whose data is affected. -/
def element? : BreakingChange → Option ElementId
  | .unaccepted .. => none
  | .riskValueInUse _ _ _ e _ | .riskDefinitionRemoved _ e | .subTypeInUse _ _ e
  | .statusInUse _ _ _ e | .attributeInUse _ _ _ _ e => some e

def message : BreakingChange → String
  | .unaccepted riskDefinition change =>
    s!"risk definition '{riskDefinition}': {change.kind} not accepted"
  | .riskValueInUse riskDefinition category cell element change =>
    s!"risk definition '{riskDefinition}': {change.kind} affects value at {cell} of category " ++
      s!"{category} held by {element}"
  | .riskDefinitionRemoved riskDefinition element =>
    s!"risk definition '{riskDefinition}' removed but used by {element}"
  | .subTypeInUse elementType subType element =>
    s!"{elementType} sub-type '{subType}' removed but used by {element}"
  | .statusInUse elementType subType status element =>
    s!"{elementType} sub-type '{subType}' status '{status}' removed but used by {element}"
  | .attributeInUse elementType aspect key change element =>
    s!"{elementType} attribute '{aspect}.{key}' {change.title} but set on {element}"

end BreakingChange

/-! ## Risk values -/

/-- Whether a change removes what a risk value of the old definition points at. -/
def Change.hits (change : Change) (old : RiskDefinition) (v : RiskValueRef) : Bool :=
  match change with
  | .remove axis index _ =>
    match axis with
    | .category _ | .matrix _ => v.category == index
    | .impact category =>
      (old.categories.findIdx? fun c => c.id == category) == some v.category &&
        v.cell.row == index
    | .probability => v.cell.column == index
    | .riskValue =>
      ((old.categories[v.category]?).bind fun c => c.cell? v.cell).any fun c => c.value == index
  | _ => false

/-- The risk values of elements that a change hits. -/
def Change.valuesInUse (change : Change) (old : RiskDefinition) (elements : List Element) :
    List BreakingChange :=
  elements.flatMap fun e =>
    (e.riskValues.filter fun v => v.riskDefinition == old.id && change.hits old v).map fun v =>
      .riskValueInUse old.id v.category v.cell e.id change

namespace ChangeSet

/-- The changes of kinds that are not accepted. -/
def unaccepted (s : ChangeSet) (accepted : EnumSet ChangeKind) : List BreakingChange :=
  (s.toList.filter fun c => !accepted.contains c.kind).map (.unaccepted s.riskDefinition)

/-- A change that hits risk values is reported for each of them, whether it is accepted or not;
any other change is reported if it is not accepted. -/
def breaks (s : ChangeSet) (old : RiskDefinition) (elements : List Element)
    (accepted : EnumSet ChangeKind) : List BreakingChange :=
  s.toList.flatMap fun c =>
    let hits := c.valuesInUse old elements
    if !hits.isEmpty then hits
    else if accepted.contains c.kind then []
    else [.unaccepted s.riskDefinition c]

end ChangeSet

/-! ## Removed risk definitions -/

def Element.usesRiskDefinition (e : Element) (id : String) : Bool :=
  e.riskValues.any fun v => v.riskDefinition == id

/-- The users of definitions that the template lacks, in the order of their identifiers. -/
def removedRiskDefinitions (domain : Domain) (template : DomainTemplate)
    (elements : List Element) : List BreakingChange :=
  (domain.riskDefinitions.filter fun d => (template.riskDefinition? d.id).isNone).flatMap fun d =>
    let users := sortIds ((elements.filter fun e => e.usesRiskDefinition d.id).map (·.id))
    users.map (.riskDefinitionRemoved d.id)

/-! ## Element types -/

namespace ElementTypeDefinition

variable (old : ElementTypeDefinition) (new : Option ElementTypeDefinition)
  (elements : List Element)

/-- Elements of the type with a sub-type that is gone, or in a status that is gone. -/
def subTypeBreaks (subType : String) (definition : SubTypeDefinition) : List BreakingChange :=
  let users := elements.filter fun e =>
    e.elementType = old.elementType && e.subType == some subType
  match new.bind fun d => d.subTypes.get? subType with
  | none => users.map fun e => .subTypeInUse old.elementType subType e.id
  | some kept =>
    (definition.statuses.filter fun s => !kept.statuses.contains s).flatMap fun status =>
      (users.filter fun e => e.status == some status).map fun e =>
        .statusInUse old.elementType subType status e.id

/-- Elements of the type with a value of an attribute that is gone or not compatible. -/
def attributeBreaks (aspect key : String) (definition : AttributeDefinition) :
    List BreakingChange :=
  match definition.change? (new.bind fun d => d.attributeDefinition? aspect key) with
  | none => []
  | some change =>
    (elements.filter fun e =>
      e.elementType = old.elementType && (e.attributeValue? aspect key).isSome).map fun e =>
        .attributeInUse old.elementType aspect key change e.id

def breaks : List BreakingChange :=
  (old.subTypes.entries.flatMap fun (subType, definition) =>
      old.subTypeBreaks new elements subType definition) ++
    old.customAspects.entries.flatMap fun (aspect, definition) =>
      definition.attributes.entries.flatMap fun (key, definition) =>
        old.attributeBreaks new elements aspect key definition

end ElementTypeDefinition

/-- Compares each old definition with the first new definition of its type. -/
def elementTypeBreaks (old new : List ElementTypeDefinition) (elements : List Element) :
    List BreakingChange :=
  old.flatMap fun d => d.breaks (findElementType? new d.elementType) elements

end TemplateCatalog
