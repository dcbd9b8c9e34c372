import TemplateCatalog.Repository.Store

/-!
# Why a plan cannot be applied

In every case nothing was written.
-/

namespace TemplateCatalog

/-- What is wrong with the structure of a plan. -/
inductive PlanFault where
  | allocatedTwice (element : ElementId)
  | pastPlan (item : ItemId)
  | noPosition (position : Nat)
  deriving DecidableEq, Repr

def PlanFault.message : PlanFault → String
  | .allocatedTwice element => s!"element id {element} allocated twice"
  | .pastPlan item => s!"reference of item {item} points past the plan"
  | .noPosition position => s!"no plan position {position}"

/-- Why elements cannot be related. -/
inductive RelationFault where
  | notAPart (partType : ElementType) (part : ElementId) (compositeType : ElementType)
      (composite : ElementId)
  | wrongType (role : String) (expected : ElementType) (element : ElementId)
      (actual : ElementType)
  | notRiskAffected (actual : ElementType) (element : ElementId)
  deriving DecidableEq, Repr

def RelationFault.message : RelationFault → String
  | .notAPart partType part compositeType composite =>
    s!"{partType} {part} cannot be a part of {compositeType} {composite}"
  | .wrongType role expected element actual =>
    s!"{role} must be a {expected}, {element} is a {actual}"
  | .notRiskAffected actual element =>
    s!"{actual} {element} cannot carry risks or control implementations"

/-- What a risk value fails to point at. -/
inductive RiskValueFault where
  | unknownDefinition
  | noCategory (index : Nat)
  | noCell (cell : CellRef)
  deriving DecidableEq, Repr

def RiskValueFault.message : RiskValueFault → String
  | .unknownDefinition => "unknown risk definition"
  | .noCategory index => s!"no category at index {index}"
  | .noCell cell => s!"no matrix cell at {cell}"

inductive ApplyError where
  | unitNotFound (unit : UnitId)
  | unitNotInDomain (unit : UnitId) (domain : DomainId)
  | domainMismatch (expected actual : DomainId)
  | itemNotFound (item : ItemId)
  | elementNotFound (element : ElementId)
  | foreignElement (element : ElementId) (unit : UnitId)
  | invalidPlan (fault : PlanFault)
  | missingTarget (target requiredBy : ItemId)
  | invalidSubType (item : ItemId) (subType status : String)
  | modelConsistency (fault : RelationFault)
  | invalidRiskValue (item : ItemId) (riskDefinition : String) (fault : RiskValueFault)
  | repository (error : RepositoryError)
  deriving DecidableEq, Repr

namespace ApplyError

def message : ApplyError → String
  | .unitNotFound unit => s!"unit not found: {unit}"
  | .unitNotInDomain unit domain => s!"unit {unit} is not associated with domain {domain}"
  | .domainMismatch expected actual => s!"plan targets domain {actual}, applier works on {expected}"
  | .itemNotFound item => s!"template item not found: {item}"
  | .elementNotFound element => s!"element not found: {element}"
  | .foreignElement element unit => s!"element {element} does not belong to unit {unit}"
  | .invalidPlan fault => s!"invalid plan: {fault.message}"
  | .missingTarget target requiredBy =>
    s!"{target} not included in request but required by {requiredBy}"
  | .invalidSubType item subType status =>
    s!"item {item}: sub-type '{subType}' with status '{status}' is not defined"
  | .modelConsistency fault => s!"model consistency violated: {fault.message}"
  | .invalidRiskValue item riskDefinition fault =>
    s!"item {item}: invalid risk value in '{riskDefinition}': {fault.message}"
  | .repository error => s!"repository error: {error.message}"

/-- Whether resolving and applying again may succeed. -/
def isRetryable : ApplyError → Bool
  | .repository error => error.isRetryable
  | _ => false

end ApplyError

end TemplateCatalog
