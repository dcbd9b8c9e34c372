import TemplateCatalog.Model.RiskDefinition
import TemplateCatalog.Model.Version
import TemplateCatalog.Model.Vocabulary

/-!
# Elements and units

Elements are what an incarnation produces inside a unit. They carry relations
to other elements, and values that point into the definitions of a domain.

Adding a relation that is present changes nothing: links are told apart by type
and target, parts and members by the element, risks by their scenario.
-/

namespace TemplateCatalog

/-- Values by custom aspect and, within an aspect, by attribute. -/
abbrev CustomAspects := Dictionary (Dictionary FreeForm)

/-- The catalog item that an element was made from, in the version of that time. -/
structure AppliedItem where
  item : ItemId
  version : TemplateVersion
  deriving DecidableEq, Repr

structure CustomLink where
  linkType : String
  target : ElementId
  domain : DomainId
  attributes : Dictionary FreeForm := ∅
  deriving DecidableEq

/-- A cell of the matrix of a category, both named by position. -/
structure RiskValueRef where
  riskDefinition : String
  category : Nat
  cell : CellRef
  deriving DecidableEq, Repr

/-- The risk of an element with regard to one scenario. -/
structure Risk where
  scenario : ElementId
  domain : DomainId
  owner : Option ElementId := none
  mitigation : Option ElementId := none
  values : List RiskValueRef := []
  deriving DecidableEq

namespace Risk

def addValue (r : Risk) (v : RiskValueRef) : Risk :=
  if v ∈ r.values then r else { r with values := r.values ++ [v] }

def addValues (r : Risk) (vs : List RiskValueRef) : Risk := vs.foldl addValue r

end Risk

structure ControlImplementation where
  control : ElementId
  responsible : Option ElementId := none
  description : Option String := none
  deriving DecidableEq

structure RequirementImplementation where
  control : ElementId
  status : ImplementationStatus
  statement : Option String := none
  responsible : Option ElementId := none
  deriving DecidableEq

structure Element where
  id : ElementId
  owner : UnitId
  domain : DomainId
  name : String
  abbreviation : Option String := none
  description : Option String := none
  elementType : ElementType
  subType : Option String := none
  status : Option String := none
  appliedItem : Option AppliedItem := none
  customAspects : CustomAspects := ∅
  links : List CustomLink := []
  parts : List ElementId := []
  members : List ElementId := []
  risks : List Risk := []
  controlImplementations : List ControlImplementation := []
  requirementImplementations : List RequirementImplementation := []
  deriving DecidableEq

namespace Element

def isIncarnationOf (e : Element) (item : ItemId) : Bool :=
  e.appliedItem.any fun a => a.item == item

def hasLink (e : Element) (linkType : String) (target : ElementId) : Bool :=
  e.links.any fun l => l.linkType == linkType && l.target == target

def addLink (e : Element) (link : CustomLink) : Element :=
  if e.hasLink link.linkType link.target then e else { e with links := e.links ++ [link] }

def addPart (e : Element) (part : ElementId) : Element :=
  if part ∈ e.parts then e else { e with parts := e.parts ++ [part] }

def addMember (e : Element) (member : ElementId) : Element :=
  if member ∈ e.members then e else { e with members := e.members ++ [member] }

def risk? (e : Element) (scenario : ElementId) : Option Risk :=
  e.risks.find? fun r => r.scenario == scenario

/-- Changes the first risk for a scenario, or a new one if there is none. -/
def updateRisk (e : Element) (scenario : ElementId) (domain : DomainId) (f : Risk → Risk) :
    Element :=
  match e.risks.findIdx? fun r => r.scenario == scenario with
  | some i => { e with risks := e.risks.modify i f }
  | none => { e with risks := e.risks ++ [f { scenario, domain }] }

def addControlImplementation (e : Element) (c : ControlImplementation) : Element :=
  if e.controlImplementations.any fun x => x.control == c.control then e
  else { e with controlImplementations := e.controlImplementations ++ [c] }

def addRequirementImplementation (e : Element) (r : RequirementImplementation) : Element :=
  if e.requirementImplementations.any fun x => x.control == r.control then e
  else { e with requirementImplementations := e.requirementImplementations ++ [r] }

def riskValues (e : Element) : List RiskValueRef := e.risks.flatMap (·.values)

def attributeValue? (e : Element) (aspect key : String) : Option FreeForm :=
  (e.customAspects.get? aspect).bind fun attributes => attributes.get? key

end Element

/-- A container for a client's elements. -/
structure OrgUnit where
  id : UnitId
  name : String
  domains : List DomainId := []
  deriving DecidableEq, Repr

def OrgUnit.isAssociatedWith (u : OrgUnit) (domain : DomainId) : Bool := domain ∈ u.domains

end TemplateCatalog
