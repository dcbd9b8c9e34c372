import TemplateCatalog.Model.TemplateGraph

/-!
# Domains, templates and profiles

A domain template is a versioned set of definitions. A client's domain is
derived from a template and adds a catalog of items; a profile is a bundle of
items. Both give a template graph.
-/

namespace TemplateCatalog

/-- The type of the values of a custom attribute. -/
inductive AttributeDefinition where
  | text
  | integer
  | boolean
  | date
  | enum (allowedValues : List String)
  | list (item : AttributeDefinition)
  deriving DecidableEq, Repr, Inhabited

structure SubTypeDefinition where
  statuses : List String
  translations : Translations := ∅
  deriving DecidableEq

structure CustomAspectDefinition where
  attributes : Dictionary AttributeDefinition := ∅
  deriving DecidableEq

instance : Inhabited CustomAspectDefinition := ⟨{}⟩

structure LinkDefinition where
  targetType : ElementType
  targetSubType : Option String := none
  attributes : Dictionary AttributeDefinition := ∅
  deriving DecidableEq

/-- What elements of one type may look like in a domain. -/
structure ElementTypeDefinition where
  elementType : ElementType
  subTypes : Dictionary SubTypeDefinition := ∅
  customAspects : Dictionary CustomAspectDefinition := ∅
  links : Dictionary LinkDefinition := ∅
  translations : Translations := ∅
  deriving DecidableEq

namespace ElementTypeDefinition

/-- Whether an element of the sub-type may be in the status. -/
def allows (d : ElementTypeDefinition) (subType status : String) : Bool :=
  (d.subTypes.get? subType).any fun s => s.statuses.contains status

def withSubType (d : ElementTypeDefinition) (subType : String) (statuses : List String) :
    ElementTypeDefinition :=
  { d with subTypes := d.subTypes.insert subType { statuses } }

def attributeDefinition? (d : ElementTypeDefinition) (aspect key : String) :
    Option AttributeDefinition :=
  (d.customAspects.get? aspect).bind fun a => a.attributes.get? key

def withAttribute (d : ElementTypeDefinition) (aspect key : String)
    (definition : AttributeDefinition) : ElementTypeDefinition :=
  let present := (d.customAspects.get? aspect).getD {}
  let extended := { present with attributes := present.attributes.insert key definition }
  { d with customAspects := d.customAspects.insert aspect extended }

end ElementTypeDefinition

/-- A domain's defaults for incarnations. -/
structure IncarnationConfiguration where
  mode : RequestMode := .closure
  lookup : LookupPolicy := .forReferencedItems
  included : Option (EnumSet ReferenceType) := none
  excluded : Option (EnumSet ReferenceType) := none
  deriving DecidableEq

instance : Inhabited IncarnationConfiguration := ⟨{}⟩

def IncarnationConfiguration.filter (c : IncarnationConfiguration) : ReferenceFilter :=
  .ofSets c.included c.excluded

structure DomainTemplate where
  id : TemplateId
  name : String
  version : TemplateVersion
  riskDefinitions : List RiskDefinition := []
  elementTypes : List ElementTypeDefinition := []
  deriving DecidableEq

/-- The first risk definition with an id. -/
def findRiskDefinition? (ds : List RiskDefinition) (id : String) : Option RiskDefinition :=
  ds.find? fun d => d.id == id

/-- The first definition of an element type. -/
def findElementType? (ds : List ElementTypeDefinition) (t : ElementType) :
    Option ElementTypeDefinition :=
  ds.find? fun d => d.elementType = t

def DomainTemplate.riskDefinition? (t : DomainTemplate) (id : String) : Option RiskDefinition :=
  findRiskDefinition? t.riskDefinitions id

structure Domain where
  id : DomainId
  name : String
  templateId : TemplateId
  templateVersion : TemplateVersion
  riskDefinitions : List RiskDefinition := []
  elementTypes : List ElementTypeDefinition := []
  configuration : IncarnationConfiguration := {}
  catalog : List TemplateItem := []
  deriving DecidableEq

namespace Domain

/-- A domain with the definitions of a template and an empty catalog. -/
def ofTemplate (id : DomainId) (t : DomainTemplate) : Domain where
  id
  name := t.name
  templateId := t.id
  templateVersion := t.version
  riskDefinitions := t.riskDefinitions
  elementTypes := t.elementTypes

def nspace (d : Domain) : ItemNamespace := .domain d.id

def riskDefinition? (d : Domain) (id : String) : Option RiskDefinition :=
  findRiskDefinition? d.riskDefinitions id

def elementType? (d : Domain) (t : ElementType) : Option ElementTypeDefinition :=
  findElementType? d.elementTypes t

def graph (d : Domain) : Except ModelError TemplateGraph :=
  TemplateGraph.ofItems d.catalog

end Domain

/-- A bundle of preconfigured items. -/
structure Profile where
  id : ProfileId
  name : String
  description : Option String := none
  language : Option String := none
  items : List TemplateItem := []
  deriving DecidableEq

namespace Profile

def nspace (p : Profile) : ItemNamespace := .profile p.id

def graph (p : Profile) : Except ModelError TemplateGraph :=
  TemplateGraph.ofItems p.items

end Profile

end TemplateCatalog
