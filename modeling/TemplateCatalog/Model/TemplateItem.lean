import TemplateCatalog.Model.Element

/-!
# Template items

Items of a catalog or a profile. Items refer to one another by tailoring
references, whose kind decides what an incarnation does with the target.

* `applied?` is the catalog item that elements made from an item are tagged with.
* `ReferenceFilter.admits` says which types a traversal may follow; an excluded
  type is never admitted.
-/

namespace TemplateCatalog

/-- Where an item lives. -/
inductive ItemNamespace where
  | domain (id : DomainId)
  | profile (id : ProfileId)
  deriving DecidableEq, Repr

instance : ToString ItemNamespace where
  toString
    | .domain id => s!"domain {id}"
    | .profile id => s!"profile {id}"

/-- The meaning of a reference together with its contents. -/
inductive ReferenceKind where
  | copy
  | copyAlways
  | link (linkType : String) (attributes : Dictionary FreeForm)
  | linkExternal (linkType : String) (attributes : Dictionary FreeForm)
  | part
  | composite
  | scope
  | member
  | risk (owner mitigation : Option ItemId) (values : List RiskValueRef)
  | controlImplementation (responsible : Option ItemId) (description : Option String)
  | requirementImplementation (status : ImplementationStatus) (statement : Option String)
      (responsible : Option ItemId)
  deriving DecidableEq

namespace ReferenceKind

def plainLink (linkType : String) : ReferenceKind := .link linkType ∅

def plainRisk : ReferenceKind := .risk none none []

def type : ReferenceKind → ReferenceType
  | .copy => .copy
  | .copyAlways => .copyAlways
  | .link .. => .link
  | .linkExternal .. => .linkExternal
  | .part => .part
  | .composite => .composite
  | .scope => .scope
  | .member => .member
  | .risk .. => .risk
  | .controlImplementation .. => .controlImplementation
  | .requirementImplementation .. => .requirementImplementation

theorem isCopy_type_iff {k : ReferenceKind} :
    k.type.isCopy = true ↔ k = .copy ∨ k = .copyAlways := by
  cases k <;> simp [type, ReferenceType.isCopy]

def linkType? : ReferenceKind → Option String
  | .link linkType _ | .linkExternal linkType _ => some linkType
  | _ => none

/-- The items that a reference names besides its target, with their roles. -/
def auxiliaryItems : ReferenceKind → List (AuxiliaryRole × ItemId)
  | .risk owner mitigation _ =>
    (owner.map (AuxiliaryRole.riskOwner, ·)).toList ++
      (mitigation.map (AuxiliaryRole.mitigation, ·)).toList
  | .controlImplementation responsible _ | .requirementImplementation _ _ responsible =>
    (responsible.map (AuxiliaryRole.responsible, ·)).toList
  | _ => []

end ReferenceKind

/-- A directed edge between two items. -/
structure TailoringReference where
  id : ReferenceId
  target : ItemId
  kind : ReferenceKind
  deriving DecidableEq

namespace TailoringReference

def type (r : TailoringReference) : ReferenceType := r.kind.type

/-- The target, then the auxiliary items. -/
def namedItems (r : TailoringReference) : List ItemId :=
  r.target :: r.kind.auxiliaryItems.map (·.2)

end TailoringReference

/-- Which types of references may be followed; no `included` set admits all types. -/
structure ReferenceFilter where
  included : Option (EnumSet ReferenceType) := none
  excluded : EnumSet ReferenceType := ∅
  deriving DecidableEq

namespace ReferenceFilter

def all : ReferenceFilter := {}

instance : Inhabited ReferenceFilter := ⟨all⟩

def admits (f : ReferenceFilter) (t : ReferenceType) : Bool :=
  !f.excluded.contains t && f.included.all fun included => included.contains t

/-- The admitted types in declaration order. -/
def admitted (f : ReferenceFilter) : List ReferenceType := Enumerated.all.filter f.admits

/-- A filter from optional sets: without an excluded set nothing is excluded. -/
def ofSets (included excluded : Option (EnumSet ReferenceType)) : ReferenceFilter :=
  ⟨included, excluded.getD ∅⟩

end ReferenceFilter

/-- An item of a catalog or a profile. -/
structure TemplateItem where
  id : ItemId
  nspace : ItemNamespace
  /-- The catalog item that a profile's item was derived from. -/
  appliedCatalogItem : Option ItemId := none
  name : String
  abbreviation : Option String := none
  description : Option String := none
  elementType : ElementType
  subType : Option String := none
  status : Option String := none
  customAspects : CustomAspects := ∅
  version : TemplateVersion := {}
  references : List TailoringReference := []
  deriving DecidableEq

namespace TemplateItem

/-- A catalog item applies itself, a profile's item what it was derived from. -/
def applied? (item : TemplateItem) : Option ItemId :=
  match item.nspace with
  | .domain _ => some item.id
  | .profile _ => item.appliedCatalogItem

def referencesOf (item : TemplateItem) (t : ReferenceType) : List TailoringReference :=
  item.references.filter fun r => r.type = t

end TemplateItem

end TemplateCatalog
