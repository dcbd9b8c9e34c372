import TemplateCatalog.Json.Form
import TemplateCatalog.Model.Error

/-!
# Vocabularies of the model

The closed sets of terms: types of elements and of tailoring references, roles,
statuses, request modes and lookup policies, each with its fixed spelling.
-/

namespace TemplateCatalog

/-- Whether two texts are equal when the case of ASCII letters is ignored. -/
def equalIgnoringCase (a b : String) : Bool :=
  a.toList.map Char.toLower == b.toList.map Char.toLower

/-- The first term whose name equals the text when the case of ASCII letters is ignored. -/
def Vocabulary.find {α : Type} [Enumerated α] (vocabulary : Vocabulary) (name : α → String)
    (text : String) : Except ModelError α :=
  match (Enumerated.all : List α).find? fun a => equalIgnoringCase (name a) text with
  | some a => .ok a
  | none => .error (.unknownLiteral vocabulary text)

/-! ## Element types -/

inductive ElementType where
  | asset
  | control
  | document
  | incident
  | person
  | process
  | scenario
  | scope
  deriving DecidableEq, Repr, Inhabited

namespace ElementType

/-- The term for one element of the type. -/
def term : ElementType → String
  | .asset => "asset"
  | .control => "control"
  | .document => "document"
  | .incident => "incident"
  | .person => "person"
  | .process => "process"
  | .scenario => "scenario"
  | .scope => "scope"

instance : ToString ElementType := ⟨term⟩

instance : Literal ElementType where
  all := [.asset, .control, .document, .incident, .person, .process, .scenario, .scope]
  mem_all t := by cases t <;> decide
  literal
    | .asset => "ASSET"
    | .control => "CONTROL"
    | .document => "DOCUMENT"
    | .incident => "INCIDENT"
    | .person => "PERSON"
    | .process => "PROCESS"
    | .scenario => "SCENARIO"
    | .scope => "SCOPE"

/-- Whether elements of the type carry risks and implementations. -/
def isRiskAffected (t : ElementType) : Bool := t = .asset || t = .process || t = .scope

/-- Whether elements of the type are composed of parts. -/
def isComposite (t : ElementType) : Bool := t ≠ .scope

def parse : String → Except ModelError ElementType := Vocabulary.elementType.find term

end ElementType

/-! ## Types of tailoring references -/

inductive ReferenceType where
  | copy
  | copyAlways
  | link
  | linkExternal
  | part
  | composite
  | scope
  | member
  | risk
  | controlImplementation
  | requirementImplementation
  deriving DecidableEq, Repr, Inhabited

namespace ReferenceType

instance : Literal ReferenceType where
  all := [.copy, .copyAlways, .link, .linkExternal, .part, .composite, .scope, .member, .risk,
    .controlImplementation, .requirementImplementation]
  mem_all t := by cases t <;> decide
  literal
    | .copy => "COPY"
    | .copyAlways => "COPY_ALWAYS"
    | .link => "LINK"
    | .linkExternal => "LINK_EXTERNAL"
    | .part => "PART"
    | .composite => "COMPOSITE"
    | .scope => "SCOPE"
    | .member => "MEMBER"
    | .risk => "RISK"
    | .controlImplementation => "CONTROL_IMPLEMENTATION"
    | .requirementImplementation => "REQUIREMENT_IMPLEMENTATION"

instance : ToString ReferenceType := ⟨literal⟩

/-- Structural copies: the target is incarnated together with the origin. -/
def isCopy (t : ReferenceType) : Bool := t = .copy || t = .copyAlways

/-- References without whose target the origin would not be consistent. -/
def isIntegrityRequired (t : ReferenceType) : Bool :=
  t = .risk || t = .controlImplementation || t = .requirementImplementation

/-- The type of the same relation seen from its other end. -/
def inverse : ReferenceType → Option ReferenceType
  | .link => some .linkExternal
  | .linkExternal => some .link
  | .part => some .composite
  | .composite => some .part
  | .scope => some .member
  | .member => some .scope
  | _ => none

def parse : String → Except ModelError ReferenceType := Vocabulary.referenceType.find literal

end ReferenceType

/-! ## Roles, statuses, modes and policies -/

/-- The part that a further item of a reference plays besides its target. -/
inductive AuxiliaryRole where
  | riskOwner
  | mitigation
  | responsible
  deriving DecidableEq, Repr, Inhabited

instance : Literal AuxiliaryRole where
  all := [.riskOwner, .mitigation, .responsible]
  mem_all r := by cases r <;> decide
  literal
    | .riskOwner => "RISK_OWNER"
    | .mitigation => "MITIGATION"
    | .responsible => "RESPONSIBLE"

def AuxiliaryRole.term : AuxiliaryRole → String
  | .riskOwner => "risk owner"
  | .mitigation => "mitigation"
  | .responsible => "responsible"

/-- How far a requirement is implemented. -/
inductive ImplementationStatus where
  | yes
  | no
  | partially
  | notApplicable
  | unknown
  deriving DecidableEq, Repr

instance : Inhabited ImplementationStatus := ⟨.unknown⟩

instance : Literal ImplementationStatus where
  all := [.yes, .no, .partially, .notApplicable, .unknown]
  mem_all s := by cases s <;> decide
  literal
    | .yes => "YES"
    | .no => "NO"
    | .partially => "PARTIAL"
    | .notApplicable => "NOT_APPLICABLE"
    | .unknown => "UNKNOWN"

/-- Whether a request brings in the closure over references. -/
inductive RequestMode where
  | manual
  | closure
  deriving DecidableEq, Repr

instance : Inhabited RequestMode := ⟨.closure⟩

instance : Literal RequestMode where
  all := [.manual, .closure]
  mem_all m := by cases m <;> decide
  literal
    | .manual => "MANUAL"
    | .closure => "DEFAULT"

/-- When an element that was made from the same item is reused. -/
inductive LookupPolicy where
  | never
  | forReferencedItems
  | always
  | sameVersion
  deriving DecidableEq, Repr

instance : Inhabited LookupPolicy := ⟨.forReferencedItems⟩

instance : Literal LookupPolicy where
  all := [.never, .forReferencedItems, .always, .sameVersion]
  mem_all p := by cases p <;> decide
  literal
    | .never => "NEVER"
    | .forReferencedItems => "FOR_REFERENCED_ITEMS"
    | .always => "ALWAYS"
    | .sameVersion => "SAME_VERSION"

/-- Whether the policy looks for incarnations of an item that was, or was not, requested. -/
def LookupPolicy.appliesTo (p : LookupPolicy) (requested : Bool) : Bool :=
  match p with
  | .never => false
  | .forReferencedItems => !requested
  | .always | .sameVersion => true

end TemplateCatalog
