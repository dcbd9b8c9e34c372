import TemplateCatalog.Model.Id

/-!
# Errors of the model

Why a value of the model cannot be built or is not valid.
-/

namespace TemplateCatalog

/-- A vocabulary whose terms users may write in any case. -/
inductive Vocabulary where
  | elementType
  | referenceType
  | changeKind
  deriving DecidableEq, Repr

def Vocabulary.title : Vocabulary → String
  | .elementType => "element type"
  | .referenceType => "tailoring reference type"
  | .changeKind => "change kind"

/-- What is wrong with the shape of a risk definition. -/
inductive ShapeFault where
  | duplicateCategory (category : String)
  | rowCount (category : String) (rows impacts : Nat)
  | cellCount (category : String) (row cells probabilities : Nat)
  | valueOffScale (category : String) (row column : Nat)
  deriving DecidableEq, Repr

def ShapeFault.message : ShapeFault → String
  | .duplicateCategory category => s!"duplicate category '{category}'"
  | .rowCount category rows impacts =>
    s!"category '{category}' has {rows} matrix rows for {impacts} impacts"
  | .cellCount category row cells probabilities =>
    s!"category '{category}' row {row} has {cells} cells for {probabilities} probabilities"
  | .valueOffScale category row column =>
    s!"category '{category}' cell ({row},{column}) exceeds the risk value scale"

inductive ModelError where
  | invalidVersion (text : String)
  | duplicateItem (item : ItemId)
  | invalidRiskDefinition (id : String) (fault : ShapeFault)
  | unknownLiteral (vocabulary : Vocabulary) (text : String)
  deriving DecidableEq, Repr

def ModelError.message : ModelError → String
  | .invalidVersion text => s!"invalid template version: {text}"
  | .duplicateItem item => s!"duplicate template item: {item}"
  | .invalidRiskDefinition id fault => s!"invalid risk definition '{id}': {fault.message}"
  | .unknownLiteral vocabulary text => s!"unknown {vocabulary.title}: {text}"

end TemplateCatalog
