import TemplateCatalog.Model.Domain

/-!
# Compatibility of attributes

A changed attribute is compatible if every value of the old definition is a
value of the new one: an enumeration may gain values, a list is judged by its
items, and everything else must stay as it is.
-/

namespace TemplateCatalog

inductive AttributeChange where
  | removal
  | modification
  deriving DecidableEq, Repr, Inhabited

instance : Literal AttributeChange where
  all := [.removal, .modification]
  mem_all c := by cases c <;> decide
  literal
    | .removal => "REMOVAL"
    | .modification => "MODIFICATION"

def AttributeChange.title : AttributeChange → String
  | .removal => "Removal"
  | .modification => "Modification"

namespace AttributeDefinition

def isCompatible : (old new : AttributeDefinition) → Bool
  | .enum old, .enum new => old.all new.contains
  | .list old, .list new => isCompatible old new
  | old, new => old = new

/-- What happens to an attribute whose new definition is missing or not compatible. -/
def change? (old : AttributeDefinition) (new : Option AttributeDefinition) :
    Option AttributeChange :=
  match new with
  | none => some .removal
  | some new => if isCompatible old new then none else some .modification

end AttributeDefinition

end TemplateCatalog
