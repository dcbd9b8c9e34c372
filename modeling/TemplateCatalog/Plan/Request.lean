import TemplateCatalog.Model.Domain

/-!
# Requests

A request names items to be incarnated in a unit. What it leaves open is taken
from the defaults of a domain. The included and the excluded types of
references are overridden together: a request that names either set ignores the
defaults of both.
-/

namespace TemplateCatalog

structure IncarnationRequest where
  unit : UnitId
  domain : DomainId
  /-- Where the items come from, if not from the catalog of the domain. -/
  nspace : Option ItemNamespace := none
  items : List ItemId
  mode : Option RequestMode := none
  lookup : Option LookupPolicy := none
  included : Option (EnumSet ReferenceType) := none
  excluded : Option (EnumSet ReferenceType) := none
  deriving DecidableEq

structure ResolveOptions where
  mode : RequestMode := .closure
  lookup : LookupPolicy := .forReferencedItems
  filter : ReferenceFilter := {}
  /-- Keep one direction of a relation that is declared from both ends. -/
  mergeBidirectional : Bool := false
  deriving DecidableEq

namespace IncarnationRequest

/-- The namespace that requested items must belong to. -/
def source (r : IncarnationRequest) : ItemNamespace := r.nspace.getD (.domain r.domain)

def options (r : IncarnationRequest) (defaults : IncarnationConfiguration) : ResolveOptions where
  mode := r.mode.getD defaults.mode
  lookup := r.lookup.getD defaults.lookup
  filter :=
    if r.included.isSome || r.excluded.isSome then .ofSets r.included r.excluded
    else defaults.filter

end IncarnationRequest

end TemplateCatalog
