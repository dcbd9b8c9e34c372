import TemplateCatalog.Repository.Store

/-!
# Connections

The calls by which a store is used. During an outage some of the calls fail
before they do anything; `Store.connect` is the connection on which none does.
-/

namespace TemplateCatalog

inductive RepositoryCall where
  | findUnit
  | findElement
  | findIncarnations
  | elementsInDomain
  | commit
  deriving DecidableEq, Repr

/-- The calls that fail, and why. -/
structure Outage where
  calls : List RepositoryCall := []
  reason : String := ""
  deriving DecidableEq, Repr

structure Connection where
  store : Store
  outage : Outage := {}

def Store.connect (s : Store) : Connection := { store := s }

namespace Connection

/-- The answer to a call unless the call is out. -/
def answer {α : Type} (c : Connection) (call : RepositoryCall) (a : α) :
    Except RepositoryError α :=
  if call ∈ c.outage.calls then .error (.unavailable c.outage.reason) else .ok a

def findUnit (c : Connection) (id : UnitId) : Except RepositoryError (Option OrgUnit) :=
  c.answer .findUnit (c.store.unit? id)

def findElement (c : Connection) (id : ElementId) : Except RepositoryError (Option Element) :=
  c.answer .findElement (c.store.element? id)

def findIncarnations (c : Connection) (unit : UnitId) (domain : DomainId) (items : List ItemId) :
    Except RepositoryError (List Element) :=
  c.answer .findIncarnations (c.store.incarnationsOf unit domain items)

def elementsInDomain (c : Connection) (domain : DomainId) :
    Except RepositoryError (List Element) :=
  c.answer .elementsInDomain (c.store.elementsInDomain domain)

def commit (c : Connection) (b : Batch) : Except RepositoryError Store :=
  (c.answer .commit ()).bind fun _ => c.store.commit b

end Connection

end TemplateCatalog
