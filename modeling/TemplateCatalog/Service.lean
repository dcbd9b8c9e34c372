import TemplateCatalog.Configuration.Settings
import TemplateCatalog.Incarnation.Apply
import TemplateCatalog.Migration.Evaluate
import TemplateCatalog.Plan.Resolve

/-!
# The catalog service

What callers do with a catalog: resolve, apply, compare and migrate, with the
settings of the service. Errors of all layers come as one type, which tells
whether something was not found, whether a call may be repeated, and whether
data would have been violated.
-/

namespace TemplateCatalog

inductive SettingsError where
  | unreadable (path reason : String)
  | invalid
  deriving DecidableEq, Repr

def SettingsError.message : SettingsError → String
  | .unreadable path reason => s!"cannot read {path}: {reason}"
  | .invalid => "invalid configuration"

inductive CatalogError where
  | settings (error : SettingsError)
  | model (error : ModelError)
  | resolve (error : ResolveError)
  | apply (error : ApplyError)
  | repository (error : RepositoryError)
  | migration (error : MigrationError)
  deriving DecidableEq, Repr

namespace CatalogError

def message : CatalogError → String
  | .settings error => s!"configuration error: {error.message}"
  | .model error => s!"model error: {error.message}"
  | .resolve error => s!"resolution failed: {error.message}"
  | .apply error => s!"apply failed: {error.message}"
  | .repository error => s!"repository error: {error.message}"
  | .migration error => s!"migration failed: {error.message}"

/-- The error of the repository at the root, whichever layer reports it. -/
def repository? : CatalogError → Option RepositoryError
  | .repository error | .resolve (.repository error) | .apply (.repository error) => some error
  | _ => none

/-- Whether something that was named does not exist. -/
def isNotFound (e : CatalogError) : Bool :=
  match e with
  | .resolve (.itemNotFound _) => true
  | .apply (.unitNotFound _) | .apply (.itemNotFound _) | .apply (.elementNotFound _) => true
  | _ =>
    match e.repository? with
    | some (.unitNotFound _) | some (.elementNotFound _) => true
    | _ => false

def isRetryable (e : CatalogError) : Bool := e.repository?.any (·.isRetryable)

/-- Whether data would not be sound, or a constraint would be violated. -/
def isIntegrity (e : CatalogError) : Bool :=
  match e with
  | .model _ => true
  | .apply (.missingTarget ..) | .apply (.invalidSubType ..) | .apply (.modelConsistency _)
  | .apply (.invalidRiskValue ..) | .apply (.foreignElement ..) => true
  | .migration (.invalidTemplate _) => true
  | _ => e.repository?.any (·.isConstraintViolation)

end CatalogError

/-- A service with its settings and its connection to a repository. -/
structure CatalogService where
  settings : Settings
  connection : Connection

namespace CatalogService

/-- A service over a new store with units and elements, inserted in order. -/
def inMemory (settings : Settings) (units : List OrgUnit) (elements : List Element) :
    CatalogService :=
  let store : Store := { uniqueNames := settings.repository.uniqueNames }
  let store := units.foldl Store.insertUnit store
  { settings, connection := (elements.foldl Store.insertElement store).connect }

variable (s : CatalogService)

/-- The options of a request: what it says, then the settings, then the domain. -/
def optionsFor (domain : Domain) (request : IncarnationRequest) : ResolveOptions :=
  { request.options (s.settings.incarnation.over domain.configuration) with
    mergeBidirectional := s.settings.incarnation.mergeBidirectional }

/-- Resolves a request; the `n`-th creation gets the identifier `fresh n`. -/
def resolveIncarnation (fresh : Nat → ElementId) (domain : Domain) (graph : TemplateGraph)
    (request : IncarnationRequest) : Except CatalogError IncarnationPlan :=
  (resolve graph s.connection fresh request (s.optionsFor domain request)).mapError .resolve

/-- Applies a plan; the result is the report and the new store. -/
def applyIncarnation (domain : Domain) (graph : TemplateGraph) (plan : IncarnationPlan) :
    Except CatalogError (AppliedIncarnation × Store) :=
  (Application.run ⟨s.connection, graph, domain, plan⟩).mapError .apply

/-- Resolves a request and applies the plan. -/
def incarnate (fresh : Nat → ElementId) (domain : Domain) (graph : TemplateGraph)
    (request : IncarnationRequest) : Except CatalogError (AppliedIncarnation × Store) := do
  let plan ← s.resolveIncarnation fresh domain graph request
  s.applyIncarnation domain graph plan

/-- Evaluates a migration in view of the stored elements of the domain. -/
def evaluateMigration (domain : Domain) (template : DomainTemplate)
    (accepted : EnumSet ChangeKind) : Except CatalogError MigrationOutcome :=
  match s.connection.elementsInDomain domain.id with
  | .error e => .error (.repository e)
  | .ok elements =>
    (TemplateCatalog.evaluateMigration domain template elements accepted
      s.settings.migration.inert).mapError .migration

end CatalogService

end TemplateCatalog
