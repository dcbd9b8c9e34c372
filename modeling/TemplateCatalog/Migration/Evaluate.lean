import TemplateCatalog.Migration.Breaking
import TemplateCatalog.Migration.Trail

/-!
# Evaluating a migration

A domain moves to a newer template if nothing that its elements use is lost and
every other change is of an accepted or an inert kind. The domain itself is
never touched: the outcome carries a migrated copy, or all that breaks.
-/

namespace TemplateCatalog

inductive MigrationOutcome where
  | migrated (domain : Domain) (changes : List ChangeSet) (trail : Trail)
  | blocked (breaking : List BreakingChange) (changes : List ChangeSet) (trail : Trail)
  deriving DecidableEq

namespace MigrationOutcome

def isMigrated : MigrationOutcome → Bool
  | .migrated .. => true
  | .blocked .. => false

def domain? : MigrationOutcome → Option Domain
  | .migrated domain _ _ => some domain
  | .blocked .. => none

def breaking : MigrationOutcome → List BreakingChange
  | .migrated .. => []
  | .blocked breaking _ _ => breaking

def changes : MigrationOutcome → List ChangeSet
  | .migrated _ changes _ | .blocked _ changes _ => changes

def trail : MigrationOutcome → Trail
  | .migrated _ _ trail | .blocked _ _ trail => trail

def state (o : MigrationOutcome) : MigrationState := o.trail.current

/-- The distinct effects with the risk definitions they concern. -/
def effects (o : MigrationOutcome) : List (String × ChangeEffect) :=
  distinct (o.changes.flatMap fun s => s.effects.map fun e => (s.riskDefinition, e))

end MigrationOutcome

/-- The domain with the definitions of a template. -/
def Domain.migrate (d : Domain) (t : DomainTemplate) : Domain :=
  { d with
    templateId := t.id
    templateVersion := t.version
    riskDefinitions := t.riskDefinitions
    elementTypes := t.elementTypes }

/-- The first fault of a template's risk definitions. -/
def DomainTemplate.validate (t : DomainTemplate) : Except ModelError Unit :=
  t.riskDefinitions.forM (·.validate)

/-- What an evaluation goes by. -/
structure Migration where
  domain : Domain
  template : DomainTemplate
  /-- The elements of the domain. -/
  elements : List Element
  /-- The kinds of changes that are accepted or inert. -/
  accepted : EnumSet ChangeKind

namespace Migration

/-- A migration in view of the elements among others that belong to the domain. -/
def ofElements (domain : Domain) (template : DomainTemplate) (elements : List Element)
    (accepted inert : EnumSet ChangeKind) : Migration where
  domain
  template
  elements := elements.filter fun e => e.domain = domain.id
  accepted := accepted.union inert

variable (m : Migration)

/-- The change set of a risk definition of the template. -/
def changeSet (new : RiskDefinition) : ChangeSet :=
  match m.domain.riskDefinition? new.id with
  | some old => diffRiskDefinition old new
  | none => newRiskDefinition new

def changes : List ChangeSet :=
  (m.template.riskDefinitions.map m.changeSet).filter fun s => !s.isEmpty

/-- What breaks because of a risk definition of the template. -/
def definitionBreaks (new : RiskDefinition) : List BreakingChange :=
  match m.domain.riskDefinition? new.id with
  | some old => (m.changeSet new).breaks old m.elements m.accepted
  | none => (m.changeSet new).unaccepted m.accepted

def breaking : List BreakingChange :=
  m.template.riskDefinitions.flatMap m.definitionBreaks ++
    removedRiskDefinitions m.domain m.template m.elements ++
    elementTypeBreaks m.domain.elementTypes m.template.elementTypes m.elements

/-- The outcome once the template is known to be valid. -/
def outcome : Except MigrationError MigrationOutcome := do
  if m.breaking.isEmpty then
    let trail ← Trail.start.advance .applying
    let trail ← trail.advance .migrated
    return .migrated (m.domain.migrate m.template) m.changes trail
  else
    let trail ← Trail.start.advance .blocked
    return .blocked m.breaking m.changes trail

end Migration

/-- Evaluates the migration of a domain to a template in view of its elements. -/
def evaluateMigration (domain : Domain) (template : DomainTemplate) (elements : List Element)
    (accepted inert : EnumSet ChangeKind) : Except MigrationError MigrationOutcome :=
  if template.version.before domain.templateVersion then
    .error (.downgrade domain.templateVersion template.version)
  else
    match template.validate with
    | .error e => .error (.invalidTemplate e)
    | .ok () => (Migration.ofElements domain template elements accepted inert).outcome

end TemplateCatalog
