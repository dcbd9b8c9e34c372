import TemplateCatalog.Model.Domain

/-!
# States of a migration

A migration is evaluated, and then either applied and migrated or blocked. The
trail records the states it went through.
-/

namespace TemplateCatalog

inductive MigrationState where
  | evaluating
  | applying
  | migrated
  | blocked
  deriving DecidableEq, Repr, Inhabited

instance : Literal MigrationState where
  all := [.evaluating, .applying, .migrated, .blocked]
  mem_all s := by cases s <;> decide
  literal
    | .evaluating => "EVALUATING"
    | .applying => "APPLYING"
    | .migrated => "MIGRATED"
    | .blocked => "BLOCKED"

inductive MigrationError where
  | invalidTemplate (error : ModelError)
  | illegalTransition (source destination : MigrationState)
  | downgrade (current target : TemplateVersion)
  deriving DecidableEq, Repr

def MigrationError.message : MigrationError → String
  | .invalidTemplate error => s!"invalid domain template: {error.message}"
  | .illegalTransition source destination =>
    s!"illegal migration transition: {literal source} -> {literal destination}"
  | .downgrade current target => s!"cannot migrate domain from template {current} down to {target}"

namespace MigrationState

/-- The states that may follow. -/
def successors : MigrationState → List MigrationState
  | .evaluating => [.applying, .blocked]
  | .applying => [.migrated]
  | .migrated | .blocked => []

def isTerminal (s : MigrationState) : Bool := s = .migrated || s = .blocked

def checkTransition (source destination : MigrationState) : Except MigrationError Unit :=
  if destination ∈ source.successors then .ok ()
  else .error (.illegalTransition source destination)

end MigrationState

structure Trail where
  states : List MigrationState
  deriving DecidableEq, Repr

namespace Trail

def start : Trail := ⟨[.evaluating]⟩

instance : Inhabited Trail := ⟨start⟩

/-- The last state; an empty trail is about to be evaluated. -/
def current (t : Trail) : MigrationState := t.states.getLast?.getD .evaluating

def advance (t : Trail) (destination : MigrationState) : Except MigrationError Trail :=
  (t.current.checkTransition destination).map fun _ => ⟨t.states ++ [destination]⟩

end Trail

end TemplateCatalog
