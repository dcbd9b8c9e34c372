import TemplateCatalog.CommandLine.Subcommand
import TemplateCatalog.Exchange.Migration
import TemplateCatalog.Exchange.Plan
import TemplateCatalog.Json.Parser
import TemplateCatalog.Json.Printer
import TemplateCatalog.Service

/-!
# Running a command

A command reads its files, works on a store in memory, and prints one JSON
value. It is a function of the files and of the identifiers for new elements,
and stops at the first thing that is wrong: the settings come first, then the
files and values in the order of the options.
-/

namespace TemplateCatalog

namespace CommandLine

/-- Why a file cannot be read. -/
inductive ReadFailure where
  | missing
  | notADirectory
  | isADirectory
  | nameTooLong
  deriving DecidableEq, Repr

/-- The reason that is reported. -/
def ReadFailure.message : ReadFailure → String
  | .missing => "No such file or directory (os error 2)"
  | .notADirectory => "Not a directory (os error 20)"
  | .isADirectory => "Is a directory (os error 21)"
  | .nameTooLong => "File name too long (os error 36)"

/-- The text of the file at a path, or why it cannot be read. -/
abbrev Files := String → Except String String

inductive CommandError where
  | unreadable (path : String)
  | malformed (path : String)
  | invalidValue (option value : String)
  | differentIds (old new : String)
  | settings (error : SettingsError)
  | model (error : ModelError)
  | catalog (error : CatalogError)
  deriving DecidableEq, Repr

def CommandError.message : CommandError → String
  | .unreadable path => s!"reading {path}"
  | .malformed path => s!"parsing {path}"
  | .invalidValue option value => s!"invalid --{option} '{value}'"
  | .differentIds old new => s!"risk definitions '{old}' and '{new}' differ in id"
  | .settings error => error.message
  | .model error => error.message
  | .catalog error => error.message

inductive Outcome where
  | printed (text : String)
  /-- A result was printed that stands in the way. -/
  | blocked (text : String)
  | failed (error : CommandError)
  | misused
  deriving DecidableEq, Repr

def Outcome.exitCode : Outcome → Nat
  | .printed _ => 0
  | .failed _ => 1
  | .blocked _ | .misused => 2

/-! ## Values of options -/

/-- The capital of a character, as far as it is an ASCII letter. -/
def capital (c : Char) : Char :=
  match c with
  | 'ı' => 'I'
  | 'ſ' => 'S'
  | c => c.toUpper

/-- The value of an option that names a literal in any case. -/
def Given.literal? {α : Type} [Literal α] (given : Given) (option : String) :
    Except CommandError (Option α) :=
  match given.value? option with
  | none => .ok none
  | some value =>
    match Literal.ofText? (String.ofList (value.toList.map capital)) with
    | some a => .ok (some a)
    | none => .error (.invalidValue option value)

/-- The values of a repeatable option, up to the first that `read?` refuses. -/
def Given.readAll {α : Type} (given : Given) (option : String) (read? : String → Option α) :
    Except CommandError (List α) :=
  (given.values option).mapM fun value =>
    match read? value with
    | some a => .ok a
    | none => .error (.invalidValue option value)

/-- The set of the values of a repeatable option, if it was given. -/
def Given.readSet {α : Type} [DecidableEq α] (given : Given) (option : String)
    (read? : String → Option α) : Except CommandError (Option (EnumSet α)) :=
  (given.readAll option read?).map fun values =>
    if values.isEmpty then none else some (.ofList values)

/-! ## Files -/

section

variable (files : Files)

def readFile {α : Type} [JsonForm α] (path : String) : Except CommandError α :=
  match files path with
  | .error _ => .error (.unreadable path)
  | .ok text =>
    match (Json.parse? text).bind decode with
    | some a => .ok a
    | none => .error (.malformed path)

/-- The value in the file that a required option names. -/
def readRequired {α : Type} [JsonForm α] (given : Given) (option : String) :
    Except CommandError α :=
  readFile files ((given.value? option).getD "")

def readSettings (given : Given) : Except CommandError Settings :=
  match given.value? configOption.name with
  | none => .ok {}
  | some path =>
    match files path with
    | .error reason => .error (.settings (.unreadable path reason))
    | .ok text =>
      match Settings.ofToml? text with
      | some settings => .ok settings
      | none => .error (.settings .invalid)

def readElements (given : Given) : Except CommandError (List Element) :=
  match given.value? elementsOption.name with
  | none => .ok []
  | some path => readFile files path

/-! ## Commands -/

/-- A value as it is printed. -/
def printForm {α : Type} [JsonForm α] (a : α) : String := (encode a).pretty ++ "\n"

def runResolve (fresh : Nat → ElementId) (settings : Settings) (given : Given) :
    Except CommandError Outcome := do
  let domain : Domain ← readRequired files given "domain"
  let unit : OrgUnit ← readRequired files given "unit"
  let items : List ItemId ← given.readAll "item" Id.ofText?
  let elements ← readElements files given
  let mode : Option RequestMode ← given.literal? "mode"
  let lookup : Option LookupPolicy ← given.literal? "lookup"
  let included ← given.readSet "include" fun value => (ReferenceType.parse value).toOption
  let excluded ← given.readSet "exclude" fun value => (ReferenceType.parse value).toOption
  let request : IncarnationRequest :=
    { unit := unit.id, domain := domain.id, items, mode, lookup, included, excluded }
  let service := CatalogService.inMemory settings [unit] elements
  let graph ← domain.graph.mapError .model
  let plan ← (service.resolveIncarnation fresh domain graph request).mapError .catalog
  if given.has "apply" then
    let (applied, _) ← (service.applyIncarnation domain graph plan).mapError .catalog
    return .printed (printForm applied)
  else return .printed (printForm plan)

def runDiff (given : Given) : Except CommandError Outcome := do
  let old : RiskDefinition ← readRequired files given "old"
  let new : RiskDefinition ← readRequired files given "new"
  if old.id == new.id then return .printed (printForm (diffRiskDefinition old new))
  else throw (.differentIds old.id new.id)

def runMigrate (settings : Settings) (given : Given) : Except CommandError Outcome := do
  let domain : Domain ← readRequired files given "domain"
  let template : DomainTemplate ← readRequired files given "template"
  let accepted ← given.readAll "accept" fun value => (ChangeKind.parse value).toOption
  let elements ← readElements files given
  let service := CatalogService.inMemory settings [] elements
  let outcome ← (service.evaluateMigration domain template (.ofList accepted)).mapError .catalog
  return if outcome.isMigrated then .printed (printForm outcome) else .blocked (printForm outcome)

def Subcommand.execute (fresh : Nat → ElementId) (c : Subcommand) (given : Given) :
    Except CommandError Outcome := do
  let settings ← readSettings files given
  match c with
  | .resolve => runResolve files fresh settings given
  | .diff => runDiff files given
  | .migrate => runMigrate files settings given

/-- Runs the program; the `n`-th new element gets the identifier `fresh n`. -/
def run (fresh : Nat → ElementId) (args : List String) : Outcome :=
  match Invocation.ofArguments args with
  | .help lines => .printed (String.join (lines.map (· ++ "\n")))
  | .version => .printed s!"{programName} {programVersion}\n"
  | .misused => .misused
  | .run command given =>
    match command.execute files fresh given with
    | .ok outcome => outcome
    | .error error => .failed error

end

end CommandLine

end TemplateCatalog
