import TemplateCatalog.CommandLine.Arguments

/-!
# Subcommands

What can be asked for on the command line, and what a list of arguments asks
for. The option for the settings may stand before or behind the subcommand; the
one behind it counts.
-/

namespace TemplateCatalog

namespace CommandLine

inductive Subcommand where
  | resolve
  | diff
  | migrate
  deriving DecidableEq, Repr

def programName : String := "riskcat"

def programVersion : String := "0.1.0"

def configOption : OptionSpec :=
  { name := "config", kind := .path, help := "TOML configuration file" }

def elementsOption : OptionSpec :=
  { name := "elements", kind := .path, help := "JSON array of existing elements" }

/-- A file that must be given. -/
def fileOption (name help : String) : OptionSpec :=
  { name, kind := .path, required := true, help }

namespace Subcommand

def all : List Subcommand := [.resolve, .diff, .migrate]

def name : Subcommand → String
  | .resolve => "resolve"
  | .diff => "diff"
  | .migrate => "migrate"

def about : Subcommand → String
  | .resolve => "Resolve catalog items into an incarnation plan"
  | .diff => "Diff two versions of a risk definition"
  | .migrate => "Evaluate migrating a domain to a template version"

/-- The options of a subcommand besides the one for the settings. -/
def ownOptions : Subcommand → List OptionSpec
  | .resolve =>
    [fileOption "domain" "Domain JSON including its catalog items",
      fileOption "unit" "Target unit JSON",
      elementsOption,
      { name := "item", kind := .texts, required := true, help := "Catalog item id to incarnate" },
      { name := "mode", kind := .text, help := "MANUAL or DEFAULT" },
      { name := "lookup", kind := .text
        help := "NEVER, FOR_REFERENCED_ITEMS, ALWAYS or SAME_VERSION" },
      { name := "include", kind := .texts, help := "Reference type to follow" },
      { name := "exclude", kind := .texts, help := "Reference type to skip" },
      { name := "apply", kind := .flag
        help := "Apply the plan and print the created elements" }]
  | .diff =>
    [fileOption "old" "Current risk definition JSON",
      fileOption "new" "Target risk definition JSON"]
  | .migrate =>
    [fileOption "domain" "Domain JSON",
      fileOption "template" "Target domain template JSON",
      elementsOption,
      { name := "accept", kind := .texts, help := "Change kind to apply automatically" }]

def options (c : Subcommand) : List OptionSpec := configOption :: c.ownOptions

def ofName? (name : String) : Option Subcommand := all.find? fun c => c.name == name

end Subcommand

/-! ## Help -/

/-- Lines of two columns, the second one aligned. -/
def columns (rows : List (String × String)) : List String :=
  let width := (rows.map fun row => row.1.length).foldl max 0
  rows.map fun row =>
    "  " ++ row.1 ++ String.ofList (List.replicate (width + 2 - row.1.length) ' ') ++ row.2

/-- How an option is written. -/
def OptionSpec.form (spec : OptionSpec) : String :=
  if spec.kind = .flag then s!"--{spec.name}" else s!"--{spec.name} <{spec.name}>"

def helpSummary : String := "Print this message or the help of the given subcommand(s)"

/-- The rows of options; the version can be asked for only without subcommand. -/
def optionRows (specs : List OptionSpec) (hasVersion : Bool) : List (String × String) :=
  (specs.map fun spec => ("    " ++ spec.form, spec.help)) ++ [("-h, --help", "Print help")] ++
    if hasVersion then [("-V, --version", "Print version")] else []

def programHelp : List String :=
  ["Catalog incarnation and domain template migration", "",
    s!"Usage: {programName} [OPTIONS] <COMMAND>", "", "Commands:"] ++
    columns ((Subcommand.all.map fun c => (c.name, c.about)) ++ [("help", helpSummary)]) ++
    ["", "Options:"] ++ columns (optionRows [configOption] true)

def Subcommand.help (c : Subcommand) : List String :=
  let required := (c.options.filter (·.required)).map fun spec => " " ++ spec.form
  [c.about, "", s!"Usage: {programName} {c.name} [OPTIONS]" ++ String.join required, "",
    "Options:"] ++ columns (optionRows c.options false)

def helpHelp : List String :=
  [helpSummary, "", s!"Usage: {programName} help [COMMAND]...", "", "Arguments:"] ++
    columns [("[COMMAND]...", "Print help for the subcommand(s)")]

/-- The help for the subcommands that follow the word `help`. -/
def helpFor? : List String → Option (List String)
  | [] => some programHelp
  | ["help"] => some helpHelp
  | [name] => (Subcommand.ofName? name).map (·.help)
  | _ => none

/-! ## Invocations -/

/-- What a list of arguments asks for. -/
inductive Invocation where
  | help (lines : List String)
  | version
  | run (command : Subcommand) (given : Given)
  | misused
  deriving Repr

/-- Reads the arguments of a subcommand; `before` and `pending` are the options before its name. -/
def Subcommand.invocation (c : Subcommand) (before : Given) (pending : Pending)
    (args : List String) : Invocation :=
  match scan c.options false none [] none args with
  | .done given =>
    match settle before pending with
    | some before => if isComplete c.options given then .run c (given ++ before) else .misused
    | none => .misused
  | .help => .help c.help
  | .version | .positional .. | .invalid => .misused

def Invocation.ofArguments (args : List String) : Invocation :=
  match scan [configOption] true none [] none args with
  | .positional before pending name rest =>
    if name == "help" then (helpFor? rest).elim .misused .help
    else
      match Subcommand.ofName? name with
      | some c => c.invocation before pending rest
      | none => .misused
  | .help => .help programHelp
  | .version => .version
  | .done _ | .invalid => .misused

/-- The files that an invocation names. -/
def Invocation.paths : Invocation → List String
  | .run c given =>
    (given.filter fun g => c.options.any fun s => s.name == g.1 && s.kind = .path).map (·.2)
  | .help _ | .version | .misused => []

end CommandLine

end TemplateCatalog
