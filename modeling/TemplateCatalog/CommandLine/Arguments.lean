/-!
# Command line arguments

Options are written `--name value` or `--name=value`, flags `--name`. Names are
exact. What starts with a hyphen is never the value of an option, unless it is
a hyphen alone. Only repeatable options may occur more than once, and a path is
never empty. Arguments are read from left to right, and what asks for help or
for the version ends the reading.

A value behind `--name` is looked at only when the next option comes, or at the
end. So a subcommand or a word of help in between is not held up by it.
-/

namespace TemplateCatalog

namespace CommandLine

inductive OptionKind where
  | path
  | text
  | texts
  | flag
  deriving DecidableEq, Repr

structure OptionSpec where
  name : String
  kind : OptionKind
  required : Bool := false
  help : String
  deriving Repr

/-- The options that were given, in order; flags have an empty value. -/
abbrev Given := List (String × String)

namespace Given

def value? (g : Given) (name : String) : Option String := g.lookup name

def values (g : Given) (name : String) : List String :=
  (g.filter fun p => p.1 == name).map (·.2)

def has (g : Given) (name : String) : Bool := (g.value? name).isSome

end Given

/-- An option and the argument behind it. -/
abbrev Pending := Option (OptionSpec × String)

/-- How far the arguments of one command were understood. -/
inductive Scan where
  | done (given : Given)
  | positional (given : Given) (pending : Pending) (name : String) (rest : List String)
  | help
  | version
  | invalid
  deriving Repr

/-- Adds a value unless the option refuses it. -/
def addValue (spec : OptionSpec) (given : Given) (value : String) : Option Given :=
  if spec.kind ≠ .texts && given.has spec.name then none
  else if spec.kind = .path && value.isEmpty then none
  else some (given ++ [(spec.name, value)])

/-- Adds the value that is pending, if there is one. -/
def settle (given : Given) : Pending → Option Given
  | none => some given
  | some (spec, value) => addValue spec given value

/-- Whether an argument cannot be the value of an option. -/
def isOptionLike (arg : String) : Bool := arg.startsWith "-" && arg != "-"

/-- The name and the value of `name=value`. -/
def splitValue (cs : List Char) : String × Option String :=
  let name := String.ofList (cs.takeWhile (· != '='))
  match cs.dropWhile (· != '=') with
  | [] => (name, none)
  | _ :: value => (name, some (String.ofList value))

/-- What one argument is when no option waits for its value. -/
inductive Argument where
  | option (spec : OptionSpec) (value : Option String)
  | positional
  | terminator
  | help
  | version
  | unknown
  deriving Repr

/-- Tells options from positional arguments; letters after `-h` or `-V` do not matter. -/
def classify (specs : List OptionSpec) (hasVersion : Bool) (arg : String) : Argument :=
  match arg.toList with
  | ['-'] => .positional
  | ['-', '-'] => .terminator
  | '-' :: '-' :: text =>
    match splitValue text with
    | ("help", none) => .help
    | ("version", none) => if hasVersion then .version else .unknown
    | (name, value) =>
      match specs.find? fun s => s.name == name with
      | some spec => .option spec value
      | none => .unknown
  | '-' :: letter :: _ =>
    if letter = 'h' then .help
    else if letter = 'V' && hasVersion then .version
    else .unknown
  | _ => .positional

/-- Adds an option that is written with its value or needs none. -/
def addOption (spec : OptionSpec) (given : Given) (value : Option String) : Option Given :=
  match spec.kind, value with
  | .flag, none => addValue spec given ""
  | .flag, some _ | _, none => none
  | _, some value => addValue spec given value

/-- Reads arguments up to the first positional one. `waiting` is the option
whose value comes next. -/
def scan (specs : List OptionSpec) (hasVersion : Bool) (waiting : Option OptionSpec)
    (given : Given) (pending : Pending) : List String → Scan
  | [] => if waiting.isSome then .invalid else (settle given pending).elim .invalid .done
  | arg :: rest =>
    match waiting with
    | some spec =>
      if isOptionLike arg then .invalid
      else scan specs hasVersion none given (some (spec, arg)) rest
    | none =>
      match classify specs hasVersion arg, settle given pending with
      | .positional, _ => .positional given pending arg rest
      | .unknown, _ | _, none => .invalid
      | .terminator, some given => if rest.isEmpty then .done given else .invalid
      | .help, some _ => .help
      | .version, some _ => .version
      | .option spec value, some given =>
        if value.isNone && spec.kind ≠ .flag then scan specs hasVersion (some spec) given none rest
        else
          match addOption spec given value with
          | some given => scan specs hasVersion none given none rest
          | none => .invalid

/-- Whether all required options were given. -/
def isComplete (specs : List OptionSpec) (given : Given) : Bool :=
  specs.all fun s => !s.required || given.has s.name

end CommandLine

end TemplateCatalog
