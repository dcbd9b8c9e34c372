import TemplateCatalog.CommandLine.Run

/-!
# The program

Reads the files that the arguments name, runs the command on their texts, and
prints what it answers. New elements get identifiers of version 4 that start at
a random one.
-/

namespace TemplateCatalog

namespace CommandLine

/-- The identifier with the digits of a number, marked as one of version 4. -/
def randomLike (n : Nat) : ElementId :=
  let high := BitVec.ofNat 48 (n >>> 74)
  let middle := BitVec.ofNat 12 (n >>> 62)
  ⟨⟨high ++ 4#4 ++ middle ++ 2#2 ++ BitVec.ofNat 62 n⟩⟩

/-- The reason that is reported when a file cannot be read. -/
def readReason : IO.Error → String
  | .noFileOrDirectory .. => ReadFailure.missing.message
  | .permissionDenied .. => "Permission denied (os error 13)"
  | .inappropriateType _ 21 _ => ReadFailure.isADirectory.message
  | .inappropriateType .. => ReadFailure.notADirectory.message
  | .invalidArgument _ _ "name too long" => ReadFailure.nameTooLong.message
  | error => toString error

def readPath (path : String) : IO (String × Except String String) := do
  try return (path, .ok (← IO.FS.readFile path))
  catch error => return (path, .error (readReason error))

/-- The texts of all files that the arguments name. -/
def readFiles (args : List String) : IO Files := do
  let texts ← (Invocation.ofArguments args).paths.mapM readPath
  return fun path => (texts.lookup path).getD (.error "not read")

/-- Prints an outcome; errors go to standard error. -/
def report (outcome : Outcome) : IO Unit :=
  match outcome with
  | .printed text | .blocked text => IO.print text
  | .failed error => IO.eprintln s!"Error: {error.message}"
  | .misused => IO.eprintln "error: invalid arguments\n\nFor more information, try '--help'."

end CommandLine

end TemplateCatalog

def main (args : List String) : IO UInt32 := do
  let files ← TemplateCatalog.CommandLine.readFiles args
  let bytes ← IO.getRandomBytes 16
  let seed := bytes.toList.foldl (fun n byte => 256 * n + byte.toNat) 0
  let fresh := fun n => TemplateCatalog.CommandLine.randomLike (seed + n)
  let outcome := TemplateCatalog.CommandLine.run files fresh args
  TemplateCatalog.CommandLine.report outcome
  return outcome.exitCode.toUInt32
