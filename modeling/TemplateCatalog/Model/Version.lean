import TemplateCatalog.Json.Form
import TemplateCatalog.Model.Error
import TemplateCatalog.Text.Blank

/-!
# Template versions

Templates are published as `major.minor.patch`. Every component is a number of
32 bits, optionally with a plus sign; blanks around the whole text are ignored.
Versions are ordered by major, then minor, then patch.
-/

namespace TemplateCatalog

structure TemplateVersion where
  major : UInt32 := 0
  minor : UInt32 := 0
  patch : UInt32 := 0
  deriving DecidableEq, Repr, Inhabited

namespace TemplateVersion

def text (v : TemplateVersion) : String := s!"{v.major}.{v.minor}.{v.patch}"

instance : ToString TemplateVersion := ⟨text⟩

/-- A component: an optional plus sign, then digits of a number below `2 ^ 32`. -/
def component? (cs : List Char) : Option UInt32 := do
  let digits := match cs with
    | '+' :: rest => rest
    | _ => cs
  let n ← decimalValue? digits
  if n < UInt32.size then some (UInt32.ofNat n) else none

def ofText? (text : String) : Option TemplateVersion :=
  match splitAt '.' (trimBlanks text.toList) with
  | [major, minor, patch] =>
    return ⟨← component? major, ← component? minor, ← component? patch⟩
  | _ => none

/-- Reads a version; the error carries the text as it was given. -/
def parse (text : String) : Except ModelError TemplateVersion :=
  match ofText? text with
  | some v => .ok v
  | none => .error (.invalidVersion text)

def compare (a b : TemplateVersion) : Ordering :=
  (Ord.compare a.major b.major).then
    ((Ord.compare a.minor b.minor).then (Ord.compare a.patch b.patch))

instance : Ord TemplateVersion := ⟨compare⟩

/-- The strict order of versions. -/
def before (a b : TemplateVersion) : Bool := compare a b == .lt

/-- Whether moving to the other version crosses a major version. -/
def isMajorUpgradeTo (a b : TemplateVersion) : Bool := a.major < b.major

end TemplateVersion

instance : JsonForm TemplateVersion where
  encode v := .str v.text
  decodeIn
    | _, .str text => TemplateVersion.ofText? text
    | _, _ => none

end TemplateCatalog
