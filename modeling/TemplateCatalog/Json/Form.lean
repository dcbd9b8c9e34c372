import TemplateCatalog.Collections.DistinctList
import TemplateCatalog.Collections.EnumSet
import TemplateCatalog.Json.Value
import TemplateCatalog.Model.Id

/-!
# JSON forms

A type's JSON form says how its values are written and which values are read
back. A value is written in one way, and `decode` reads it back. What else is
read depends on the surroundings: see `Surroundings` and `isVoid` here, and
`tagName?` for unions.

A *literal* is a value without contents that is written as a fixed text. It may
also be given as the name of a single entry without contents.
-/

namespace TemplateCatalog

/-- Where a value stands. -/
inductive Surroundings where
  /-- In a JSON text, but not among the fields of a union. -/
  | json
  /-- Among the fields of a union. -/
  | union
  /-- In a TOML document. -/
  | toml
  deriving DecidableEq, Repr

/-- How the values of a type are written to JSON and read from it. -/
class JsonForm (α : Type) where
  encode : α → Json
  decodeIn : Surroundings → Json → Option α

export JsonForm (encode decodeIn)

/-- Reads a value that stands for itself. -/
def decode {α : Type} [JsonForm α] (j : Json) : Option α := decodeIn .json j

/-- An enumeration whose values have a fixed spelling each. -/
class Literal (α : Type) extends Enumerated α where
  literal : α → String

export Literal (literal)

/-- The value with exactly this spelling. -/
def Literal.ofText? {α : Type} [Literal α] (text : String) : Option α :=
  (Enumerated.all : List α).find? fun a => literal a == text

/-- The spellings of all values. -/
def Literal.names (α : Type) [Literal α] : List String := (Enumerated.all : List α).map literal

namespace Json

/-- Whether an entry with this value has no contents. JSON writes that as null, and a union also
takes an empty object for it. TOML has no null, and takes an empty table or array. -/
def isVoid : Surroundings → Json → Bool
  | .json, .null | .union, .null | .union, .obj [] | .toml, .obj [] | .toml, .arr [] => true
  | _, _ => false

/-- The spelling that a value gives, as a string or as the name of a single entry. -/
def literalText? (s : Surroundings) : Json → Option String
  | .str text => some text
  | .obj [(text, j)] => if j.isVoid s then some text else none
  | _ => none

def items? : Json → Option (List Json)
  | .arr items => some items
  | _ => none

def entries? : Json → Option (List (String × Json))
  | .obj entries => some entries
  | _ => none

end Json

instance : JsonForm FreeForm := ⟨FreeForm.json, fun _ => FreeForm.ofJson?⟩

instance : JsonForm Bool where
  encode := .bool
  decodeIn
    | _, .bool b => some b
    | _, _ => none

instance : JsonForm String where
  encode := .str
  decodeIn
    | _, .str text => some text
    | _, _ => none

/-- A count or position: a whole number that is not negative. -/
instance : JsonForm Nat where
  encode n := .int n
  decodeIn
    | _, .int (.ofNat n) => some n
    | _, _ => none

instance {α : Type} [JsonForm α] : JsonForm (Option α) where
  encode
    | none => .null
    | some a => encode a
  decodeIn
    | _, .null => some none
    | s, j => (decodeIn s j).map some

instance {α : Type} [JsonForm α] : JsonForm (List α) where
  encode as := .arr (as.map encode)
  decodeIn s j := j.items?.bind fun items => items.mapM (decodeIn s)

instance {α β : Type} [JsonForm α] [JsonForm β] : JsonForm (α × β) where
  encode p := .arr [encode p.1, encode p.2]
  decodeIn
    | s, .arr [a, b] => return (← decodeIn s a, ← decodeIn s b)
    | _, _ => none

instance {α : Type} [JsonForm α] : JsonForm (Dictionary α) where
  encode d := .obj (d.entries.map fun e => (e.1, encode e.2))
  decodeIn s j := do
    let entries ← j.entries?
    let entries ← entries.mapM fun e => (decodeIn s e.2).map fun a => (e.1, a)
    return Dictionary.ofEntries entries

instance {α : Type} [JsonForm α] [DecidableEq α] : JsonForm (DistinctList α) where
  encode xs := encode xs.toList
  decodeIn s j := (decodeIn s j).map DistinctList.ofList

instance (priority := low) {α : Type} [Literal α] : JsonForm α where
  encode a := .str (literal a)
  decodeIn s j := (j.literalText? s).bind Literal.ofText?

instance {α : Type} [Enumerated α] [JsonForm α] [DecidableEq α] : JsonForm (EnumSet α) where
  encode s := encode s.toList
  decodeIn s j := (decodeIn s j).map EnumSet.ofList

instance {kind : IdKind} : JsonForm (Id kind) where
  encode id := .str id.text
  decodeIn
    | _, .str text => Id.ofText? text
    | _, _ => none

end TemplateCatalog
