import TemplateCatalog.Json.Scalar

/-!
# Reading JSON text

The grammar of JSON, without extensions: blanks are space, tab, line feed and
carriage return; nothing follows the value; strings hold no raw control
character. An array or object that stands more than `maxNesting` levels deep
follows the grammar, but cannot be read.

`parse?` reads every text that follows the grammar; what cannot be read stands
in the value as `unreadable`.
-/

namespace TemplateCatalog

namespace Json

/-- How many arrays and objects may stand inside one another. -/
def maxNesting : Nat := 127

def isSpace (c : Char) : Bool := c == ' ' || c == '\t' || c == '\n' || c == '\r'

def skipSpace (cs : List Char) : List Char := cs.dropWhile isSpace

/-! ## Passing over what is too deep -/

/-- Where one stands inside an array or object. -/
inductive Place where
  /-- Behind its opening bracket. -/
  | opened
  /-- Behind a comma. -/
  | separated
  /-- Behind an item or entry. -/
  | filled

/-- Passes over the name of an entry, if the bracket that is open is a brace. -/
def passName (closing : Char) (cs : List Char) : Option (List Char) :=
  if closing == ']' then some cs
  else
    match quoted cs with
    | some (_, cs) =>
      match skipSpace cs with
      | ':' :: rest => some (skipSpace rest)
      | _ => none
    | none => none

/-- Passes over the rest of nested arrays and objects. The closing brackets that are still to come
are `closing`, innermost first; `fuel` bounds the number of items and brackets. -/
def passOver : (fuel : Nat) → (closing : List Char) → Place → List Char → Option (List Char)
  | _, [], _, cs => some cs
  | 0, _ :: _, _, _ => none
  | fuel + 1, bracket :: outer, place, cs =>
    match place, skipSpace cs with
    | .filled, ',' :: rest => passOver fuel (bracket :: outer) .separated rest
    | .filled, c :: rest => if c == bracket then passOver fuel outer .filled rest else none
    | .filled, [] => none
    | place, cs =>
      if cs.head? = some bracket then
        match place with
        | .opened => passOver fuel outer .filled cs.tail
        | _ => none
      else
        match passName bracket cs with
        | some ('[' :: rest) => passOver fuel (']' :: bracket :: outer) .opened rest
        | some ('\x7b' :: rest) => passOver fuel ('\x7d' :: bracket :: outer) .opened rest
        | some cs =>
          match scalar cs with
          | some (_, cs) => passOver fuel (bracket :: outer) .filled cs
          | none => none
        | none => none

/-- Passes over an array or object behind its opening bracket. -/
def tooDeep (closing : Char) : Reader Json := fun cs =>
  (passOver (cs.length + 1) [closing] .opened cs).map fun cs => (.unreadable, cs)

/-! ## Values -/

/-- The items of an array behind its first bracket; `fuel` bounds their number. -/
def items (value : Reader Json) : (fuel : Nat) → (acc : List Json) → Reader Json
  | 0, _, _ => none
  | fuel + 1, acc, cs => do
    let (j, cs) ← value (skipSpace cs)
    match skipSpace cs with
    | ',' :: rest => items value fuel (j :: acc) rest
    | ']' :: rest => some (.arr (j :: acc).reverse, rest)
    | _ => none

/-- The object with these entries, if all their names can be read. -/
def ofEntries (entries : List (Option String × Json)) : Json :=
  match entries.mapM fun e => e.1.map (·, e.2) with
  | some entries => .obj entries
  | none => .unreadable

/-- The entries of an object behind its first brace; `fuel` bounds their number. -/
def entries (value : Reader Json) :
    (fuel : Nat) → (acc : List (Option String × Json)) → Reader Json
  | 0, _, _ => none
  | fuel + 1, acc, cs => do
    let (name, cs) ← quoted (skipSpace cs)
    match skipSpace cs with
    | ':' :: rest =>
      let (j, cs) ← value (skipSpace rest)
      match skipSpace cs with
      | ',' :: rest => entries value fuel ((name, j) :: acc) rest
      | '\x7d' :: rest => some (ofEntries ((name, j) :: acc).reverse, rest)
      | _ => none
    | _ => none

/-- A value in which arrays and objects can be read `levels` deep. -/
def value : (levels : Nat) → Reader Json
  | 0, cs =>
    match cs with
    | '[' :: rest => tooDeep ']' rest
    | '\x7b' :: rest => tooDeep '\x7d' rest
    | _ => scalar cs
  | levels + 1, cs =>
    match cs with
    | '[' :: rest =>
      match skipSpace rest with
      | ']' :: rest => some (.arr [], rest)
      | cs => items (value levels) cs.length [] cs
    | '\x7b' :: rest =>
      match skipSpace rest with
      | '\x7d' :: rest => some (.obj [], rest)
      | cs => entries (value levels) cs.length [] cs
    | _ => scalar cs

/-- The value that a text holds, if it holds one and nothing else. -/
def parse? (text : String) : Option Json :=
  match value maxNesting (skipSpace text.toList) with
  | some (j, rest) => if (skipSpace rest).isEmpty then some j else none
  | none => none

end Json

end TemplateCatalog
