import TemplateCatalog.Toml.Scalar
import TemplateCatalog.Toml.Tree

/-!
# Reading TOML documents

A document of TOML 1.0 is a list of lines that hold a key with its value, a
header of a table, or nothing but a comment. Arrays may go over many lines and
end in a comma, inline tables may not. Values nest at most `maxNesting` deep.
-/

namespace TemplateCatalog

namespace Toml

/-- How many arrays and inline tables may stand inside one another, and how many parts a dotted key
may have. -/
def maxNesting : Nat := 79

/-! ## Blanks and comments -/

/-- Skips blanks, line breaks and comments between the items of an array. -/
def skipTrivia (inComment : Bool) : List Char → List Char
  | '\n' :: rest => skipTrivia false rest
  | '\r' :: '\n' :: rest => skipTrivia false rest
  | c :: rest =>
    if inComment then if isText c then skipTrivia true rest else c :: rest
    else if isWs c then skipTrivia false rest
    else if c == '#' then skipTrivia true rest
    else c :: rest
  | [] => []

/-- The characters behind the end of a line: blanks, a comment, and a line break or the end. -/
def endOfLine? (cs : List Char) : Option (List Char) :=
  let cs := skipWs cs
  let cs := match cs with
    | '#' :: comment => comment.dropWhile isText
    | _ => cs
  if cs.isEmpty then some [] else newline? cs

/-! ## Keys -/

def isBareKeyChar (c : Char) : Bool := c.isAlphanum || c == '_' || c == '-'

def simpleKey : Reader String := fun cs =>
  match cs with
  | '"' :: rest => basicTail [] rest
  | '\x27' :: rest => literalTail [] rest
  | _ =>
    let key := cs.takeWhile isBareKeyChar
    if key.isEmpty then none else some (String.ofList key, cs.dropWhile isBareKeyChar)

/-- The parts of a dotted key, with blanks around them. -/
def dottedKey : (fuel : Nat) → Reader (List String)
  | 0, _ => none
  | fuel + 1, cs => do
    let (part, cs) ← simpleKey (skipWs cs)
    match skipWs cs with
    | '.' :: rest =>
      let (parts, cs) ← dottedKey fuel rest
      return (part :: parts, cs)
    | cs => return ([part], cs)

def key : Reader (List String) := dottedKey maxNesting

/-! ## Values -/

/-- The items of an array behind its opening bracket; `fuel` bounds their number. -/
def items (value : Reader Json) : (fuel : Nat) → (acc : List Json) → Reader Json
  | 0, _, _ => none
  | fuel + 1, acc, cs =>
    match skipTrivia false cs with
    | ']' :: rest => some (.arr acc.reverse, rest)
    | cs => do
      let (j, cs) ← value cs
      match skipTrivia false cs with
      | ',' :: rest => items value fuel (j :: acc) rest
      | ']' :: rest => return (.arr (j :: acc).reverse, rest)
      | _ => none

/-- The pairs of an inline table behind its opening brace or a comma. -/
def pairs (value : Reader Json) : (fuel : Nat) → (acc : Entries) → Reader Json
  | 0, _, _ => none
  | fuel + 1, acc, cs => do
    let (path, cs) ← key cs
    match cs with
    | '=' :: rest =>
      let (j, cs) ← value (skipWs rest)
      let acc ← putValue (path.getLastD "") j path.dropLast acc
      match skipWs cs with
      | ',' :: rest => pairs value fuel acc rest
      | '\x7d' :: rest => return (.obj (entriesToJson acc), rest)
      | _ => none
    | _ => none

/-- A value in which arrays and inline tables nest at most `levels` deep. -/
def value : (levels : Nat) → Reader Json
  | 0, cs => scalar cs
  | levels + 1, cs =>
    match cs with
    | '[' :: rest => items (value levels) (rest.length + 1) [] rest
    | '\x7b' :: rest =>
      match skipWs rest with
      | '\x7d' :: rest => some (.obj [], rest)
      | cs => pairs (value levels) cs.length [] cs
    | _ => scalar cs

/-! ## Documents -/

/-- What was read so far: the tables, and the path of the table that is open. -/
structure Document where
  root : Entries := []
  path : List String := []

/-- Reads a key with its value. -/
def pairLine (d : Document) : Reader Document := fun cs => do
  let (path, cs) ← key cs
  match cs with
  | '=' :: rest =>
    let (j, cs) ← value maxNesting (skipWs rest)
    let root ← updateAt (putValue (path.getLastD "") j path.dropLast) d.path d.root
    return ({ d with root }, cs)
  | _ => none

/-- Reads a header behind its first bracket. -/
def headerLine (d : Document) : Reader Document := fun cs =>
  match cs with
  | '[' :: rest => do
    let (path, cs) ← key rest
    match cs with
    | ']' :: ']' :: cs =>
      let root ← openItem path d.root
      return (⟨root, path⟩, cs)
    | _ => none
  | _ => do
    let (path, cs) ← key cs
    match cs with
    | ']' :: cs =>
      let root ← openTable path d.root
      return (⟨root, path⟩, cs)
    | _ => none

/-- Reads line by line; `fuel` bounds the number of lines. -/
def lines : (fuel : Nat) → Document → List Char → Option Document
  | 0, _, _ => none
  | fuel + 1, d, cs => do
    match skipWs cs with
    | [] => return d
    | '#' :: rest => lines fuel d (← endOfLine? ('#' :: rest))
    | '\n' :: rest => lines fuel d rest
    | '\r' :: rest => lines fuel d (← newline? ('\r' :: rest))
    | '[' :: rest =>
      let (d, cs) ← headerLine d rest
      lines fuel d (← endOfLine? cs)
    | cs =>
      let (d, cs) ← pairLine d cs
      lines fuel d (← endOfLine? cs)

/-- The document without the mark of its byte order. -/
def dropByteOrderMark : List Char → List Char
  | '\uFEFF' :: rest => rest
  | cs => cs

/-- The tables of a document as a JSON value. -/
def parse? (text : String) : Option Json :=
  let cs := dropByteOrderMark text.toList
  (lines (cs.length + 1) {} cs).map fun d => .obj (entriesToJson d.root)

end Toml

end TemplateCatalog
