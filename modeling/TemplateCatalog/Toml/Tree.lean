import TemplateCatalog.Json.Value

/-!
# Tables of a TOML document

A document grows table by table and key by key. A table remembers how it came
about, since that decides who may extend it:

* a table that a header names is defined once;
* a table that is only on the way to a header may still be named by a header;
* a table that dotted keys made may be extended by dotted keys of the same
  table and by headers below it;
* values, inline tables among them, are never extended.
-/

namespace TemplateCatalog

namespace Toml

/-- How a table came about. -/
inductive Origin where
  | header
  | implied
  | dotted
  deriving DecidableEq, Repr

inductive Node where
  | value (j : Json)
  | table (origin : Origin) (entries : List (String × Node))
  /-- Tables that are headed by double brackets. -/
  | tables (items : List (List (String × Node)))

abbrev Entries := List (String × Node)

def replace (key : String) (n : Node) (es : Entries) : Entries :=
  es.map fun e => if e.1 == key then (key, n) else e

/-- Changes the last of some tables. -/
def updateLast (f : Entries → Option Entries) : List Entries → Option (List Entries)
  | [] => none
  | [last] => (f last).map ([·])
  | first :: rest => (updateLast f rest).map (first :: ·)

/-- Puts a value under a key that may be dotted; `path` holds the key's parts but the last. -/
def putValue (key : String) (j : Json) : (path : List String) → Entries → Option Entries
  | [], es => if (es.lookup key).isSome then none else some (es ++ [(key, .value j)])
  | part :: path, es =>
    match es.lookup part with
    | none => (putValue key j path []).map fun inner => es ++ [(part, .table .dotted inner)]
    | some (.table origin inner) =>
      if origin = .header || (path.isEmpty && origin ≠ .dotted) then none
      else (putValue key j path inner).map fun inner => replace part (.table origin inner) es
    | some (.tables items) =>
      if path.isEmpty then none
      else
        (updateLast (putValue key j path) items).map fun items => replace part (.tables items) es
    | some (.value _) => none

/-- Defines the table that a header names. -/
def openTable : (path : List String) → Entries → Option Entries
  | [], _ => none
  | [key], es =>
    match es.lookup key with
    | none => some (es ++ [(key, .table .header [])])
    | some (.table .implied inner) => some (replace key (.table .header inner) es)
    | some _ => none
  | part :: path, es =>
    match es.lookup part with
    | none => (openTable path []).map fun inner => es ++ [(part, .table .implied inner)]
    | some (.table origin inner) =>
      (openTable path inner).map fun inner => replace part (.table origin inner) es
    | some (.tables items) =>
      (updateLast (openTable path) items).map fun items => replace part (.tables items) es
    | some (.value _) => none

/-- Adds a table to those that a header in double brackets names. -/
def openItem : (path : List String) → Entries → Option Entries
  | [], _ => none
  | [key], es =>
    match es.lookup key with
    | none => some (es ++ [(key, .tables [[]])])
    | some (.tables items) => some (replace key (.tables (items ++ [[]])) es)
    | some _ => none
  | part :: path, es =>
    match es.lookup part with
    | none => (openItem path []).map fun inner => es ++ [(part, .table .implied inner)]
    | some (.table origin inner) =>
      (openItem path inner).map fun inner => replace part (.table origin inner) es
    | some (.tables items) =>
      (updateLast (openItem path) items).map fun items => replace part (.tables items) es
    | some (.value _) => none

/-- Changes the table that was opened last under a path. -/
def updateAt (f : Entries → Option Entries) : (path : List String) → Entries → Option Entries
  | [], es => f es
  | part :: path, es =>
    match es.lookup part with
    | some (.table origin inner) =>
      (updateAt f path inner).map fun inner => replace part (.table origin inner) es
    | some (.tables items) =>
      (updateLast (updateAt f path) items).map fun items => replace part (.tables items) es
    | _ => none

mutual

def Node.toJson : Node → Json
  | .value j => j
  | .table _ entries => .obj (entriesToJson entries)
  | .tables items => .arr (itemsToJson items)

def entriesToJson : List (String × Node) → List (String × Json)
  | [] => []
  | (key, n) :: rest => (key, n.toJson) :: entriesToJson rest

def itemsToJson : List (List (String × Node)) → List Json
  | [] => []
  | entries :: rest => .obj (entriesToJson entries) :: itemsToJson rest

end

end Toml

end TemplateCatalog
