import TemplateCatalog.Json.Form

/-!
# Records and unions

The rules for records:

* every field is written, an absent one as null;
* unknown fields are ignored, and a known field given twice is refused;
* an optional field may be missing or null;
* a field with a default may be missing, but null is not its default;
* the values of all fields may also stand in a list, in the order of the fields. Only fields with
  a default may be missing there, from the end.

A *union* holds one of some variants, each with fields of its own. A tag beside
the fields tells the variant, either by its name or, where a union stands among
the fields of another one, by its position. In a list the tag comes first. All
that stands in a union has to be readable, ignored fields included.
-/

namespace TemplateCatalog

/-- Fields with their values, no field of interest repeated. -/
structure Record where
  entries : List (String × Json)
  /-- The values were given in a list, without the names of their fields. -/
  isPositional : Bool
  /-- Where the values stand. -/
  surroundings : Surroundings

namespace Record

/-- Views an object as a record with these fields. -/
def ofEntries? (fields : List String) (s : Surroundings) (j : Json) : Option Record := do
  let entries ← j.entries?
  if fields.all fun f => (entries.filter fun e => e.1 == f).length ≤ 1 then
    some ⟨entries, false, s⟩
  else none

/-- Views an object, or a list of values, as a record with these fields. A TOML document may hold
more values than there are fields. -/
def ofJson? (fields : List String) (s : Surroundings) (j : Json) : Option Record :=
  match j with
  | .arr items =>
    if items.length ≤ fields.length || s = .toml then some ⟨fields.zip items, true, s⟩ else none
  | j => ofEntries? fields s j

def get? (r : Record) (field : String) : Option Json := r.entries.lookup field

/-- The name of a variant whose value stands in another field. -/
def variant? (r : Record) (field : String) : Option String :=
  (r.get? field).bind (Json.literalText? r.surroundings)

variable {α : Type} [JsonForm α]

def required (r : Record) (field : String) : Option α :=
  (r.get? field).bind (decodeIn r.surroundings)

def optional (r : Record) (field : String) : Option (Option α) :=
  match r.get? field with
  | none => if r.isPositional then none else some none
  | some j => decodeIn r.surroundings j

def withDefault (r : Record) (field : String) (default : α) : Option α :=
  match r.get? field with
  | none => some default
  | some j => decodeIn r.surroundings j

end Record

namespace Json

/-- The name that a tag gives to a variant. -/
def tagName? (variants : List String) : Surroundings → Json → Option String
  | _, .str name => some name
  | .union, .int (.ofNat n) => variants[n]?
  | _, _ => none

/-- The name of the variant, and a value that holds its fields. -/
def variant? (tag : String) (variants : List String) (s : Surroundings) (j : Json) :
    Option (String × Json) :=
  if !j.isReadable then none
  else
    match j with
    | .arr (name :: fields) => (tagName? variants s name).map (·, .arr fields)
    | j => do
      let r ← Record.ofEntries? [tag] s j
      let name ← tagName? variants s (← r.get? tag)
      return (name, j)

/-- What holds the fields of a variant that has none: any object or an empty list. -/
def fieldless? (j : Json) : Option Unit :=
  match j with
  | .arr (_ :: _) => none
  | _ => some ()

end Json

end TemplateCatalog
