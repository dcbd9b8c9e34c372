import TemplateCatalog.Json.Form

/-!
# Translations

Texts by locale and, within a locale, by field.
-/

namespace TemplateCatalog

/-- Fields of every locale. -/
@[ext]
structure Translations where
  locales : Dictionary (Dictionary String)
  deriving DecidableEq

namespace Translations

def empty : Translations := ⟨∅⟩

instance : EmptyCollection Translations := ⟨empty⟩

instance : Inhabited Translations := ⟨empty⟩

def get? (t : Translations) (locale field : String) : Option String :=
  (t.locales.get? locale).bind fun fields => fields.get? field

def insert (t : Translations) (locale field text : String) : Translations :=
  let fields := (t.locales.get? locale).getD ∅
  ⟨t.locales.insert locale (fields.insert field text)⟩

/-- The name in a locale, else the first name in any locale. -/
def name? (t : Translations) (locale : String) : Option String :=
  (t.get? locale "name").or (t.locales.values.findSome? fun fields => fields.get? "name")

/-- Whether no field is translated. -/
def isEmpty (t : Translations) : Bool := t.locales.values.all Dictionary.isEmpty

/-- The translated fields with their locales, in order. -/
def fieldKeys (t : Translations) : List (String × String) :=
  t.locales.entries.flatMap fun e => e.2.keys.map fun field => (e.1, field)

/-- Pairs of a locale and a field, by locale first. -/
def keyLe (a b : String × String) : Bool := a.1 < b.1 || (a.1 == b.1 && a.2 ≤ b.2)

/-- The fields that either side translates, in order and each once. -/
def keysUnion (a b : Translations) : List (String × String) :=
  (a.fieldKeys ++ b.fieldKeys.filter fun k => !a.fieldKeys.contains k).mergeSort keyLe

end Translations

instance : JsonForm Translations where
  encode t := encode t.locales
  decodeIn s j := (decodeIn s j).map Translations.mk

end TemplateCatalog
