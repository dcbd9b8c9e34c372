import TemplateCatalog.Collections.Dictionary
import TemplateCatalog.Number.Double

/-!
# JSON values

A value as it is written: an object keeps its entries in the order of the text,
repeated names included, because a record refuses a repeated field while a
dictionary lets the last one win. Whole numbers of 64 bits are `int`; every
other number is a `double`. What is written correctly but cannot be read, such
as a number beyond the range of a double, is `unreadable`: it may stand where
nobody asks for the value.

`normalize` gives the form in which values of unknown meaning are kept: objects
become dictionaries, at every depth. `FreeForm` is a readable value in that form.
-/

namespace TemplateCatalog

inductive Json where
  | null
  | bool (b : Bool)
  | int (n : Int)
  | double (d : Double)
  | str (s : String)
  | arr (items : List Json)
  | obj (entries : List (String × Json))
  | unreadable
  deriving Repr, Inhabited

namespace Json

mutual

def decEq : (a b : Json) → Decidable (a = b)
  | .null, .null | .unreadable, .unreadable => isTrue rfl
  | .bool a, .bool b => decidable_of_iff (a = b) (by simp)
  | .int a, .int b => decidable_of_iff (a = b) (by simp)
  | .double a, .double b => decidable_of_iff (a = b) (by simp)
  | .str a, .str b => decidable_of_iff (a = b) (by simp)
  | .arr as, .arr bs =>
    match decEqAll as bs with
    | isTrue h => isTrue (by rw [h])
    | isFalse h => isFalse (by simpa using h)
  | .obj as, .obj bs =>
    match decEqEntries as bs with
    | isTrue h => isTrue (by rw [h])
    | isFalse h => isFalse (by simpa using h)
  | .null, .bool _ | .null, .int _ | .null, .double _ | .null, .str _ | .null, .arr _
  | .null, .obj _ | .bool _, .null | .bool _, .int _ | .bool _, .double _ | .bool _, .str _
  | .bool _, .arr _ | .bool _, .obj _ | .int _, .null | .int _, .bool _ | .int _, .double _
  | .int _, .str _ | .int _, .arr _ | .int _, .obj _ | .double _, .null | .double _, .bool _
  | .double _, .int _ | .double _, .str _ | .double _, .arr _ | .double _, .obj _
  | .str _, .null | .str _, .bool _ | .str _, .int _ | .str _, .double _ | .str _, .arr _
  | .str _, .obj _ | .arr _, .null | .arr _, .bool _ | .arr _, .int _ | .arr _, .double _
  | .arr _, .str _ | .arr _, .obj _ | .obj _, .null | .obj _, .bool _ | .obj _, .int _
  | .obj _, .double _ | .obj _, .str _ | .obj _, .arr _ | .unreadable, .null
  | .unreadable, .bool _ | .unreadable, .int _ | .unreadable, .double _ | .unreadable, .str _
  | .unreadable, .arr _ | .unreadable, .obj _ | .null, .unreadable | .bool _, .unreadable
  | .int _, .unreadable | .double _, .unreadable | .str _, .unreadable | .arr _, .unreadable
  | .obj _, .unreadable => isFalse (by simp)

def decEqAll : (as bs : List Json) → Decidable (as = bs)
  | [], [] => isTrue rfl
  | [], _ :: _ => isFalse (by simp)
  | _ :: _, [] => isFalse (by simp)
  | a :: as, b :: bs =>
    match decEq a b, decEqAll as bs with
    | isTrue h, isTrue hs => isTrue (by rw [h, hs])
    | isFalse h, _ => isFalse (by simp [h])
    | _, isFalse hs => isFalse (by simp [hs])

def decEqEntries : (as bs : List (String × Json)) → Decidable (as = bs)
  | [], [] => isTrue rfl
  | [], _ :: _ => isFalse (by simp)
  | _ :: _, [] => isFalse (by simp)
  | (k, a) :: as, (l, b) :: bs =>
    if hk : k = l then
      match decEq a b, decEqEntries as bs with
      | isTrue h, isTrue hs => isTrue (by rw [hk, h, hs])
      | isFalse h, _ => isFalse (by simp [h])
      | _, isFalse hs => isFalse (by simp [hs])
    else isFalse (by simp [hk])

end

instance : DecidableEq Json := decEq

mutual

/-- How many arrays and objects stand inside one another. -/
def nesting : Json → Nat
  | .arr items => nestingAll items + 1
  | .obj entries => nestingEntries entries + 1
  | .null | .bool _ | .int _ | .double _ | .str _ | .unreadable => 0

def nestingAll : List Json → Nat
  | [] => 0
  | j :: rest => max j.nesting (nestingAll rest)

def nestingEntries : List (String × Json) → Nat
  | [] => 0
  | (_, j) :: rest => max j.nesting (nestingEntries rest)

end

mutual

/-- Whether nothing in a value is unreadable. -/
def isReadable : Json → Bool
  | .unreadable => false
  | .arr items => allReadable items
  | .obj entries => entriesReadable entries
  | .null | .bool _ | .int _ | .double _ | .str _ => true

def allReadable : List Json → Bool
  | [] => true
  | j :: rest => j.isReadable && allReadable rest

def entriesReadable : List (String × Json) → Bool
  | [] => true
  | (_, j) :: rest => j.isReadable && entriesReadable rest

end

theorem allReadable_eq_all (js : List Json) : allReadable js = js.all isReadable := by
  induction js with
  | nil => simp [allReadable]
  | cons j rest ih => simp [allReadable, ih]

theorem entriesReadable_eq_all (es : List (String × Json)) :
    entriesReadable es = es.all fun e => e.2.isReadable := by
  induction es with
  | nil => simp [entriesReadable]
  | cons e rest ih => obtain ⟨k, j⟩ := e; simp [entriesReadable, ih]

mutual

/-- Objects become dictionaries, at every depth. -/
def normalize : Json → Json
  | .arr items => .arr (normalizeAll items)
  | .obj entries => .obj (Dictionary.ofEntries (normalizeEntries entries)).entries
  | .null => .null
  | .bool b => .bool b
  | .int n => .int n
  | .double d => .double d
  | .str s => .str s
  | .unreadable => .unreadable

def normalizeAll : List Json → List Json
  | [] => []
  | j :: rest => j.normalize :: normalizeAll rest

def normalizeEntries : List (String × Json) → List (String × Json)
  | [] => []
  | (key, j) :: rest => (key, j.normalize) :: normalizeEntries rest

end

theorem normalizeEntries_eq_map (es : List (String × Json)) :
    normalizeEntries es = es.map fun e => (e.1, e.2.normalize) := by
  induction es with
  | nil => simp [normalizeEntries]
  | cons e rest ih => obtain ⟨k, j⟩ := e; simp [normalizeEntries, ih]

/-- Entries whose values are in normal form stay as they are. -/
theorem normalizeEntries_eq_self {es : List (String × Json)}
    (h : ∀ e ∈ es, e.2.normalize = e.2) : normalizeEntries es = es := by
  rw [normalizeEntries_eq_map]
  conv => rhs; rw [← List.map_id es]
  exact List.map_congr_left fun e he => by simp [h e he]

mutual

theorem normalize_normalize : (j : Json) → j.normalize.normalize = j.normalize
  | .null | .bool _ | .int _ | .double _ | .str _ | .unreadable => by simp [normalize]
  | .arr items => by simp [normalize, normalizeAll_normalizeAll items]
  | .obj entries => by
    simp only [normalize]
    have h : ∀ e ∈ (Dictionary.ofEntries (normalizeEntries entries)).entries,
        e.2.normalize = e.2 :=
      fun e he => normal_of_mem entries e (Dictionary.mem_of_mem_ofEntries he)
    rw [normalizeEntries_eq_self h, Dictionary.ofEntries_entries]

theorem normalizeAll_normalizeAll : (js : List Json) →
    normalizeAll (normalizeAll js) = normalizeAll js
  | [] => by simp [normalizeAll]
  | j :: rest => by
    simp [normalizeAll, normalize_normalize j, normalizeAll_normalizeAll rest]

theorem normal_of_mem : (es : List (String × Json)) → ∀ e ∈ normalizeEntries es,
    e.2.normalize = e.2
  | [], _, h => by simp [normalizeEntries] at h
  | (_, j) :: rest, e, h => by
    simp only [normalizeEntries, List.mem_cons] at h
    rcases h with rfl | h
    · exact normalize_normalize j
    · exact normal_of_mem rest e h

end

mutual

theorem isReadable_normalize : (j : Json) → j.isReadable → j.normalize.isReadable
  | .null, _ | .bool _, _ | .int _, _ | .double _, _ | .str _, _ => by
    simp [normalize, isReadable]
  | .unreadable, h => by simp [isReadable] at h
  | .arr items, h => by
    simp only [normalize, isReadable] at h ⊢
    exact allReadable_normalizeAll items h
  | .obj entries, h => by
    simp only [normalize, isReadable] at h ⊢
    have all := entriesReadable_normalizeEntries entries h
    rw [entriesReadable_eq_all, List.all_eq_true] at all ⊢
    exact fun e he => all e (Dictionary.mem_of_mem_ofEntries he)

theorem allReadable_normalizeAll : (js : List Json) → allReadable js →
    allReadable (normalizeAll js)
  | [], _ => by simp [normalizeAll, allReadable]
  | j :: rest, h => by
    simp only [allReadable, normalizeAll, Bool.and_eq_true] at h ⊢
    exact ⟨isReadable_normalize j h.1, allReadable_normalizeAll rest h.2⟩

theorem entriesReadable_normalizeEntries : (es : List (String × Json)) → entriesReadable es →
    entriesReadable (normalizeEntries es)
  | [], _ => by simp [normalizeEntries, entriesReadable]
  | (_, j) :: rest, h => by
    simp only [entriesReadable, normalizeEntries, Bool.and_eq_true] at h ⊢
    exact ⟨isReadable_normalize j h.1, entriesReadable_normalizeEntries rest h.2⟩

end

end Json

/-- A JSON value of unknown meaning, its objects without order and repetition. -/
@[ext]
structure FreeForm where
  json : Json
  normal : json.normalize = json
  readable : json.isReadable
  deriving DecidableEq

namespace FreeForm

def ofJson? (j : Json) : Option FreeForm :=
  if h : j.isReadable then some ⟨j.normalize, j.normalize_normalize, j.isReadable_normalize h⟩
  else none

@[simp] theorem ofJson?_json (v : FreeForm) : ofJson? v.json = some v := by
  rw [ofJson?, dif_pos v.readable]
  exact congrArg some (FreeForm.ext v.normal)

instance : Inhabited FreeForm := ⟨.null, by simp [Json.normalize], by simp [Json.isReadable]⟩

end FreeForm

end TemplateCatalog
