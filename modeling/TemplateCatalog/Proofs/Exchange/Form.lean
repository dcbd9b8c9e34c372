import TemplateCatalog.Json.Record
import TemplateCatalog.Proofs.Collections
import TemplateCatalog.Proofs.Exchange.Text

/-!
# Forms that read back

A form is lawful if every value is read back from what is written for it, and if
all that is written can be read, wherever it stands. The second half is needed
because a union refuses what holds an unreadable value.

Lawfulness is an instance, found from the parts of a type. Here are the parts
that all types are made of: scalars, lists, dictionaries, sets, enumerations and
identifiers. An optional value is written as null or as itself, so it is lawful
only where no value itself is written as null (`NeverNull`).

Results:
1. `LawfulForm` with its instances for all generic forms.
2. `Record.ofJson?_obj`, `Record.get?_cons`: an object with distinct names is a
   record in which every entry is found.
3. `Json.variant?_obj`: a union is told by the tag among its entries.
-/

namespace TemplateCatalog

class LawfulForm (α : Type) [JsonForm α] : Prop where
  decodeIn_encode : ∀ (s : Surroundings) (a : α), decodeIn s (encode a) = some a
  isReadable_encode : ∀ a : α, (encode a).isReadable = true

export LawfulForm (decodeIn_encode isReadable_encode)

attribute [simp] decodeIn_encode isReadable_encode

/-- No value is written as null. -/
class NeverNull (α : Type) [JsonForm α] : Prop where
  encode_ne_null : ∀ a : α, encode a ≠ .null

/-- The values of an enumeration are spelled differently. -/
class DistinctNames (α : Type) [Literal α] : Prop where
  nodup : (Literal.names α).Nodup

/-! ## Readable values -/

namespace Json

@[simp] theorem isReadable_str (text : String) : (str text).isReadable = true := by
  simp [isReadable]

theorem isReadable_arr {items : List Json} :
    (arr items).isReadable = true ↔ ∀ j ∈ items, j.isReadable = true := by
  rw [isReadable, allReadable_eq_all, List.all_eq_true]

@[simp] theorem isReadable_obj {entries : List (String × Json)} :
    (obj entries).isReadable = true ↔ ∀ e ∈ entries, e.2.isReadable = true := by
  rw [isReadable, entriesReadable_eq_all, List.all_eq_true]

end Json

/-! ## Scalars -/

instance : LawfulForm FreeForm where
  decodeIn_encode _ v := v.ofJson?_json
  isReadable_encode v := v.readable

instance : LawfulForm Bool where
  decodeIn_encode _ _ := rfl
  isReadable_encode b := by simp [encode, Json.isReadable]

instance : LawfulForm String where
  decodeIn_encode _ _ := rfl
  isReadable_encode text := Json.isReadable_str text

instance : LawfulForm Nat where
  decodeIn_encode _ _ := rfl
  isReadable_encode n := by simp [encode, Json.isReadable]

instance {kind : IdKind} : LawfulForm (Id kind) where
  decodeIn_encode _ id := id.ofText?_text
  isReadable_encode id := Json.isReadable_str id.text

instance : LawfulForm TemplateVersion where
  decodeIn_encode _ v := v.ofText?_text
  isReadable_encode v := Json.isReadable_str v.text

theorem Literal.ofText?_literal {α : Type} [Literal α] [DistinctNames α] (a : α) :
    ofText? (literal a) = some a :=
  find?_of_nodup DistinctNames.nodup (Enumerated.mem_all a)

instance {α : Type} [Literal α] [DistinctNames α] : LawfulForm α where
  decodeIn_encode _ a := Literal.ofText?_literal a
  isReadable_encode a := Json.isReadable_str (literal a)

instance : NeverNull String := ⟨fun _ => nofun⟩

instance {kind : IdKind} : NeverNull (Id kind) := ⟨fun _ => nofun⟩

instance {α : Type} [Literal α] : NeverNull α := ⟨fun _ => nofun⟩

/-! ## Collections -/

/-- What is written entry by entry is read entry by entry. -/
theorem mapM_map_eq_some {α β : Type} {f : α → β} {g : β → Option α} (as : List α)
    (h : ∀ a ∈ as, g (f a) = some a) : (as.map f).mapM g = some as := by
  induction as with
  | nil => rfl
  | cons a rest ih =>
    obtain ⟨head, behind⟩ := List.forall_mem_cons.mp h
    simp [head, ih behind]

instance {α : Type} [JsonForm α] [LawfulForm α] [NeverNull α] : LawfulForm (Option α) where
  decodeIn_encode s
    | none => rfl
    | some a => by
      -- the reader takes null for none, and anything else for a value
      have notNull := NeverNull.encode_ne_null a
      unfold instJsonFormOption
      simp
  isReadable_encode
    | none => by simp [encode, Json.isReadable]
    | some a => isReadable_encode a

instance {α : Type} [JsonForm α] [LawfulForm α] : LawfulForm (List α) where
  decodeIn_encode s as := mapM_map_eq_some as fun a _ => decodeIn_encode s a
  isReadable_encode _ := Json.isReadable_arr.mpr (List.forall_mem_map.mpr fun a _ =>
    isReadable_encode a)

instance {α : Type} [JsonForm α] : NeverNull (List α) := ⟨fun _ => nofun⟩

instance {α β : Type} [JsonForm α] [LawfulForm α] [JsonForm β] [LawfulForm β] :
    LawfulForm (α × β) where
  decodeIn_encode s p := by
    unfold instJsonFormProd
    simp
  isReadable_encode p := by
    unfold instJsonFormProd
    simp [Json.isReadable_arr]

instance {α : Type} [JsonForm α] [LawfulForm α] : LawfulForm (Dictionary α) where
  decodeIn_encode s d := by
    have read := mapM_map_eq_some (f := fun e : String × α => (e.1, encode e.2))
      (g := fun e => (decodeIn s e.2).map fun a => (e.1, a)) d.entries fun e _ => by simp
    unfold instJsonFormDictionary
    simp [Json.entries?, read]
  isReadable_encode _ := Json.isReadable_obj.mpr (List.forall_mem_map.mpr fun e _ =>
    isReadable_encode e.2)

instance {α : Type} [JsonForm α] [LawfulForm α] [DecidableEq α] : LawfulForm (DistinctList α) where
  decodeIn_encode s xs := by
    show (decodeIn s (encode xs.toList)).map DistinctList.ofList = some xs
    simp
  isReadable_encode xs := isReadable_encode xs.toList

instance {α : Type} [Enumerated α] [JsonForm α] [LawfulForm α] [DecidableEq α] :
    LawfulForm (EnumSet α) where
  decodeIn_encode s xs := by
    show (decodeIn s (encode xs.toList)).map EnumSet.ofList = some xs
    simp
  isReadable_encode xs := isReadable_encode xs.toList

instance {α : Type} [Enumerated α] [JsonForm α] [DecidableEq α] : NeverNull (EnumSet α) :=
  ⟨fun _ => nofun⟩

/-! ## Records -/

/-- A reader that goes field by field succeeds if every field is read. -/
theorem option_bind_eq_some_iff {α β : Type} {x : Option α} {f : α → Option β} {b : β} :
    (x >>= f) = some b ↔ ∃ a, x = some a ∧ f a = some b :=
  Option.bind_eq_some_iff

namespace Record

variable {fields : List String} {s : Surroundings} {entries : List (String × Json)}

/-- If names are distinct, every entry is found under its name. -/
theorem lookup_of_mem (distinct : (entries.map (·.1)).Nodup) {e : String × Json}
    (h : e ∈ entries) : entries.lookup e.1 = some e.2 := by
  induction entries with
  | nil => cases h
  | cons head rest ih =>
    obtain ⟨fresh, distinct⟩ := List.nodup_cons.mp distinct
    rw [List.lookup_cons]
    rcases List.mem_cons.mp h with rfl | h
    · rw [beq_self_eq_true]
    · have other : e.1 ≠ head.1 := fun same => fresh (List.mem_map.mpr ⟨e, h, same⟩)
      rw [beq_eq_false_iff_ne.mpr other]
      exact ih distinct h

@[simp] theorem ofEntries?_obj (distinct : (entries.map (·.1)).Nodup) :
    ofEntries? fields s (.obj entries) = some ⟨entries, false, s⟩ := by
  have once (f : String) : (entries.filter fun e => e.1 == f).length ≤ 1 := by
    have count := List.nodup_iff_count_le_one.mp distinct f
    rwa [List.count, List.countP_map, List.countP_eq_length_filter] at count
  simp [ofEntries?, Json.entries?, once]

@[simp] theorem ofJson?_obj (distinct : (entries.map (·.1)).Nodup) :
    ofJson? fields s (.obj entries) = some ⟨entries, false, s⟩ :=
  ofEntries?_obj distinct

@[simp] theorem get?_cons {key field : String} {j : Json} {positional : Bool} :
    get? ⟨(key, j) :: entries, positional, s⟩ field =
      if field = key then some j else get? ⟨entries, positional, s⟩ field := by
  rw [get?, List.lookup_cons]
  by_cases same : field = key
  · rw [if_pos same, beq_iff_eq.mpr same]
  · rw [if_neg same, beq_eq_false_iff_ne.mpr same]
    rfl

attribute [simp] required optional withDefault variant?

end Record

/-! ## Unions -/

namespace Json

/-- A readable object with distinct names is the variant that the tag among its entries names. -/
theorem variant?_of_lookup {tag name : String} {variants : List String} {s : Surroundings}
    {entries : List (String × Json)} (distinct : (entries.map (·.1)).Nodup)
    (readable : (obj entries).isReadable = true) (tagged : entries.lookup tag = some (.str name)) :
    (obj entries).variant? tag variants s = some (name, obj entries) := by
  have named : tagName? variants s (.str name) = some name := by cases s <;> rfl
  have found : Record.get? ⟨entries, false, s⟩ tag = some (.str name) := tagged
  simp [variant?, readable, Record.ofEntries?_obj distinct, found, named]

@[simp] theorem variant?_obj {tag name : String} {variants : List String} {s : Surroundings}
    {entries : List (String × Json)} (distinct : (tag :: entries.map (·.1)).Nodup)
    (readable : ∀ e ∈ entries, e.2.isReadable = true) :
    (obj ((tag, .str name) :: entries)).variant? tag variants s =
      some (name, obj ((tag, .str name) :: entries)) := by
  refine variant?_of_lookup distinct ?_ List.lookup_cons_self
  exact isReadable_obj.mpr (List.forall_mem_cons.mpr ⟨isReadable_str name, readable⟩)

@[simp] theorem literalText?_str {s : Surroundings} {text : String} :
    (str text).literalText? s = some text := by
  cases s <;> rfl

@[simp] theorem fieldless?_obj {entries : List (String × Json)} :
    (obj entries).fieldless? = some () := rfl

end Json

end TemplateCatalog
