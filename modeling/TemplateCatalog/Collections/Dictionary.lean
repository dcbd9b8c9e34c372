/-!
# Dictionaries

A dictionary maps texts to values. Its entries are kept in increasing order of
their keys, so that equal dictionaries have equal entries and "the first entry"
has a meaning. Keys compare by code point, which is also the order of their
UTF-8 bytes.

* `insert` keeps the order and replaces the value of a key that is present.
* `ofEntries` reads entries from left to right; the last one of a key stays.
* `ofEntries_entries`: reading back the entries of a dictionary gives it again.
-/

namespace TemplateCatalog

/-- Entries with strictly increasing keys. -/
@[ext]
structure Dictionary (α : Type) where
  entries : List (String × α)
  sorted : entries.Pairwise fun a b => a.1 < b.1
  deriving DecidableEq

namespace Dictionary

variable {α β : Type}

def empty : Dictionary α := ⟨[], .nil⟩

instance : EmptyCollection (Dictionary α) := ⟨empty⟩

instance : Inhabited (Dictionary α) := ⟨empty⟩

def keys (d : Dictionary α) : List String := d.entries.map (·.1)

def values (d : Dictionary α) : List α := d.entries.map (·.2)

def isEmpty (d : Dictionary α) : Bool := d.entries.isEmpty

def get? (d : Dictionary α) (key : String) : Option α := d.entries.lookup key

/-- Places an entry in sorted entries, replacing the value of an equal key. -/
def insertEntry (key : String) (value : α) : List (String × α) → List (String × α)
  | [] => [(key, value)]
  | (k, v) :: rest =>
    if key < k then (key, value) :: (k, v) :: rest
    else if key = k then (key, value) :: rest
    else (k, v) :: insertEntry key value rest

theorem mem_insertEntry {key : String} {value : α} {es : List (String × α)} {e : String × α}
    (h : e ∈ insertEntry key value es) : e = (key, value) ∨ e ∈ es := by
  induction es with
  | nil => simpa [insertEntry] using h
  | cons p rest ih =>
    obtain ⟨k, v⟩ := p
    simp only [insertEntry] at h
    split at h
    · simpa using h
    · split at h
      · simp only [List.mem_cons] at h ⊢
        exact h.imp id .inr
      · simp only [List.mem_cons] at h ⊢
        rcases h with h | h
        · exact .inr (.inl h)
        · exact (ih h).imp id .inr

theorem insertEntry_sorted (key : String) (value : α) {es : List (String × α)}
    (h : es.Pairwise fun a b => a.1 < b.1) :
    (insertEntry key value es).Pairwise fun a b => a.1 < b.1 := by
  induction es with
  | nil => simp [insertEntry]
  | cons p rest ih =>
    obtain ⟨k, v⟩ := p
    obtain ⟨hk, hrest⟩ := List.pairwise_cons.mp h
    simp only [insertEntry]
    split
    · next hlt =>
      refine List.pairwise_cons.mpr ⟨?_, h⟩
      intro e he
      rcases List.mem_cons.mp he with rfl | he
      · exact hlt
      · exact String.lt_trans hlt (hk e he)
    · next hnlt =>
      split
      · next heq => exact List.pairwise_cons.mpr ⟨fun e he => heq ▸ hk e he, hrest⟩
      · next hne =>
        refine List.pairwise_cons.mpr ⟨?_, ih hrest⟩
        intro e he
        rcases mem_insertEntry he with rfl | he
        · exact (Std.le_iff_lt_or_eq.mp (String.not_lt.mp hnlt)).resolve_right (fun h => hne h.symm)
        · exact hk e he

def insert (d : Dictionary α) (key : String) (value : α) : Dictionary α :=
  ⟨insertEntry key value d.entries, insertEntry_sorted key value d.sorted⟩

def ofEntries (es : List (String × α)) : Dictionary α :=
  es.foldl (fun d e => d.insert e.1 e.2) empty

def singleton (key : String) (value : α) : Dictionary α := empty.insert key value

/-- An entry beyond all present keys goes to the end. -/
theorem insertEntry_of_lt {key : String} {value : α} {es : List (String × α)}
    (h : ∀ e ∈ es, e.1 < key) : insertEntry key value es = es ++ [(key, value)] := by
  induction es with
  | nil => rfl
  | cons p rest ih =>
    obtain ⟨k, v⟩ := p
    have hk : k < key := h (k, v) List.mem_cons_self
    have hnot : ¬ key < k := String.lt_asymm hk
    have hne : key ≠ k := fun he => String.lt_irrefl k (he ▸ hk)
    simp [insertEntry, hnot, hne, ih fun e he => h e (List.mem_cons_of_mem _ he)]

theorem foldl_insert_entries (d : Dictionary α) {es : List (String × α)}
    (h : (d.entries ++ es).Pairwise fun a b => a.1 < b.1) :
    (es.foldl (fun d e => d.insert e.1 e.2) d).entries = d.entries ++ es := by
  induction es generalizing d with
  | nil => simp
  | cons e rest ih =>
    have hlt : ∀ x ∈ d.entries, x.1 < e.1 := fun x hx =>
      (List.pairwise_append.mp h).2.2 x hx e List.mem_cons_self
    have hstep : (d.insert e.1 e.2).entries = d.entries ++ [e] := insertEntry_of_lt hlt
    rw [List.foldl_cons, ih, hstep, List.append_assoc, List.singleton_append]
    rw [hstep, List.append_assoc, List.singleton_append]
    exact h

@[simp] theorem ofEntries_entries (d : Dictionary α) : ofEntries d.entries = d := by
  apply Dictionary.ext
  have h : (d.entries.foldl (fun d e => d.insert e.1 e.2) empty).entries =
      (empty : Dictionary α).entries ++ d.entries :=
    foldl_insert_entries empty (by simpa [empty] using d.sorted)
  simpa [ofEntries, empty] using h

theorem mem_of_mem_foldl_insert {d : Dictionary α} {es : List (String × α)} {e : String × α}
    (h : e ∈ (es.foldl (fun d e => d.insert e.1 e.2) d).entries) : e ∈ d.entries ∨ e ∈ es := by
  induction es generalizing d with
  | nil => exact .inl h
  | cons x rest ih =>
    rcases ih h with h | h
    · rcases mem_insertEntry h with h | h
      · exact .inr (h ▸ List.mem_cons_self)
      · exact .inl h
    · exact .inr (List.mem_cons_of_mem _ h)

/-- Every entry of a dictionary is one of the entries it was read from. -/
theorem mem_of_mem_ofEntries {es : List (String × α)} {e : String × α}
    (h : e ∈ (ofEntries es).entries) : e ∈ es := by
  rcases mem_of_mem_foldl_insert h with h | h
  · simp [empty] at h
  · exact h

end Dictionary

end TemplateCatalog
