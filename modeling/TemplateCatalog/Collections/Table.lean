/-!
# Tables

Rows in the order of their insertion, no two with the same key. Putting a row
replaces the row of its key in place, or appends it.
-/

namespace TemplateCatalog

/-- Rows with pairwise distinct keys. -/
@[ext]
structure Table {α κ : Type} (key : α → κ) where
  rows : List α
  distinct_keys : (rows.map key).Nodup

namespace Table

variable {α κ : Type} {key : α → κ}

def empty : Table key := ⟨[], List.nodup_nil⟩

instance : EmptyCollection (Table key) := ⟨empty⟩

instance : Inhabited (Table key) := ⟨empty⟩

variable [DecidableEq κ]

def get? (t : Table key) (k : κ) : Option α := t.rows.find? fun a => key a = k

def contains (t : Table key) (k : κ) : Bool := (t.get? k).isSome

/-- Replaces the row of the same key, or appends. -/
def putRow (key : α → κ) (a : α) : List α → List α
  | [] => [a]
  | b :: rest => if key b = key a then a :: rest else b :: putRow key a rest

theorem map_key_putRow (a : α) (rows : List α) :
    (putRow key a rows).map key =
      if key a ∈ rows.map key then rows.map key else rows.map key ++ [key a] := by
  induction rows with
  | nil => simp [putRow]
  | cons b rest ih =>
    by_cases h : key b = key a
    · simp [putRow, h]
    · have h' : ¬ key a = key b := fun e => h e.symm
      by_cases hm : key a ∈ rest.map key
      · simp [putRow, h, h', ih, hm]
      · simp [putRow, h, h', ih, hm]

def put (t : Table key) (a : α) : Table key where
  rows := putRow key a t.rows
  distinct_keys := by
    rw [map_key_putRow]
    split
    · exact t.distinct_keys
    · next h =>
      rw [List.nodup_append]
      exact ⟨t.distinct_keys, by simp, fun x hx y hy => by
        simp at hy; exact fun e => h (hy ▸ e ▸ hx)⟩

def putAll (t : Table key) (as : List α) : Table key := as.foldl put t

def ofList (as : List α) : Table key := empty.putAll as

end Table

end TemplateCatalog
