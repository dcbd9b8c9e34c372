/-!
# Lists without repetition

An ordered collection that holds each value once, at the place where it was
added first.
-/

namespace TemplateCatalog

/-- A list that holds no value twice. -/
@[ext]
structure DistinctList (α : Type) where
  toList : List α
  nodup : toList.Nodup
  deriving DecidableEq

namespace DistinctList

variable {α : Type}

def empty : DistinctList α := ⟨[], List.nodup_nil⟩

instance : EmptyCollection (DistinctList α) := ⟨empty⟩

instance : Inhabited (DistinctList α) := ⟨empty⟩

def length (xs : DistinctList α) : Nat := xs.toList.length

def isEmpty (xs : DistinctList α) : Bool := xs.toList.isEmpty

variable [DecidableEq α]

def contains (xs : DistinctList α) (a : α) : Bool := xs.toList.contains a

/-- Adds a value at the end unless it is present. -/
def push (xs : DistinctList α) (a : α) : DistinctList α :=
  if h : a ∈ xs.toList then xs
  else ⟨xs.toList ++ [a], by
    rw [List.nodup_append]
    exact ⟨xs.nodup, by simp, fun b hb c hc => by simp at hc; exact fun e => h (hc ▸ e ▸ hb)⟩⟩

theorem toList_push (xs : DistinctList α) (a : α) :
    (xs.push a).toList = if a ∈ xs.toList then xs.toList else xs.toList ++ [a] := by
  unfold push
  split <;> rfl

def append (xs : DistinctList α) (as : List α) : DistinctList α := as.foldl push xs

def ofList (as : List α) : DistinctList α := empty.append as

theorem toList_append {xs : DistinctList α} {as : List α} (h : (xs.toList ++ as).Nodup) :
    (xs.append as).toList = xs.toList ++ as := by
  induction as generalizing xs with
  | nil => simp [append]
  | cons a rest ih =>
    have ha : a ∉ xs.toList := fun hmem =>
      (List.nodup_append.mp h).2.2 a hmem a List.mem_cons_self rfl
    have hpush : (xs.push a).toList = xs.toList ++ [a] := by simp [toList_push, ha]
    have hrest : ((xs.push a).toList ++ rest).Nodup := by simpa [hpush] using h
    have := ih hrest
    simpa [append, hpush] using this

@[simp] theorem ofList_toList (xs : DistinctList α) : ofList xs.toList = xs := by
  apply DistinctList.ext
  have h : ((empty : DistinctList α).append xs.toList).toList =
      (empty : DistinctList α).toList ++ xs.toList :=
    toList_append (by simpa [empty] using xs.nodup)
  simpa [ofList, empty] using h

end DistinctList

/-- The values of a list without repetition, first occurrences kept. -/
def distinct {α : Type} [DecidableEq α] (as : List α) : List α := (DistinctList.ofList as).toList

end TemplateCatalog
