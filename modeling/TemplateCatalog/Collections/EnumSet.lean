/-!
# Sets over an enumeration

A set of values of a finite enumeration is its membership test. Two sets are
equal as soon as they have the same members, and a set is written as the list
of its members in declaration order.
-/

namespace TemplateCatalog

/-- A type with finitely many values, listed in declaration order. -/
class Enumerated (α : Type) where
  all : List α
  mem_all : ∀ a : α, a ∈ all

/-- A set of values of an enumeration. -/
@[ext]
structure EnumSet (α : Type) where
  contains : α → Bool

namespace EnumSet

variable {α : Type}

def empty : EnumSet α := ⟨fun _ => false⟩

instance : EmptyCollection (EnumSet α) := ⟨empty⟩

instance : Inhabited (EnumSet α) := ⟨empty⟩

instance : Membership α (EnumSet α) := ⟨fun s a => s.contains a = true⟩

instance (a : α) (s : EnumSet α) : Decidable (a ∈ s) :=
  inferInstanceAs (Decidable (s.contains a = true))

def ofList [DecidableEq α] (as : List α) : EnumSet α := ⟨fun a => as.contains a⟩

/-- The members in declaration order. -/
def toList [Enumerated α] (s : EnumSet α) : List α := Enumerated.all.filter s.contains

def union (s t : EnumSet α) : EnumSet α := ⟨fun a => s.contains a || t.contains a⟩

@[simp] theorem mem_def {a : α} {s : EnumSet α} : a ∈ s ↔ s.contains a = true := Iff.rfl

@[simp] theorem mem_toList [Enumerated α] {a : α} {s : EnumSet α} : a ∈ s.toList ↔ a ∈ s := by
  simp [toList, Enumerated.mem_all]

@[simp] theorem ofList_toList [Enumerated α] [DecidableEq α] (s : EnumSet α) :
    ofList s.toList = s := by
  ext a
  rw [Bool.eq_iff_iff]
  simp [ofList]

theorem toList_injective [Enumerated α] {s t : EnumSet α} (h : s.toList = t.toList) : s = t := by
  ext a
  have hs : a ∈ s.toList ↔ a ∈ s := mem_toList
  have ht : a ∈ t.toList ↔ a ∈ t := mem_toList
  rw [h] at hs
  rw [Bool.eq_iff_iff]
  exact hs.symm.trans ht

instance [Enumerated α] [DecidableEq α] : DecidableEq (EnumSet α) := fun s t =>
  if h : s.toList = t.toList then isTrue (toList_injective h)
  else isFalse (fun e => h (e ▸ rfl))

end EnumSet

end TemplateCatalog
