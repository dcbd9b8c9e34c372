import Mathlib.Data.List.Zip
import TemplateCatalog.Proofs.Migration.Completeness

/-!
# Comparing the other way round

A comparison takes what only the old version has, what only the new one has and
what both have in branches of their own. Seen from the other version, every
change is its `Change.reverse`: what was removed is added, at the same index and
under the same label, and the two sides of a color, a value or a text trade
places.

The reversed comparison finds the reversed changes, part by part (`Mirrors`). A
category takes part only where both versions have its id at one position, so it
does not matter from which side the id is read.

Result: `diffRiskDefinition_reversed`. The changes from the new version to the
old one are the reversed changes from the old version to the new one.
-/

namespace TemplateCatalog

namespace Change

theorem reverse_involutive : Function.Involutive reverse := by
  intro c
  cases c with
  | newDefinition | color | add | remove | cellValue | text => rfl

theorem reverse_eq_iff {c d : Change} : c.reverse = d ↔ c = d.reverse :=
  reverse_involutive.eq_iff

end Change

/-- The first changes are the second ones, seen from the other version. -/
def Mirrors (cs ds : List Change) : Prop := ∀ c, c ∈ cs ↔ c.reverse ∈ ds

namespace Mirrors

variable {cs cs' ds ds' : List Change}

theorem nil : Mirrors [] [] := by
  intro c
  exact iff_of_false List.not_mem_nil List.not_mem_nil

theorem singleton (c : Change) : Mirrors [c.reverse] [c] := by
  intro d
  rw [List.mem_singleton, List.mem_singleton, Change.reverse_eq_iff]

theorem append (h : Mirrors cs ds) (h' : Mirrors cs' ds') : Mirrors (cs ++ cs') (ds ++ ds') := by
  intro c
  rw [List.mem_append, List.mem_append, h c, h' c]

theorem comm_right (h : Mirrors cs (ds ++ ds')) : Mirrors cs (ds' ++ ds) := by
  intro c
  rw [h c, List.mem_append, List.mem_append, or_comm]

theorem flatMap {α : Type} {as : List α} {f g : α → List Change}
    (h : ∀ a ∈ as, Mirrors (f a) (g a)) : Mirrors (as.flatMap f) (as.flatMap g) := by
  intro c
  rw [List.mem_flatMap, List.mem_flatMap]
  exact exists_congr fun a => and_congr_right fun ha => h a ha c

/-- What is compared position by position. -/
theorem positions {α : Type} {f : Nat → Option α → Option α → List Change}
    (h : ∀ i o n, Mirrors (f i n o) (f i o n)) (old new : List α) :
    Mirrors ((List.range (max new.length old.length)).flatMap fun i => f i new[i]? old[i]?)
      ((List.range (max old.length new.length)).flatMap fun i => f i old[i]? new[i]?) := by
  rw [Nat.max_comm]
  exact flatMap fun i _ => h i _ _

/-- What is compared where both lists have an entry. -/
theorem overlap {α : Type} {f : Nat → α → α → List Change}
    (h : ∀ i o n, Mirrors (f i n o) (f i o n)) (old new : List α) :
    Mirrors ((new.zip old).zipIdx.flatMap fun p => f p.2 p.1.1 p.1.2)
      ((old.zip new).zipIdx.flatMap fun p => f p.2 p.1.1 p.1.2) := by
  rw [← List.zip_swap old new, List.zipIdx_map, List.flatMap_map]
  exact flatMap fun p _ => h p.2 p.1.1 p.1.2

end Mirrors

namespace Diff

/-! ## Parts of a definition -/

theorem translations_mirrors (target : ChangeTarget) (old new : Translations) :
    Mirrors (translations target new old) (translations target old new) := by
  intro c
  rw [mem_translations, mem_translations]
  refine exists_congr fun locale => exists_congr fun field => and_congr ne_comm ?_
  rw [Change.reverse_eq_iff]
  rfl

theorem color_mirrors (target : ChangeTarget) (old new : Option String) :
    Mirrors (color target new old) (color target old new) := by
  intro c
  rw [mem_color, mem_color, Change.reverse_eq_iff]
  exact and_congr_left fun _ => ne_comm

theorem level_mirrors (axis : Axis) (target : Nat → ChangeTarget) (index : Nat)
    (old new : Option Level) :
    Mirrors (level axis target index new old) (level axis target index old new) := by
  cases old with
  | none =>
    cases new with
    | none => exact .nil
    | some n => exact .singleton (.add axis index n.label?)
  | some o =>
    cases new with
    | none => exact .singleton (.remove axis index o.label?)
    | some n => exact (color_mirrors _ _ _).append (translations_mirrors _ _ _)

theorem levels_mirrors (axis : Axis) (target : Nat → ChangeTarget) (old new : List Level) :
    Mirrors (levels axis target new old) (levels axis target old new) :=
  .positions (level_mirrors axis target) old new

theorem cell_mirrors (category : String) (ref : CellRef) (old new : MatrixCell) :
    Mirrors (cell category ref new old) (cell category ref old new) := by
  unfold cell
  by_cases same : old.value = new.value
  · rw [if_neg (not_not.mpr same), if_neg (not_not.mpr same.symm)]
    exact color_mirrors _ _ _
  · rw [if_pos same, if_pos (Ne.symm same)]
    exact .singleton (.cellValue category ref old.value new.value)

theorem cells_mirrors (category : String) (old new : ValueMatrix) :
    Mirrors (cells category new old) (cells category old new) := by
  have rows (row : Nat) (oldRow newRow : List MatrixCell) :=
    Mirrors.overlap (f := fun column => cell category ⟨row, column⟩)
      (fun column => cell_mirrors category ⟨row, column⟩) oldRow newRow
  exact .overlap rows old new

/-! ## Categories -/

section

variable (index : Nat) {old new : Category} (sameId : old.id = new.id)
include sameId

theorem matrix_mirrors : Mirrors (matrix index new old) (matrix index old new) := by
  unfold matrix
  rw [sameId]
  cases old.matrix with
  | none =>
    cases new.matrix with
    | none => exact .nil
    | some _ => exact .singleton (.add (.matrix new.id) index (some new.label))
  | some o =>
    cases new.matrix with
    | none => exact .singleton (.remove (.matrix new.id) index (some old.label))
    | some n => exact cells_mirrors new.id o n

theorem sameCategory_mirrors :
    Mirrors (sameCategory index new old) (sameCategory index old new) := by
  have matrices := matrix_mirrors index sameId
  unfold sameCategory
  rw [sameId]
  exact ((translations_mirrors _ _ _).append (levels_mirrors _ _ _ _)).append matrices

end

theorem category_mirrors (index : Nat) (old new : Option Category) :
    Mirrors (category index new old) (category index old new) := by
  cases old with
  | none =>
    cases new with
    | none => exact .nil
    | some n => exact .singleton (addedCategory index n)
  | some o =>
    cases new with
    | none => exact .singleton (removedCategory index o)
    | some n =>
      simp only [category]
      by_cases sameId : o.id = n.id
      · rw [if_pos sameId, if_pos sameId.symm]
        exact sameCategory_mirrors index sameId
      · rw [if_neg sameId, if_neg (Ne.symm sameId)]
        -- the removal comes first in both directions
        exact ((Mirrors.singleton (addedCategory index n)).append
          (.singleton (removedCategory index o))).comm_right

theorem categories_mirrors (old new : List Category) :
    Mirrors (categories new old) (categories old new) :=
  .positions category_mirrors old new

theorem riskDefinition_mirrors (old new : RiskDefinition) :
    Mirrors (riskDefinition new old) (riskDefinition old new) :=
  ((((translations_mirrors _ _ _).append (translations_mirrors _ _ _)).append
    (levels_mirrors _ _ _ _)).append (levels_mirrors _ _ _ _)).append (categories_mirrors _ _)

end Diff

theorem mem_diffRiskDefinition_reverse {old new : RiskDefinition} {c : Change} :
    c ∈ (diffRiskDefinition new old).toList ↔ c.reverse ∈ (diffRiskDefinition old new).toList := by
  rw [mem_diffRiskDefinition, mem_diffRiskDefinition]
  exact Diff.riskDefinition_mirrors old new c

/-- The changes back to the old version are the reversed changes to the new one, each once. -/
theorem diffRiskDefinition_reversed (old new : RiskDefinition) :
    (diffRiskDefinition new old).toList.Perm
      ((diffRiskDefinition old new).toList.map Change.reverse) := by
  have nodup := (diffRiskDefinition old new).changes.nodup.map Change.reverse_involutive.injective
  refine (List.perm_ext_iff_of_nodup (diffRiskDefinition new old).changes.nodup nodup).mpr ?_
  intro c
  calc c ∈ (diffRiskDefinition new old).toList
    _ ↔ c.reverse ∈ (diffRiskDefinition old new).toList := mem_diffRiskDefinition_reverse
    _ ↔ c ∈ (diffRiskDefinition old new).toList.map Change.reverse :=
      (List.mem_map_of_involutive Change.reverse_involutive).symm

end TemplateCatalog
