import Mathlib.Data.List.Chain
import TemplateCatalog.Migration.Compatibility

/-!
# Attributes over a chain of versions

Compatibility is decided step by step, from one version of a template to the
next. That the values of an attribute then carry over all of the steps rests on
two laws: a definition is compatible with itself, and compatibility composes. Both
are read off what compatibility means: the lists are equally deep, and inside
them no allowed value is lost (`Widens`).

Results:
1. `AttributeDefinition.isCompatible_iff`: what compatibility means.
2. `AttributeDefinition.isCompatible_trans`: compatibility composes.
3. `AttributeDefinition.change?_eq_none_iff`: an attribute does not change exactly if it
   is kept in a compatible form.
4. `isCompatible_preorder`: what carries over every step of a chain carries over
   from its first version to its last.
-/

namespace TemplateCatalog

namespace AttributeDefinition

/-- How many lists deep the values are. -/
def depth : AttributeDefinition → Nat
  | .list item => item.depth + 1
  | _ => 0

/-- The definition of the values inside all lists. -/
def innermost : AttributeDefinition → AttributeDefinition
  | .list item => item.innermost
  | a => a

/-- An enumeration allows all that it allowed before, and any other plain type stays as it is. -/
inductive Widens : AttributeDefinition → AttributeDefinition → Prop
  | enum {old new : List String} : (∀ v ∈ old, v ∈ new) → Widens (.enum old) (.enum new)
  | text : Widens .text .text
  | integer : Widens .integer .integer
  | boolean : Widens .boolean .boolean
  | date : Widens .date .date

variable {a b c old new : AttributeDefinition}

theorem Widens.trans (h : a.Widens b) (h' : b.Widens c) : a.Widens c := by
  cases h with
  | enum keeps =>
    cases h' with
    | enum keeps' => exact .enum fun v hv => keeps' v (keeps v hv)
  | text | integer | boolean | date => exact h'

/-! ## What compatibility means -/

theorem isCompatible_iff :
    isCompatible old new = true ↔ old.depth = new.depth ∧ old.innermost.Widens new.innermost := by
  induction old generalizing new with
  | list item ih =>
    cases new with
    | list item' => exact ih.trans (and_congr_left' Nat.succ_inj.symm)
    | text | integer | boolean | date | enum => exact ⟨nofun, nofun⟩
  | enum values =>
    cases new with
    | enum values' =>
      simp only [isCompatible, List.all_eq_true, List.contains_iff_mem]
      exact ⟨fun keeps => ⟨rfl, .enum keeps⟩, fun | ⟨_, .enum keeps⟩ => keeps⟩
    | text | integer | boolean | date | list => exact ⟨nofun, nofun⟩
  | text =>
    cases new with
    | text => exact iff_of_true rfl ⟨rfl, .text⟩
    | integer | boolean | date | enum | list => exact ⟨nofun, nofun⟩
  | integer =>
    cases new with
    | integer => exact iff_of_true rfl ⟨rfl, .integer⟩
    | text | boolean | date | enum | list => exact ⟨nofun, nofun⟩
  | boolean =>
    cases new with
    | boolean => exact iff_of_true rfl ⟨rfl, .boolean⟩
    | text | integer | date | enum | list => exact ⟨nofun, nofun⟩
  | date =>
    cases new with
    | date => exact iff_of_true rfl ⟨rfl, .date⟩
    | text | integer | boolean | enum | list => exact ⟨nofun, nofun⟩

theorem isCompatible_self (a : AttributeDefinition) : isCompatible a a = true := by
  induction a with
  | list item ih => exact ih
  | enum values => exact List.all_eq_true.mpr fun v hv => List.contains_iff_mem.mpr hv
  | text | integer | boolean | date => rfl

theorem isCompatible_trans (h : isCompatible a b = true) (h' : isCompatible b c = true) :
    isCompatible a c = true := by
  obtain ⟨deep, widens⟩ := isCompatible_iff.mp h
  obtain ⟨deep', widens'⟩ := isCompatible_iff.mp h'
  exact isCompatible_iff.mpr ⟨deep.trans deep', widens.trans widens'⟩

theorem change?_eq_none_iff {old : AttributeDefinition} {new : Option AttributeDefinition} :
    old.change? new = none ↔ ∃ kept, new = some kept ∧ isCompatible old kept = true := by
  unfold change?
  cases new with
  | none => simp
  | some kept => simp

end AttributeDefinition

/-! ## Versions of a template -/

namespace DomainTemplate

/-- What a template says of an attribute of an element type. -/
def attribute? (t : DomainTemplate) (type : ElementType) (aspect key : String) :
    Option AttributeDefinition :=
  (findElementType? t.elementTypes type).bind fun d => d.attributeDefinition? aspect key

/-- Nothing is to be reported of an attribute from one version to another. -/
def Carries (type : ElementType) (aspect key : String) (old new : DomainTemplate) : Prop :=
  ∀ a, old.attribute? type aspect key = some a → a.change? (new.attribute? type aspect key) = none

variable {type : ElementType} {aspect key : String} {first last : DomainTemplate}

theorem Carries.refl (t : DomainTemplate) : Carries type aspect key t t := fun a defined =>
  AttributeDefinition.change?_eq_none_iff.mpr ⟨a, defined, a.isCompatible_self⟩

theorem Carries.trans {old mid new : DomainTemplate} (h : Carries type aspect key old mid)
    (h' : Carries type aspect key mid new) : Carries type aspect key old new := by
  intro a defined
  obtain ⟨b, defined', compatible⟩ := AttributeDefinition.change?_eq_none_iff.mp (h a defined)
  obtain ⟨c, defined'', compatible'⟩ := AttributeDefinition.change?_eq_none_iff.mp (h' b defined')
  exact AttributeDefinition.change?_eq_none_iff.mpr
    ⟨c, defined'', AttributeDefinition.isCompatible_trans compatible compatible'⟩

theorem carries_of_isChain {versions : List DomainTemplate}
    (steps : versions.IsChain (Carries type aspect key)) (starts : versions.head? = some first)
    (ends : versions.getLast? = some last) : Carries type aspect key first last := by
  induction versions generalizing first with
  | nil => cases starts
  | cons t rest ih =>
    cases starts
    cases rest with
    | nil =>
      cases ends
      exact .refl _
    | cons next rest =>
      obtain ⟨step, steps⟩ := List.isChain_cons_cons.mp steps
      rw [List.getLast?_cons_cons] at ends
      exact step.trans (ih steps rfl ends)

end DomainTemplate

/-- Compatibility is reflexive and transitive. It means that both definitions are equally many lists
deep, and that the innermost ones are enumerations of which the new one allows all that the old one
allows, or are the same plain type. So an attribute that carries over every step of a chain of
versions carries over from the first version to the last. -/
theorem isCompatible_preorder :
    (∀ a : AttributeDefinition, a.isCompatible a = true) ∧
      (∀ a b c : AttributeDefinition,
        a.isCompatible b = true → b.isCompatible c = true → a.isCompatible c = true) ∧
      (∀ old new : AttributeDefinition, old.isCompatible new = true ↔
        old.depth = new.depth ∧ old.innermost.Widens new.innermost) ∧
      ∀ type aspect key (versions : List DomainTemplate) (first last : DomainTemplate),
        versions.IsChain (DomainTemplate.Carries type aspect key) →
        versions.head? = some first → versions.getLast? = some last →
        ∀ a, first.attribute? type aspect key = some a →
          a.change? (last.attribute? type aspect key) = none :=
  ⟨AttributeDefinition.isCompatible_self, fun _ _ _ => AttributeDefinition.isCompatible_trans,
    fun _ _ => AttributeDefinition.isCompatible_iff,
    fun _ _ _ _ _ _ => DomainTemplate.carries_of_isChain⟩

/-- The values of a list of lists are widened in one step and reordered in the next. -/
theorem isCompatible_preorder_of_three_versions :
    let systems (names : List String) : AttributeDefinition := .list (.list (.enum names))
    let version (minor : UInt32) (names : List String) : DomainTemplate :=
      { id := ⟨⟨0⟩⟩
        name := "template"
        version := { minor }
        elementTypes :=
          [ElementTypeDefinition.withAttribute { elementType := .asset } "details" "systems"
            (systems names)] }
    let chain := [version 0 ["bsd"], version 1 ["bsd", "linux"], version 2 ["linux", "bsd"]]
    chain.IsChain (DomainTemplate.Carries .asset "details" "systems") ∧
      (systems ["bsd"]).isCompatible (systems ["linux", "bsd"]) = true ∧
      (systems ["linux", "bsd"]).isCompatible (systems ["bsd"]) = false ∧
      (systems ["bsd"]).change? (some (systems ["linux", "bsd"])) = none := by
  intro systems version chain
  have steps : chain.IsChain (DomainTemplate.Carries .asset "details" "systems") := by
    refine List.isChain_cons_cons.mpr ⟨?_, List.isChain_cons_cons.mpr ⟨?_, .singleton _⟩⟩
    · rintro a ⟨⟩
      decide
    · rintro a ⟨⟩
      decide
  obtain ⟨-, compose, -, carry⟩ := isCompatible_preorder
  refine ⟨steps, ?_, by decide, ?_⟩
  · exact compose (systems ["bsd"]) (systems ["bsd", "linux"]) _ (by decide) (by decide)
  · exact carry _ _ _ chain _ _ steps rfl rfl _ rfl

end TemplateCatalog
