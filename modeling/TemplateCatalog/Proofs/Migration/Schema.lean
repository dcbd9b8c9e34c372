import Mathlib.Data.List.Flatten
import TemplateCatalog.Migration.Evaluate
import TemplateCatalog.Proofs.Collections
import TemplateCatalog.Proofs.Migration.Compatibility

/-!
# What elements lose when a schema changes

An element uses its sub-type, its status and the attributes that it has values
for. `Loses` says which of these the definition of its type has and a new
definition no longer has; a missing new definition has nothing at all.

Results:
1. `ElementTypeDefinition.breaks_eq_nil_iff`, `elementTypeBreaks_eq_nil_iff`:
   nothing is reported exactly if no element loses anything.
2. `ElementTypeDefinition.not_loses_self`: nothing is lost if nothing changes.
3. `ElementTypeDefinition.allows_of_not_loses`: an element that loses nothing is
   still allowed its status.
4. `elementTypeBreaks_sublist`: more elements add to the report and take
   nothing out of it.
-/

namespace TemplateCatalog

namespace ElementTypeDefinition

/-- An element uses what the old definition has and the new one does not have, or has in a form
that is not compatible. -/
inductive Loses (old : ElementTypeDefinition) (new : Option ElementTypeDefinition) (e : Element) :
    Prop
  | subType {subType : String} {definition : SubTypeDefinition} :
      old.subTypes.get? subType = some definition → e.subType = some subType →
      (new.bind fun d => d.subTypes.get? subType) = none → Loses old new e
  | status {subType status : String} {definition kept : SubTypeDefinition} :
      old.subTypes.get? subType = some definition → e.subType = some subType →
      (new.bind fun d => d.subTypes.get? subType) = some kept →
      status ∈ definition.statuses → status ∉ kept.statuses → e.status = some status →
      Loses old new e
  | value {aspect key : String} {definition : AttributeDefinition} :
      old.attributeDefinition? aspect key = some definition →
      e.attributeValue? aspect key ≠ none →
      (∀ kept, (new.bind fun d => d.attributeDefinition? aspect key) = some kept →
        definition.isCompatible kept = false) → Loses old new e

variable {old : ElementTypeDefinition} {new : Option ElementTypeDefinition}
  {elements elements' : List Element} {e : Element}

/-! ## Sub-types in use -/

theorem mem_subTypeBreaks {subType : String} {definition : SubTypeDefinition}
    {b : BreakingChange} :
    b ∈ old.subTypeBreaks new elements subType definition ↔
      ∃ e ∈ elements, e.elementType = old.elementType ∧ e.subType = some subType ∧
        ((new.bind fun d => d.subTypes.get? subType) = none ∧
            b = .subTypeInUse old.elementType subType e.id ∨
          ∃ kept status, (new.bind fun d => d.subTypes.get? subType) = some kept ∧
            status ∈ definition.statuses ∧ status ∉ kept.statuses ∧ e.status = some status ∧
            b = .statusInUse old.elementType subType status e.id) := by
  unfold subTypeBreaks
  cases new.bind fun d => d.subTypes.get? subType with
  | none =>
    simp only [List.mem_map, List.mem_filter, Bool.and_eq_true, decide_eq_true_eq, beq_iff_eq]
    constructor
    · rintro ⟨e, ⟨he, htype, hsub⟩, rfl⟩
      exact ⟨e, he, htype, hsub, .inl ⟨trivial, rfl⟩⟩
    · rintro ⟨e, he, htype, hsub, ⟨-, rfl⟩ | ⟨_, _, gone, -⟩⟩
      · exact ⟨e, ⟨he, htype, hsub⟩, rfl⟩
      · cases gone
  | some kept =>
    simp only [List.mem_flatMap, List.mem_map, List.mem_filter, Bool.and_eq_true,
      decide_eq_true_eq, beq_iff_eq, Bool.not_eq_true', List.contains_eq_mem,
      decide_eq_false_iff_not]
    constructor
    · rintro ⟨status, ⟨defined, gone⟩, e, ⟨⟨he, htype, hsub⟩, hstatus⟩, rfl⟩
      exact ⟨e, he, htype, hsub, .inr ⟨kept, status, rfl, defined, gone, hstatus, rfl⟩⟩
    · rintro ⟨e, he, htype, hsub, ⟨gone, -⟩ | ⟨_, status, ⟨⟩, defined, gone, hstatus, rfl⟩⟩
      · cases gone
      · exact ⟨status, ⟨defined, gone⟩, e, ⟨⟨he, htype, hsub⟩, hstatus⟩, rfl⟩

/-! ## Attributes in use -/

theorem attributeDefinition?_eq_some_iff {d : ElementTypeDefinition} {aspect key : String}
    {definition : AttributeDefinition} :
    d.attributeDefinition? aspect key = some definition ↔
      ∃ a, (aspect, a) ∈ d.customAspects.entries ∧ (key, definition) ∈ a.attributes.entries := by
  unfold attributeDefinition?
  rw [Option.bind_eq_some_iff]
  simp only [Dictionary.get?_eq_some_iff]

theorem mem_attributeBreaks {aspect key : String} {definition : AttributeDefinition}
    {b : BreakingChange} :
    b ∈ old.attributeBreaks new elements aspect key definition ↔
      ∃ e ∈ elements, e.elementType = old.elementType ∧ e.attributeValue? aspect key ≠ none ∧
        ∃ change,
          definition.change? (new.bind fun d => d.attributeDefinition? aspect key) = some change ∧
          b = .attributeInUse old.elementType aspect key change e.id := by
  unfold attributeBreaks
  cases definition.change? (new.bind fun d => d.attributeDefinition? aspect key) with
  | none => simp
  | some change =>
    simp only [List.mem_map, List.mem_filter, Bool.and_eq_true, decide_eq_true_eq,
      Option.isSome_iff_ne_none, Option.some.injEq, exists_eq_left']
    constructor
    · rintro ⟨e, ⟨he, htype, hvalue⟩, rfl⟩
      exact ⟨e, he, htype, hvalue, rfl⟩
    · rintro ⟨e, he, htype, hvalue, rfl⟩
      exact ⟨e, ⟨he, htype, hvalue⟩, rfl⟩

/-! ## The report of one definition -/

theorem mem_breaks {b : BreakingChange} :
    b ∈ old.breaks new elements ↔
      (∃ subType definition, old.subTypes.get? subType = some definition ∧
        b ∈ old.subTypeBreaks new elements subType definition) ∨
      ∃ aspect key definition, old.attributeDefinition? aspect key = some definition ∧
        b ∈ old.attributeBreaks new elements aspect key definition := by
  simp only [breaks, List.mem_append, List.mem_flatMap, Prod.exists,
    Dictionary.get?_eq_some_iff, attributeDefinition?_eq_some_iff]
  refine or_congr_right ?_
  constructor
  · rintro ⟨aspect, a, ha, key, definition, hkey, hb⟩
    exact ⟨aspect, key, definition, ⟨a, ha, hkey⟩, hb⟩
  · rintro ⟨aspect, key, definition, ⟨a, ha, hkey⟩, hb⟩
    exact ⟨aspect, a, ha, key, definition, hkey, hb⟩

/-- Something is reported exactly if an element of the type loses something. -/
theorem exists_mem_breaks_iff :
    (∃ b, b ∈ old.breaks new elements) ↔
      ∃ e ∈ elements, e.elementType = old.elementType ∧ old.Loses new e := by
  simp only [mem_breaks, mem_subTypeBreaks, mem_attributeBreaks]
  constructor
  · rintro ⟨b, ⟨subType, definition, defined, e, he, htype, hsub, lost⟩ |
      ⟨aspect, key, definition, defined, e, he, htype, hvalue, change, changed, -⟩⟩
    · refine ⟨e, he, htype, ?_⟩
      rcases lost with ⟨gone, -⟩ | ⟨kept, status, found, listed, gone, hstatus, -⟩
      · exact .subType defined hsub gone
      · exact .status defined hsub found listed gone hstatus
    · refine ⟨e, he, htype, .value defined hvalue fun kept found => ?_⟩
      rw [← Bool.not_eq_true]
      intro compatible
      rw [AttributeDefinition.change?_eq_none_iff.mpr ⟨kept, found, compatible⟩] at changed
      cases changed
  · rintro ⟨e, he, htype, lost⟩
    cases lost with
    | subType defined hsub gone =>
      exact ⟨_, .inl ⟨_, _, defined, e, he, htype, hsub, .inl ⟨gone, rfl⟩⟩⟩
    | status defined hsub found listed gone hstatus =>
      exact ⟨_, .inl ⟨_, _, defined, e, he, htype, hsub,
        .inr ⟨_, _, found, listed, gone, hstatus, rfl⟩⟩⟩
    | @value aspect key definition defined hvalue incompatible =>
      have changed : definition.change? (new.bind fun d => d.attributeDefinition? aspect key) ≠
          none := by
        intro carried
        obtain ⟨kept, found, compatible⟩ := AttributeDefinition.change?_eq_none_iff.mp carried
        rw [incompatible kept found] at compatible
        cases compatible
      obtain ⟨change, changed⟩ := Option.ne_none_iff_exists'.mp changed
      exact ⟨_, .inr ⟨_, _, _, defined, e, he, htype, hvalue, change, changed, rfl⟩⟩

theorem breaks_eq_nil_iff :
    old.breaks new elements = [] ↔
      ∀ e ∈ elements, e.elementType = old.elementType → ¬ old.Loses new e := by
  rw [List.eq_nil_iff_forall_not_mem, ← not_exists, exists_mem_breaks_iff]
  simp only [not_exists, not_and]

/-- A definition that stays as it is loses nothing. -/
theorem not_loses_self (d : ElementTypeDefinition) (e : Element) : ¬ d.Loses (some d) e := by
  intro lost
  cases lost with
  | subType defined _ gone =>
    rw [Option.bind_some, defined] at gone
    cases gone
  | status defined _ found listed gone _ =>
    rw [Option.bind_some, defined] at found
    cases found
    exact gone listed
  | value defined _ incompatible =>
    have compatible := incompatible _ defined
    rw [AttributeDefinition.isCompatible_self] at compatible
    cases compatible

/-! ## Statuses that stay allowed -/

theorem allows_iff {d : ElementTypeDefinition} {subType status : String} :
    d.allows subType status = true ↔
      ∃ definition, d.subTypes.get? subType = some definition ∧ status ∈ definition.statuses := by
  unfold allows
  rw [Option.any_eq_true]
  exact exists_congr fun definition => and_congr_right fun _ => List.contains_iff_mem

/-- The new definition, if there is one, allows what it has kept of the sub-type. -/
theorem exists_allows_iff {subType status : String} :
    (∃ d, new = some d ∧ d.allows subType status = true) ↔
      ∃ kept, (new.bind fun d => d.subTypes.get? subType) = some kept ∧
        status ∈ kept.statuses := by
  simp only [allows_iff, Option.bind_eq_some_iff]
  constructor
  · rintro ⟨d, hd, kept, hkept, listed⟩
    exact ⟨kept, ⟨d, hd, hkept⟩, listed⟩
  · rintro ⟨kept, ⟨d, hd, hkept⟩, listed⟩
    exact ⟨d, hd, kept, hkept, listed⟩

/-- What the old definition allows an element to be, the new one allows if nothing is lost. -/
theorem allows_of_not_loses (keeps : ¬ old.Loses new e) {subType status : String}
    (hsub : e.subType = some subType) (hstatus : e.status = some status)
    (allowed : old.allows subType status = true) :
    ∃ d, new = some d ∧ d.allows subType status = true := by
  obtain ⟨definition, defined, listed⟩ := allows_iff.mp allowed
  -- either the sub-type is gone, or it is kept and only the status may be gone
  cases found : new.bind fun d => d.subTypes.get? subType with
  | none => exact absurd (.subType defined hsub found) keeps
  | some kept =>
    refine exists_allows_iff.mpr ⟨kept, found, ?_⟩
    by_contra gone
    exact keeps (.status defined hsub found listed gone hstatus)

/-! ## More elements -/

theorem subTypeBreaks_sublist (h : elements.Sublist elements') (subType : String)
    (definition : SubTypeDefinition) :
    (old.subTypeBreaks new elements subType definition).Sublist
      (old.subTypeBreaks new elements' subType definition) := by
  unfold subTypeBreaks
  cases new.bind fun d => d.subTypes.get? subType with
  | none => exact (h.filter _).map _
  | some kept =>
    exact List.Sublist.flatMap_right _ fun status _ => ((h.filter _).filter _).map _

theorem attributeBreaks_sublist (h : elements.Sublist elements') (aspect key : String)
    (definition : AttributeDefinition) :
    (old.attributeBreaks new elements aspect key definition).Sublist
      (old.attributeBreaks new elements' aspect key definition) := by
  unfold attributeBreaks
  cases definition.change? (new.bind fun d => d.attributeDefinition? aspect key) with
  | none => exact List.Sublist.refl _
  | some change => exact (h.filter _).map _

theorem breaks_sublist (h : elements.Sublist elements') :
    (old.breaks new elements).Sublist (old.breaks new elements') := by
  refine List.Sublist.append ?_ ?_
  · exact List.Sublist.flatMap_right _ fun p _ => subTypeBreaks_sublist h p.1 p.2
  · exact List.Sublist.flatMap_right _ fun p _ =>
      List.Sublist.flatMap_right _ fun q _ => attributeBreaks_sublist h p.1 q.1 q.2

end ElementTypeDefinition

/-! ## All definitions -/

theorem elementTypeBreaks_eq_nil_iff {old new : List ElementTypeDefinition}
    {elements : List Element} :
    elementTypeBreaks old new elements = [] ↔
      ∀ d ∈ old, ∀ e ∈ elements, e.elementType = d.elementType →
        ¬ d.Loses (findElementType? new d.elementType) e := by
  rw [elementTypeBreaks, List.flatMap_eq_nil_iff]
  exact forall₂_congr fun d _ => ElementTypeDefinition.breaks_eq_nil_iff

theorem elementTypeBreaks_sublist {old new : List ElementTypeDefinition}
    {elements elements' : List Element} (h : elements.Sublist elements') :
    (elementTypeBreaks old new elements).Sublist (elementTypeBreaks old new elements') :=
  List.Sublist.flatMap_right _ fun _ _ => ElementTypeDefinition.breaks_sublist h

theorem findElementType?_eq_some {ds : List ElementTypeDefinition} {t : ElementType}
    {d : ElementTypeDefinition} (h : findElementType? ds t = some d) : d ∈ ds ∧ d.elementType = t :=
  ⟨List.mem_of_find?_eq_some h, by simpa using List.find?_some h⟩

theorem findElementType?_of_mem {ds : List ElementTypeDefinition} {d : ElementTypeDefinition}
    (distinct : (ds.map (·.elementType)).Nodup) (hd : d ∈ ds) :
    findElementType? ds d.elementType = some d :=
  find?_of_nodup distinct hd

end TemplateCatalog
